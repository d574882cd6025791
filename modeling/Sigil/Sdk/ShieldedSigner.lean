import Sigil.Sdk.Shield

/-!
# Batches of transactions

`modifyAndSignTransactions` of `createShieldedSigner`: transactions are approved one after the other, and then all of
them are passed on to the base signer.
-/

namespace Sigil.Sdk

/-- A transaction with the instructions that are read from it, and with what its turn meets. -/
structure BatchTransaction where
  instructions : List InspectableInstruction
  /-- `Date.now()` before the simulation. -/
  startedAt : Int
  /-- `Date.now()` after it. -/
  now : Int
  simulated : Bool

/-- What the base signer implements, and whether that succeeds. -/
inductive BaseSigner where
  | modifyAndSign (succeeds : Bool)
  | sign (succeeds : Bool)
  | unsupported
  deriving DecidableEq, Repr

inductive SigningError where
  | denied (violations : List PolicyViolation)
  | baseSigner
  /-- "Unsupported signer type: must implement signTransactions or modifyAndSignTransactions" -/
  | signerInvalid

def BaseSigner.signTransactions : BaseSigner → Except SigningError Unit
  | .modifyAndSign succeeds => if succeeds then .ok () else .error .baseSigner
  | .sign succeeds => if succeeds then .ok () else .error .baseSigner
  | .unsupported => .error .signerInvalid

structure ShieldedSigner where
  address : Pubkey
  options : ShieldedSignerOptions
  baseSigner : BaseSigner

namespace ShieldedSigner

variable (base58 : Pubkey → String) (signer : ShieldedSigner)

def request (tx : BatchTransaction) : SigningRequest :=
  { instructions := tx.instructions, signerAddress := signer.address, options := signer.options }

/-- The body of the loop. -/
def approve (tx : BatchTransaction) (c : ShieldedContext) : Except (List PolicyViolation) ShieldedContext :=
  let velocity := (signer.request tx).checkVelocityCeiling tx.startedAt c.state.toShieldState
  if velocity.isEmpty then (signer.request tx).approve base58 tx.now tx.simulated c else .error velocity

/-- What becomes of the context, with the violations that have ended the loop. -/
def approveAll : List BatchTransaction → ShieldedContext → ShieldedContext × Option (List PolicyViolation)
  | [], c => (c, none)
  | tx :: txs, c =>
      match signer.approve base58 tx c with
      | .ok c => approveAll txs c
      | .error violations => (c, some violations)

def modifyAndSignTransactions (txs : List BatchTransaction) (c : ShieldedContext) :
    ShieldedContext × Except SigningError Unit :=
  let result := signer.approveAll base58 txs c
  (result.1, result.2.elim signer.baseSigner.signTransactions fun violations => .error (.denied violations))

end ShieldedSigner

end Sigil.Sdk
