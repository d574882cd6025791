import Sigil.Sdk.Shield

/-!
# Tasks on one shield

The tasks that share a context take turns at their awaits: `sync` while it reads the chain, and a shielded signer while
it simulates. Everything between two awaits is one turn.
-/

namespace Sigil.Sdk

/-- A read of the chain, with the number of amounts that had been approved when it was taken. -/
structure Reading where
  state : ResolvedVaultState
  since : Nat

/-- The approved amounts and the last sync are there for the statements only. -/
structure ShieldTasks where
  context : ShieldedContext
  /-- Transactions that are being simulated. -/
  signings : List SigningRequest
  /-- Reads that `sync` has not taken over. -/
  readings : List Reading
  /-- Stablecoin amounts in the order of approval. -/
  approvals : List Int
  /-- The read that was taken over last. -/
  synced : Option Reading

inductive ShieldTurn where
  | enforce (now : Int) (instructions : List InspectableInstruction) (signerAddress : Pubkey)
  | beginSigning (now : Int) (r : SigningRequest)
  | approve (now : Int) (i : Nat) (simulated : Bool)
  | readChain (state : ResolvedVaultState)
  | completeSync (i : Nat)
  | updatePolicies (policies : ShieldPolicies) (customCheck : Option (TransactionAnalysis → PolicyCheckResult))
  | pause
  | resume

namespace ShieldTasks

/-- A new context. -/
def initial (resolved : CheckedPolicies) (syncNetwork : Option Network) : ShieldTasks :=
  { context := { resolved := resolved, paused := false, state := .initial, syncNetwork := syncNetwork }
    signings := []
    readings := []
    approvals := []
    synced := none }

variable (w : ShieldTasks)

def stablecoinUsd (instructions : List InspectableInstruction) (signerAddress : Pubkey) : Int :=
  match w.context.syncNetwork with
  | some network =>
      computeStablecoinUsd (analyzeInstructions instructions signerAddress).tokenTransfers signerAddress network
  | none => 0

/-- What becomes of the context, if the instructions are approved. -/
def approved (instructions : List InspectableInstruction) (signerAddress : Pubkey)
    (result : Except (List PolicyViolation) ShieldedContext) : ShieldTasks :=
  match result with
  | .ok context =>
      { w with context := context, approvals := w.approvals ++ [w.stablecoinUsd instructions signerAddress] }
  | .error _ => w

def completeSync (i : Nat) : ShieldTasks :=
  match w.readings[i]? with
  | some reading => { w with
      context := { w.context with state := w.context.state.syncFromOnChain reading.state w.context.syncNetwork }
      readings := w.readings.eraseIdx i
      synced := some reading }
  | none => w

def approveSigning (base58 : Pubkey → String) (now : Int) (i : Nat) (simulated : Bool) : ShieldTasks :=
  match w.signings[i]? with
  | some r => approved { w with signings := w.signings.eraseIdx i } r.instructions r.signerAddress
      (r.approve base58 now simulated w.context)
  | none => w

def updatePolicies (policies : ShieldPolicies) (customCheck : Option (TransactionAnalysis → PolicyCheckResult)) :
    ShieldTasks :=
  match resolvePolicies (some policies) with
  | .ok resolved =>
      { w with context :=
          { w.context with resolved := { toResolvedPolicies := resolved, customCheck := customCheck } } }
  | .error _ => w

def exec (base58 : Pubkey → String) : ShieldTurn → ShieldTasks
  | .enforce now instructions signerAddress =>
      w.approved instructions signerAddress (w.context.enforce base58 now instructions signerAddress)
  | .beginSigning now r =>
      if r.checkVelocityCeiling now w.context.state.toShieldState = [] then { w with signings := w.signings ++ [r] }
      else w
  | .approve now i simulated => w.approveSigning base58 now i simulated
  | .readChain state =>
      -- without `onChainSync` a sync throws before it reads
      if w.context.syncNetwork.isSome then { w with readings := w.readings ++ [⟨state, w.approvals.length⟩] } else w
  | .completeSync i => w.completeSync i
  | .updatePolicies policies customCheck => w.updatePolicies policies customCheck
  | .pause => { w with context := { w.context with paused := true } }
  | .resume => { w with context := { w.context with paused := false } }

/-- After turns, one after the other. -/
def after (base58 : Pubkey → String) (turns : List ShieldTurn) : ShieldTasks :=
  turns.foldl (fun w turn => w.exec base58 turn) w

end ShieldTasks

end Sigil.Sdk
