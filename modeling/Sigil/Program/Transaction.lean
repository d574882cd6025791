import Sigil.Library.Run
import Sigil.Program.Dispatch

/-!
# Transactions

A transaction is a list of top-level instructions under one clock and one set of signers. It commits as a
whole or changes nothing. Only this program signs for its own addresses: the token instructions that another
program performs are signed by signers of the transaction or by addresses derived by that program.
-/

namespace Sigil

open Library

inductive Call where
  | sigil (instruction : Instruction)
  /-- Any other program, given by the token instructions it performs. -/
  | foreign (tokenInstructions : List TokenInstruction)

/-- A top-level instruction: what the instructions sysvar shows of it and what it does, with the bytes and
lamports of other accounts at that moment. -/
structure TopLevel where
  raw : RawInstruction
  call : Call
  accountData : Pubkey → List UInt8 := fun _ => []
  lamports : Pubkey → Nat := fun _ => 0

/-- A call of this program. Accounts and arguments of the raw form matter to constraint entries only. -/
def Instruction.toTopLevel (i : Instruction) : TopLevel :=
  { raw := { programId := crateId, accounts := [], data := i.discriminator }, call := .sigil i }

/-- Whether the authority of a token instruction can sign outside of this program. -/
def signedBy (signers : List Pubkey) (op : TokenInstruction) : Bool :=
  match op.authority with
  | none => true
  | some authority => authority ∈ signers || authority.isProgramDerived

/-- What a top-level instruction of another program can perform: the token program performs the one
instruction its data names, the compute budget and system programs none. -/
def foreignAllowed (raw : RawInstruction) (signers : List Pubkey) (ops : List TokenInstruction) : Bool :=
  raw.programId ≠ crateId && ops.all (signedBy signers) &&
    if isInfrastructure raw.programId then ops = []
    else if raw.programId = splTokenProgramId then
      match ops with
      | [] => true
      | [op] => (op.opcodes.map some).contains raw.data.head?
      | _ => false
    else true

def TopLevel.exec (ctx : Ctx) (ix : TopLevel) (w : World) : Result World :=
  match ix.call with
  | .sigil i => do
      require (ix.raw.programId = crateId ∧ ix.raw.data.take 8 = i.discriminator)
        AnchorError.instructionFallbackNotFound
      i.exec ctx w
  | .foreign ops => do
      require (foreignAllowed ix.raw ctx.signers ops) ProgramError.runtime
      let ledger ← run (fun op l => TokenInstruction.exec l op) ops w.ledger
      pure (w.setLedger ledger)

/-- One instruction with the context it runs in. -/
structure Step where
  ctx : Ctx
  instruction : TopLevel
  signers_isKey : ∀ k ∈ ctx.signers, k.isKey = true

/-- An instruction alone in its transaction. -/
def Step.alone (clock : Clock) (signers : List Pubkey) (ix : TopLevel)
    (h : ∀ k ∈ signers, k.isKey = true := by decide) : Step :=
  { ctx := { clock := clock, signers := signers, instructions := [ix.raw] }
    instruction := ix
    signers_isKey := h }

def Step.ofKey (clock : Clock) (n : Nat) (ix : TopLevel) : Step :=
  .alone clock [.key n] ix (by simp [Pubkey.isKey])

def Step.exec (st : Step) (w : World) : Result World := st.instruction.exec st.ctx w

structure Transaction where
  clock : Clock
  signers : List Pubkey
  instructions : List TopLevel
  signers_isKey : ∀ k ∈ signers, k.isKey = true := by decide

namespace Transaction

/-- Instructions under one signature. -/
def ofKey (clock : Clock) (n : Nat) (instructions : List TopLevel) : Transaction :=
  { clock := clock
    signers := [.key n]
    instructions := instructions
    signers_isKey := by simp [Pubkey.isKey] }

variable (tx : Transaction)

def step (ix : TopLevel) (index : Nat) : Step :=
  { ctx :=
      { clock := tx.clock
        signers := tx.signers
        instructions := tx.instructions.map TopLevel.raw
        index := index
        accountData := ix.accountData
        lamports := ix.lamports }
    instruction := ix
    signers_isKey := tx.signers_isKey }

/-- Steps of instructions that start at an index of the transaction. -/
def stepsFrom : List TopLevel → Nat → List Step
  | [], _ => []
  | ix :: rest, index => tx.step ix index :: stepsFrom rest (index + 1)

def steps : List Step := tx.stepsFrom tx.instructions 0

def run (w : World) : Result World := Library.run Step.exec tx.steps w

/-- State after the transaction: a transaction that fails is rolled back. -/
def commit (w : World) : World :=
  match tx.run w with
  | .ok w' => w'
  | .error _ => w

end Transaction

/-- State after transactions, oldest first. -/
def chain (txs : List Transaction) (w : World) : World := txs.foldl (fun w tx => tx.commit w) w

end Sigil
