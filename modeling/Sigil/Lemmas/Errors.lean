import Sigil.Program.Transaction

/-!
# Plain errors

Errors of accounts, tokens and amounts. A function that ends with nothing else never ends with an error that a check
is about, whatever the check is.
-/

namespace Sigil

open Library

/-- The errors of the program about accounts, amounts, constraint entries and slippage. -/
abbrev plainErrors : List SigilError :=
  [.overflow, .invalidTokenAccount, .unsupportedToken, .invalidConstraintsPda, .postAssertionFailed,
   .invalidProtocolTreasury, .invalidFeeDestination, .constraintViolated, .accountWritabilityMismatch,
   .invalidConstraintConfig, .invalidJupiterInstruction, .swapSlippageExceeded]

/-- None of the errors is plain. -/
class Sparing (bad : ProgramError → Bool) : Prop where
  anchor : ∀ e, bad (.anchor e) = false
  token : ∀ e, bad (.token e) = false
  sigil : ∀ e ∈ plainErrors, bad (.sigil e) = false

section
variable {bad : ProgramError → Bool} [hbad : Sparing bad] {w : World} {ctx : Ctx} {v : Pubkey} {l : Ledger}
  {policy : PolicyConfig}

/-! ## Amounts and tokens -/

@[simp] theorem ceilFee_avoids {amount rate : Nat} : Avoids bad (ceilFee amount rate) := by
  simp [ceilFee, hbad.sigil, plainErrors]

@[simp] theorem netAmount_avoids {amount fee fee' : Nat} : Avoids bad (netAmount amount fee fee') := by
  simp [netAmount, hbad.sigil, plainErrors]

@[simp] theorem getAccount_avoids : Avoids bad (l.getAccount v) := by simp [Ledger.getAccount, hbad.token]

@[simp] theorem debit_avoids {account : TokenAccount} {amount : Nat} : Avoids bad (Ledger.debit account v amount) := by
  simp [Ledger.debit, hbad.token]

@[simp] theorem transfer_avoids {source destination : Pubkey} {amount : Nat} :
    Avoids bad (l.transfer source destination v amount) := by
  simp [Ledger.transfer, hbad.token]

@[simp] theorem approve_avoids {address delegate : Pubkey} {amount : Nat} :
    Avoids bad (l.approve address delegate v amount) := by
  simp [Ledger.approve, hbad.token]

@[simp] theorem getMint_avoids : Avoids bad (l.getMint v) := by simp [Ledger.getMint, hbad.token]

@[simp] theorem initializeMint_avoids {mint : Mint} : Avoids bad (l.initializeMint v mint) := by
  simp [Ledger.initializeMint, hbad.token]

@[simp] theorem initializeAccount_avoids {mint owner : Pubkey} : Avoids bad (l.initializeAccount v mint owner) := by
  simp [Ledger.initializeAccount, hbad.token]

@[simp] theorem revoke_avoids {address : Pubkey} : Avoids bad (l.revoke address v) := by
  simp [Ledger.revoke, hbad.token]

@[simp] theorem setOwner_avoids {address newOwner : Pubkey} : Avoids bad (l.setOwner address newOwner v) := by
  simp [Ledger.setOwner, hbad.token]

@[simp] theorem setCloseAuthority_avoids {address : Pubkey} {new : Option Pubkey} :
    Avoids bad (l.setCloseAuthority address new v) := by
  simp [Ledger.setCloseAuthority, hbad.token]

@[simp] theorem setFrozen_avoids {address : Pubkey} {frozen : Bool} : Avoids bad (l.setFrozen address frozen v) := by
  simp [Ledger.setFrozen, hbad.token]

@[simp] theorem mintTo_avoids {address : Pubkey} {amount : Nat} : Avoids bad (l.mintTo address v amount) := by
  simp [Ledger.mintTo, hbad.token]

@[simp] theorem burn_avoids {address : Pubkey} {amount : Nat} : Avoids bad (l.burn address v amount) := by
  simp [Ledger.burn, hbad.token]

@[simp] theorem closeAccount_avoids {address : Pubkey} : Avoids bad (l.closeAccount address v) := by
  simp [Ledger.closeAccount, hbad.token]

@[simp] theorem tokenInstruction_avoids {op : TokenInstruction} : Avoids bad (op.exec l) := by
  cases op <;> simp [TokenInstruction.exec]

@[simp] theorem collectFee_avoids {source authority owner mint : Pubkey} {destination : Option Pubkey} {fee : Nat}
    {e : SigilError} (he : bad e = false) :
    Avoids bad (collectFee l source authority destination owner mint fee e) := by
  simp [collectFee, he]

/-! ## Loading accounts -/

@[simp] theorem requireSigner_avoids : Avoids bad (ctx.requireSigner v) := by
  simp [Ctx.requireSigner, hbad.anchor]

@[simp] theorem loadVault_avoids : Avoids bad (w.loadVault v) := by simp [World.loadVault, hbad.anchor]

@[simp] theorem loadPolicy_avoids : Avoids bad (w.loadPolicy v) := by simp [World.loadPolicy, hbad.anchor]

@[simp] theorem loadTracker_avoids : Avoids bad (w.loadTracker v) := by simp [World.loadTracker, hbad.anchor]

@[simp] theorem loadOverlay_avoids : Avoids bad (w.loadOverlay v) := by simp [World.loadOverlay, hbad.anchor]

@[simp] theorem loadToken_avoids : Avoids bad (w.loadToken v) := by simp [World.loadToken, hbad.anchor]

@[simp] theorem loadMint_avoids : Avoids bad (w.loadMint v) := by simp [World.loadMint, hbad.anchor]

@[simp] theorem loadTokenOption_avoids {o : Option Pubkey} : Avoids bad (w.loadTokenOption o) := by
  cases o <;> simp [World.loadTokenOption]

@[simp] theorem loadConstraints_avoids {remaining : List Pubkey} :
    Avoids bad (loadConstraints w v policy remaining) := by
  unfold loadConstraints
  split <;> simp [hbad.sigil, plainErrors]

/-! ## Constraint entries and slippage -/

@[simp] theorem verifyEntries_avoids {ix : RawInstruction} {entries : List ConstraintEntry} {i : Nat}
    {found seen : Bool} : Avoids bad (verifyEntries ix entries i found seen) := by
  induction entries generalizing i found seen with
  | nil => simp [verifyEntries, hbad.sigil, plainErrors]
  | cons entry entries ih =>
      unfold verifyEntries
      split
      · exact ih
      · split
        · exact avoids_pure
        · exact ih
        · exact ih

@[simp] theorem readLe_avoids {data : List UInt8} {cursor size : Nat} : Avoids bad (readLe data cursor size) := by
  simp [readLe, hbad.sigil, plainErrors]

@[simp] theorem skipRemainingAccountsInfo_avoids {data : List UInt8} {cursor : Nat} :
    Avoids bad (skipRemainingAccountsInfo data cursor) := by
  simp [skipRemainingAccountsInfo, hbad.sigil, plainErrors]

@[simp] theorem skipOptionRemainingAccountsInfo_avoids {data : List UInt8} {cursor : Nat} :
    Avoids bad (skipOptionRemainingAccountsInfo data cursor) := by
  simp [skipOptionRemainingAccountsInfo, hbad.sigil, plainErrors]

@[simp] theorem skipVariableSwapFields_avoids {data : List UInt8} {cursor variant : Nat} :
    Avoids bad (skipVariableSwapFields data cursor variant) := by
  simp [skipVariableSwapFields, hbad.sigil, plainErrors]

@[simp] theorem skipRouteStep_avoids {data : List UInt8} {cursor : Nat} : Avoids bad (skipRouteStep data cursor) := by
  simp [skipRouteStep, hbad.sigil, plainErrors]

@[simp] theorem skipRouteSteps_avoids {data : List UInt8} {n cursor : Nat} :
    Avoids bad (skipRouteSteps data n cursor) := by
  induction n generalizing cursor with
  | zero => exact avoids_pure
  | succ n ih => exact avoids_bind.mpr ⟨skipRouteStep_avoids, fun _ _ => ih⟩

@[simp] theorem verifyJupiterSlippage_avoids {data : List UInt8} {bps : Nat} :
    Avoids bad (verifyJupiterSlippage data bps) := by
  simp [verifyJupiterSlippage, hbad.sigil, plainErrors]

@[simp] theorem enforceJupiterSlippageIfJupiter_avoids {ix : RawInstruction} {bps : Nat} :
    Avoids bad (enforceJupiterSlippageIfJupiter ix bps) := by
  simp [enforceJupiterSlippageIfJupiter]

/-! ## Sessions -/

@[simp] theorem planSpend_avoids {a : ValidateAndAuthorize} {account : TokenAccount} :
    Avoids bad (planSpend w a policy account) := by
  simp [planSpend, hbad.sigil, plainErrors]

@[simp] theorem collectFeesAndDelegate_avoids {a : ValidateAndAuthorize} {vault : AgentVault} {plan : SpendPlan} :
    Avoids bad (collectFeesAndDelegate l a vault plan) := by
  simp [collectFeesAndDelegate, hbad.sigil, plainErrors]

@[simp] theorem readTarget_avoids {remaining : List Pubkey} {entry : PostAssertionEntry} {e : SigilError}
    (he : bad e = false) : Avoids bad (readTarget ctx remaining entry e) := by
  simp [readTarget, he, hbad.sigil, plainErrors]

@[simp] theorem snapshotEntry_avoids {remaining : List Pubkey} {entry : PostAssertionEntry} :
    Avoids bad (snapshotEntry ctx remaining entry) := by
  simp [snapshotEntry, hbad.sigil, plainErrors]

@[simp] theorem captureSnapshots_avoids {a : ValidateAndAuthorize} :
    Avoids bad (captureSnapshots w ctx a policy) := by
  simp [captureSnapshots, hbad.sigil, plainErrors]

end

end Sigil
