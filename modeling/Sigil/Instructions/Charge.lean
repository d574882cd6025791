import Sigil.Runtime.World

/-!
# Charges and fees

The parts that `finalize_session`, `agent_transfer` and `create_escrow` share: the caps, the overlay of the
agent and the transfers of the fees.
-/

namespace Sigil

open Library

/-- The rolling total with `amount` stays within the daily cap. -/
def checkRollingCap (policy : PolicyConfig) (tracker : SpendTracker) (clock : Clock) (amount : Nat) :
    Result Unit := do
  let newTotal ← okOr (checkedAdd 64 (tracker.getRolling24hUsd clock) amount) SigilError.overflow
  require (newTotal ≤ policy.dailySpendingCapUsd) SigilError.spendingCapExceeded

/-- A limit of zero is no limit. -/
def checkAgentLimit (entry : AgentEntry) (overlay : AgentSpendOverlay) (clock : Clock)
    (slot : Fin maxOverlayEntries) (amount : Nat) : Result Unit :=
  if entry.spendingLimitUsd > 0 then do
    let newAgent ← okOr (checkedAdd 64 (overlay.getAgentRolling24hUsd clock slot) amount) SigilError.overflow
    require (newAgent ≤ entry.spendingLimitUsd) SigilError.agentSpendLimitExceeded
  else
    pure ()

/-- Lifetime counters, which only `finalize_session` keeps. -/
def addLifetime (overlay : AgentSpendOverlay) (slot : Fin maxOverlayEntries) (amount : Nat) :
    Result AgentSpendOverlay := do
  let spend ← okOr (checkedAdd 64 (overlay.lifetimeSpend slot) amount) SigilError.overflow
  let count ← okOr (checkedAdd 64 (overlay.lifetimeTxCount slot) 1) SigilError.overflow
  pure { overlay with
    lifetimeSpend := Function.update overlay.lifetimeSpend slot spend
    lifetimeTxCount := Function.update overlay.lifetimeTxCount slot count }

/-- Cap and contribution of one agent. An agent with a limit needs a slot. -/
def chargeAgent (vault : AgentVault) (overlay : AgentSpendOverlay) (clock : Clock) (agent : Pubkey)
    (amount : Nat) (lifetime : Bool) : Result AgentSpendOverlay := do
  let entry ← okOr (vault.getAgent agent) SigilError.unauthorizedAgent
  match overlay.findAgentSlot agent with
  | some slot => do
      checkAgentLimit entry overlay clock slot amount
      let overlay' ← overlay.recordAgentContribution clock slot amount
      if lifetime then addLifetime overlay' slot amount else pure overlay'
  | none => do
      require (entry.spendingLimitUsd = 0) SigilError.agentSlotNotFound
      pure overlay

/-- A protocol without a cap, or with the cap zero, is not limited. -/
def checkProtocolCap (policy : PolicyConfig) (tracker : SpendTracker) (clock : Clock) (protocol : Pubkey)
    (amount : Nat) : Result Unit :=
  match policy.getProtocolCap protocol with
  | some (cap + 1) => do
      let newProto ← okOr (checkedAdd 64 (tracker.getProtocolSpend clock protocol) amount) SigilError.overflow
      require (newProto ≤ cap + 1) SigilError.protocolCapExceeded
  | _ => pure ()

/-- The charge of a finalized session, in both of its branches. -/
def chargeSpend (policy : PolicyConfig) (vault : AgentVault) (tracker : SpendTracker)
    (overlay : AgentSpendOverlay) (clock : Clock) (agent protocol : Pubkey) (amount : Nat) :
    Result (SpendTracker × AgentSpendOverlay) := do
  require (amount ≤ policy.maxTransactionSizeUsd) SigilError.transactionTooLarge
  checkRollingCap policy tracker clock amount
  let overlay' ← chargeAgent vault overlay clock agent amount true
  checkProtocolCap policy tracker clock protocol amount
  let recorded ← tracker.recordSpend clock amount
  let tracker' ← if policy.hasProtocolCaps then recorded.recordProtocolSpend clock protocol amount else pure recorded
  pure (tracker', overlay')

/-- Transfer of a fee to an account of `owner` in the mint of the payment. -/
def collectFee (ledger : Ledger) (source authority : Pubkey) (destination : Option Pubkey)
    (owner tokenMint : Pubkey) (fee : Nat) (e : SigilError) : Result Ledger :=
  if fee > 0 then do
    let address ← okOr destination e
    let account ← ledger.getAccount address
    require (account.owner = owner) e
    require (account.mint = tokenMint) e
    ledger.transfer source address authority fee
  else
    pure ledger

/-- The amount without its fees. -/
def netAmount (amount protocolFee developerFee : Nat) : Result Nat := do
  let rest ← okOr (checkedSub amount protocolFee) SigilError.overflow
  okOr (checkedSub rest developerFee) SigilError.overflow

/-- Counters of the vault after a payment. -/
def addPayment (vault : AgentVault) (amount developerFee : Nat) : Result AgentVault := do
  let transactions ← okOr (checkedAdd 64 vault.totalTransactions 1) SigilError.overflow
  let volume ← okOr (checkedAdd 64 vault.totalVolume amount) SigilError.overflow
  let fees ← okOr (checkedAdd 64 vault.totalFeesCollected developerFee) SigilError.overflow
  pure { vault with totalTransactions := transactions, totalVolume := volume, totalFeesCollected := fees }

end Sigil
