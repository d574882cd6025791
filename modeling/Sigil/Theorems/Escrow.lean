import Mathlib.Data.Set.Card
import Sigil.Lemmas.EscrowInv
import Sigil.Theorems.SpendingCap

/-!
# What happens to escrowed tokens

The mint that a settlement or a refund is given decides what is paid. If it is the mint of the escrow, the
escrow pays out exactly once; and the payout succeeds iff nobody sent anything more to its account.
-/

namespace Sigil

open Library

/-! ## Conservation -/

def IsActive (w : World) (e : Pubkey) (d : EscrowDeposit) : Prop := w.escrows e = some d ∧ d.status = .active

/-- The escrow's account of its mint paid exactly the amount to an account of the right vault, at the right
time, and is gone. -/
def PaidOut (clock : Clock) (w w' : World) (e : Pubkey) (d : EscrowDeposit) : Prop :=
  ∃ status recipient x source destination, PaysAtTime clock d status recipient ∧
    w'.escrows e = some { d with status := status } ∧
    w.ledger.accounts (.ata e d.tokenMint) = some source ∧ source.amount = d.amount ∧
    w.ledger.accounts x = some destination ∧ destination.mint = d.tokenMint ∧ destination.owner = recipient ∧
    x ≠ .ata e d.tokenMint ∧
    w'.ledger.accounts = Function.update
      (Function.update w.ledger.accounts x (some (Ledger.credit destination d.amount))) (.ata e d.tokenMint) none

/-- The law of one step: an active escrow holds its tokens and loses none, an escrow that leaves the active
state is paid out, and an escrow that has left it never changes again. -/
structure EscrowLaw (clock : Clock) (w w' : World) : Prop where
  backed : ∀ e d, IsActive w' e d → Backed w' e d
  kept : ∀ e d d', IsActive w e d → IsActive w' e d' →
    d' = d ∧ w.ledger.balance (.ata e d.tokenMint) ≤ w'.ledger.balance (.ata e d.tokenMint)
  paid : ∀ e d, IsActive w e d → (∀ d', ¬ IsActive w' e d') → PaidOut clock w w' e d
  final : ∀ e d, w.escrows e = some d → d.status ≠ .active → w'.escrows e = some d ∨ w'.escrows e = none

/-- A settlement or a refund is given the mint of its escrow. -/
def PassesMint (st : Step) (w : World) : Prop :=
  ∀ p d, st.payout = some p → w.escrows p.escrow = some d → p.tokenMint = d.tokenMint

section
variable {w w' : World} {st : Step} {e : Pubkey} {d : EscrowDeposit}

theorem Backed.balance_le (h : Backed w e d)
    (hata : ∀ account, w.ledger.accounts (.ata e d.tokenMint) = some account →
      ∃ account', w'.ledger.accounts (.ata e d.tokenMint) = some account' ∧ account.amount ≤ account'.amount) :
    w.ledger.balance (.ata e d.tokenMint) ≤ w'.ledger.balance (.ata e d.tokenMint) := by
  obtain ⟨account, haccount, -⟩ := h
  obtain ⟨account', haccount', hle⟩ := hata account haccount
  simpa [Ledger.balance, haccount, haccount'] using hle

theorem ne_of_isVault_isEscrow {v : Pubkey} (he : e.isEscrow) (hv : v.isVault) : e ≠ v := by
  rintro rfl
  cases e <;> simp [Pubkey.isVault, Pubkey.isEscrow] at he hv

/-- With the right mint a payout pays the escrow out. -/
theorem PaysOut.paidOut {p : Payout} {status : EscrowStatus} {recipient : Pubkey}
    (hpays : PaysOut w.ledger w'.ledger p recipient d.amount) (hne : p.escrow ≠ recipient)
    (hmint : p.tokenMint = d.tokenMint) (htime : PaysAtTime st.ctx.clock d status recipient)
    (hescrow : w'.escrows p.escrow = some { d with status := status }) :
    PaidOut st.ctx.clock w w' p.escrow d := by
  obtain ⟨source, destination, hsource, hamount, -, hdest, hdmint, howner, -, hdiff, haccounts⟩ := hpays.accounts hne
  rw [hmint] at hsource hdmint hdiff haccounts
  exact ⟨status, recipient, p.vaultAta, source, destination, htime, hescrow, hsource, hamount, hdest, hdmint, howner,
    hdiff, haccounts⟩

/-- With another mint the account of the escrow's mint is not closed. -/
theorem PaysOut.not_paidOut {p : Payout} {recipient : Pubkey}
    (hpays : PaysOut w.ledger w'.ledger p recipient d.amount) (hne : p.escrow ≠ recipient)
    (hsound : w.ledger.Sound) (he : p.escrow.isEscrow) (hbacked : Backed w p.escrow d)
    (hmint : p.tokenMint ≠ d.tokenMint) : ¬ PaidOut st.ctx.clock w w' p.escrow d := by
  rintro ⟨_, _, _, _, _, -, -, -, -, -, -, -, -, hclosed⟩
  obtain ⟨account, haccount, -⟩ := hbacked
  obtain ⟨-, destination, -, -, -, hdest, hdmint, -, -, -, haccounts⟩ := hpays.accounts hne
  have hvault : Pubkey.ata p.escrow d.tokenMint ≠ p.vaultAta := by
    intro heq
    rw [← heq, haccount] at hdest
    cases hdest
    exact hmint (hdmint.symm.trans (hsound _ _ haccount _ _ rfl (.inr he)).2.1)
  have hother : Pubkey.ata p.escrow d.tokenMint ≠ .ata p.escrow p.tokenMint := by
    simp [hmint.symm]
  have h := congrFun (haccounts.symm.trans hclosed) (.ata p.escrow d.tokenMint)
  rw [Function.update_self, Function.update_of_ne hother, Function.update_of_ne hvault, haccount] at h
  cases h

/-- A step that moves no escrow out of the active state keeps the law. -/
theorem EscrowLaw.of_kept (hinv : EscrowInv w) (hinv' : EscrowInv w')
    (hactive : ∀ e d, IsActive w e d → w'.escrows e = some d)
    (hata : ∀ e d, IsActive w e d → ∀ account, w.ledger.accounts (.ata e d.tokenMint) = some account →
      ∃ account', w'.ledger.accounts (.ata e d.tokenMint) = some account' ∧ account.amount ≤ account'.amount)
    (hfinal : ∀ e d, w.escrows e = some d → d.status ≠ .active → w'.escrows e = some d ∨ w'.escrows e = none) :
    EscrowLaw st.ctx.clock w w' where
  backed e d hd := hinv'.backed e d hd.1 hd.2
  kept e d d' hd hd' := by
    cases (hactive e d hd).symm.trans hd'.1
    exact ⟨rfl, (hinv.backed e d hd.1 hd.2).balance_le (hata e d hd)⟩
  paid e d hd hleft := absurd ⟨hactive e d hd, hd.2⟩ (hleft d)
  final := hfinal

theorem escrowLaw_step_iff (hinv : EscrowInv w) (hexec : st.exec w = .ok w') :
    EscrowLaw st.ctx.clock w w' ↔ PassesMint st w := by
  have hinv' := hinv.step hexec
  have hisEscrow : ∀ e d, IsActive w e d → e.isEscrow :=
    fun e d hd => isEscrow_of_address (hinv.address e d hd.1)
  cases Step.escrowChange hexec with
  | kept hpayout hescrows hcount hledger =>
      refine iff_of_true (.of_kept hinv hinv' ?_ ?_ ?_) (by simp [PassesMint, hpayout])
      · exact fun e d hd => hescrows ▸ hd.1
      · exact fun e d hd account => hledger.escrow_ata hinv.sound (hisEscrow e d hd)
      · exact fun e d he _ => .inl (hescrows ▸ he)
  | created x d hpayout haddress hnone hactive hescrows hcount hledger hfunded =>
      have hother : ∀ e d', w.escrows e = some d' → w'.escrows e = some d' := by
        intro e d' he
        have hne : e ≠ x := by
          rintro rfl
          cases hnone.symm.trans he
        rw [hescrows, Function.update_of_ne hne]
        exact he
      refine iff_of_true (.of_kept hinv hinv' ?_ ?_ ?_) (by simp [PassesMint, hpayout])
      · exact fun e d hd => hother e d hd.1
      · exact fun e d hd account => LedgerKept.escrow_ata (.inl hledger) hinv.sound (hisEscrow e d hd)
      · exact fun e d he _ => .inl (hother e d he)
  | removed x d hpayout hescrow hstatus hescrows hcount hledger =>
      have hother : ∀ e, e ≠ x → w'.escrows e = w.escrows e :=
        fun e hne => by rw [hescrows, Function.update_of_ne hne]
      refine iff_of_true (.of_kept hinv hinv' ?_ ?_ ?_) (by simp [PassesMint, hpayout])
      · intro e d' hd
        rw [hother e, hd.1]
        rintro rfl
        cases hescrow.symm.trans hd.1
        exact hstatus hd.2
      · exact fun e d hd account haccount => ⟨account, hledger ▸ haccount, le_rfl⟩
      · intro e d' he _
        rcases eq_or_ne e x with rfl | hne
        · exact .inr (by rw [hescrows, Function.update_self])
        · exact .inl ((hother e hne).trans he)
  | released p d status recipient hpayout hescrow hactive htime hrecipient hescrows hcount hpays =>
      have he := hisEscrow p.escrow d ⟨hescrow, hactive⟩
      have hne := ne_of_isVault_isEscrow he hrecipient
      have hself : w'.escrows p.escrow = some { d with status := status } := by
        rw [hescrows, Function.update_self]
      have hleft : ∀ d', ¬ IsActive w' p.escrow d' := by
        rintro d' ⟨hd', hactive'⟩
        cases hself.symm.trans hd'
        exact htime.not_active hactive'
      have hpasses : PassesMint st w ↔ p.tokenMint = d.tokenMint := by
        constructor
        · exact fun h => h p d hpayout hescrow
        · rintro h p' d' hp' hd'
          cases hpayout.symm.trans hp'
          cases hescrow.symm.trans hd'
          exact h
      rw [hpasses]
      constructor
      · intro hlaw
        by_contra hmint
        exact hpays.not_paidOut hne hinv.sound he (hinv.backed _ _ hescrow hactive) hmint
          (hlaw.paid p.escrow d ⟨hescrow, hactive⟩ hleft)
      · intro hmint
        have hother : ∀ x, x ≠ p.escrow → w'.escrows x = w.escrows x :=
          fun x hx => by rw [hescrows, Function.update_of_ne hx]
        refine ⟨fun x d' hd' => hinv'.backed x d' hd'.1 hd'.2, ?_, ?_, ?_⟩
        · intro x d₁ d₂ h₁ h₂
          have hx : x ≠ p.escrow := by
            rintro rfl
            exact hleft d₂ h₂
          cases (((hother x hx).trans h₁.1).symm.trans h₂.1)
          exact ⟨rfl, (hinv.backed x d₁ h₁.1 h₁.2).balance_le fun account =>
            hpays.moves.escrow_ata hinv.sound (hisEscrow x d₁ h₁) hx⟩
        · intro x d₁ h₁ hgone
          rcases eq_or_ne x p.escrow with rfl | hx
          · cases hescrow.symm.trans h₁.1
            exact hpays.paidOut hne hmint htime hself
          · exact absurd ⟨(hother x hx).trans h₁.1, h₁.2⟩ (hgone d₁)
        · intro x d₁ h₁ hstatus
          rcases eq_or_ne x p.escrow with rfl | hx
          · cases hescrow.symm.trans h₁
            exact absurd hactive hstatus
          · exact .inl ((hother x hx).trans h₁)

/-- The law holds at every step of a run iff every settlement and refund of the run is given the mint of its
escrow. -/
theorem escrow_conservation_iff (steps : List Step) :
    Always Step.exec (fun st w w' => EscrowLaw st.ctx.clock w w') steps {} ↔
      Always Step.exec (fun st w _ => PassesMint st w) steps {} := by
  simp only [always_iff]
  constructor
  · intro h before st after w w' hsplit hrun hexec
    exact (escrowLaw_step_iff (escrowInv_run hrun) hexec).mp (h before st after w w' hsplit hrun hexec)
  · intro h before st after w w' hsplit hrun hexec
    exact (escrowLaw_step_iff (escrowInv_run hrun) hexec).mpr (h before st after w w' hsplit hrun hexec)

end

/-! ### An escrow of 1 USDC from the vault of owner 1 to a vault of owner 6 -/

def payeeVault : InitializeVault := { payVault with owner := .key 6 }

def payEscrow : CreateEscrow :=
  { agent := .key 3, sourceVault := payVault.vault, destinationVault := payeeVault.vault,
    sourceVaultAta := .ata payVault.vault usdcMint, protocolTreasuryAta := some (.ata protocolTreasury usdcMint),
    tokenMint := usdcMint, escrowId := 0, amount := 1000000, expiresAt := 601000, conditionHash := unconditional }

/-- The escrow holds 999800, after the fee of 200. -/
def escrowRun : List Step :=
  payRun.take 3 ++
  [.ofKey payClock 6 (Instruction.initializeVault payeeVault).toTopLevel,
   .ofKey payClock 3 (Instruction.createEscrow payEscrow).toTopLevel]

/-- Agent 3 mints as much of a token of its own to an account of the escrow. -/
def worthlessToken : TopLevel :=
  { raw := { programId := .key 9, accounts := [], data := [] }
    call := .foreign
      [.initializeMint (.key 50) { decimals := 6, mintAuthority := some (.key 3) },
       .createAssociated payEscrow.escrow (.key 50), .createAssociated payVault.vault (.key 50),
       .mintTo (.ata payEscrow.escrow (.key 50)) (.key 3) 999800] }

def refundOf (signer mint : Pubkey) : RefundEscrow :=
  { sourceSigner := signer, sourceVault := payVault.vault, escrow := payEscrow.escrow,
    vaultAta := .ata payVault.vault mint, tokenMint := mint, rentDestination := .key 1 }

def refundAt (signer mint : Pubkey) (h : ∀ k ∈ [signer], k.isKey = true := by decide) : Step :=
  .alone { unixTimestamp := 601000, slot := 2000 } [signer]
    (Instruction.refundEscrow (refundOf signer mint)).toTopLevel h

/-- A refund with the worthless mint: the escrow is refunded and its USDC stay where they are. -/
theorem escrow_not_conserved : ∃ w w' d,
    run Step.exec (escrowRun ++ [.alone payClock [.key 50, .key 3] worthlessToken]) {} = .ok w ∧
    (refundAt (.key 3) (.key 50)).exec w = .ok w' ∧
    w.escrows payEscrow.escrow = some d ∧ d.status = .active ∧ d.tokenMint = usdcMint ∧ d.amount = 999800 ∧
    w'.escrows payEscrow.escrow = some { d with status := .refunded } ∧
    w.ledger.balance (.ata payEscrow.escrow usdcMint) = 999800 ∧
    w'.ledger.balance (.ata payEscrow.escrow usdcMint) = 999800 :=
  ⟨_, _, _, rfl, rfl, rfl, rfl, rfl, rfl, rfl, rfl, rfl⟩

/-! ## Recovery -/

section
variable {l : Ledger} {w : World} {e m : Pubkey} {d : EscrowDeposit}

theorem transfer_of_owner {source destination owner : Pubkey} {src dst : TokenAccount} {n : Nat}
    (hsrc : l.accounts source = some src) (hdst : l.accounts destination = some dst) (hne : source ≠ destination)
    (hfrozen : src.frozen = false ∧ dst.frozen = false) (hamount : n ≤ src.amount) (hmint : src.mint = dst.mint)
    (howner : owner = src.owner) (hdelegate : src.delegate = none) :
    l.transfer source destination owner n = .ok ((l.setAccount source { src with amount := src.amount - n }).setAccount
      destination (Ledger.credit dst n)) := by
  simp [Ledger.transfer, Ledger.getAccount, okOr, Ledger.debit, require, hsrc, hdst, hne, hfrozen.1, hfrozen.2,
    hamount, hmint, howner, hdelegate, bind, Except.bind, pure, Except.pure]

/-- A payout with the right accounts succeeds iff the escrow's account holds the amount and nothing more, and
neither account is frozen. -/
theorem payOut_iff {p : Payout} {recipient owner : Pubkey} {escrowAta vaultAta : TokenAccount} {amount : Nat}
    (hsound : w.ledger.Sound) (hmints : w.ledger.HasMints) (he : p.escrow.isEscrow) (hrecipient : recipient.isVault)
    (hrent : p.rentDestination = owner)
    (hescrow : w.ledger.accounts (.ata p.escrow p.tokenMint) = some escrowAta)
    (hvault : w.ledger.accounts p.vaultAta = some vaultAta) (hvmint : vaultAta.mint = p.tokenMint)
    (hvowner : vaultAta.owner = recipient) :
    (∃ l, payOut w p recipient owner amount = .ok l) ↔
      escrowAta.amount = amount ∧ escrowAta.frozen = false ∧ vaultAta.frozen = false := by
  have hne := ne_of_isVault_isEscrow he hrecipient
  constructor
  · rintro ⟨l, hl⟩
    obtain ⟨_, _, h₁, hamount, hf₁, h₂, -, -, hf₂, -, -⟩ := (payOut_ok hl).accounts hne
    cases hescrow.symm.trans h₁
    cases hvault.symm.trans h₂
    exact ⟨hamount, hf₁, hf₂⟩
  · rintro ⟨rfl, hf₁, hf₂⟩
    obtain ⟨howner, hmint, hclose, hdelegate⟩ := hsound _ _ hescrow _ _ rfl (.inr he)
    obtain ⟨mint, hm⟩ := Option.isSome_iff_exists.mp (hmints _ _ hescrow)
    rw [hmint] at hm
    have hdiff : Pubkey.ata p.escrow p.tokenMint ≠ p.vaultAta := by
      intro heq
      rw [← heq, hescrow] at hvault
      cases hvault
      exact hne (howner.symm.trans hvowner)
    have htransfer := transfer_of_owner (n := escrowAta.amount) hescrow hvault hdiff ⟨hf₁, hf₂⟩ le_rfl
      (hmint.trans hvmint.symm) howner.symm (hdelegate he)
    simp [payOut, World.loadMint, World.loadToken, okOr, require, hm, hescrow, hvault, hmint, howner, hvmint,
      hvowner, hrent, htransfer, Ledger.closeAccount, Ledger.getAccount, Ledger.setAccount_accounts, hdiff, hclose,
      bind, Except.bind, pure, Except.pure]

/-- The account that is paid: of the escrow's mint, owned by the vault that is due. -/
structure PayableTo (w : World) (p : Payout) (d : EscrowDeposit) (recipient owner : Pubkey)
    (vaultAta : TokenAccount) : Prop where
  mint : p.tokenMint = d.tokenMint
  rent : p.rentDestination = owner
  account : w.ledger.accounts p.vaultAta = some vaultAta
  account_mint : vaultAta.mint = d.tokenMint
  account_owner : vaultAta.owner = recipient

/-- A refund by the owner of the source vault, when it is due. -/
structure RefundByOwner (ctx : Ctx) (w : World) (a : RefundEscrow) (d : EscrowDeposit) (source : AgentVault)
    (vaultAta : TokenAccount) : Prop where
  signer : a.sourceSigner = source.owner
  signed : a.sourceSigner ∈ ctx.signers
  vault : a.sourceVault = d.sourceVault
  due : d.expiresAt ≤ ctx.clock.unixTimestamp
  payable : PayableTo w a.toPayout d d.sourceVault source.owner vaultAta

/-- A settlement in time by an operator of the destination vault, with the right proof. -/
structure SettleByAgent (ctx : Ctx) (w : World) (a : SettleEscrow) (d : EscrowDeposit)
    (source destination : AgentVault) (vaultAta : TokenAccount) : Prop where
  signed : a.destinationAgent ∈ ctx.signers
  sourceVault : a.sourceVault = d.sourceVault
  destinationVault : a.destinationVault = d.destinationVault
  vault : w.vaults d.destinationVault = some destination
  agent : destination.isAgent a.destinationAgent
  unpaused : destination.isAgentPaused a.destinationAgent = false
  operator : destination.hasCapability a.destinationAgent true
  inTime : ctx.clock.unixTimestamp < d.expiresAt
  proof : d.conditionHash ≠ unconditional → Sha256.digest a.proof = d.conditionHash
  payable : PayableTo w a.toPayout d d.destinationVault source.owner vaultAta

theorem refund_iff_payOut {ctx : Ctx} {a : RefundEscrow} {source : AgentVault} {vaultAta : TokenAccount}
    (hinv : EscrowInv w) (hd : IsActive w a.escrow d) (hv : w.vaults d.sourceVault = some source)
    (h : RefundByOwner ctx w a d source vaultAta) :
    (∃ w', refundEscrow ctx a w = .ok w') ↔
      ∃ l, payOut w a.toPayout d.sourceVault source.owner d.amount = .ok l := by
  simp only [refundEscrow, Ctx.requireSigner, bind_eq_ok, require_eq_ok, pure_eq_ok, World.loadVault_eq_ok,
    loadEscrow_eq_ok, h.vault]
  constructor
  · rintro ⟨_, _, -, vault, ⟨hvault, -⟩, _, -, escrow, ⟨hescrow, -⟩, _, -, _, -, _, -, _, -, l, hpay, -⟩
    cases hv.symm.trans hvault
    cases hd.1.symm.trans hescrow
    exact ⟨l, hpay⟩
  · rintro ⟨l, hpay⟩
    refine ⟨_, (), h.signed, source, ⟨hv, hinv.vaults _ _ hv⟩, (), .inr h.signer.symm, d,
      ⟨hd.1, rfl, hinv.address _ _ hd.1⟩, (), ?_, (), ?_, (), hd.2, (), h.due, l, hpay, rfl⟩
    · exact fun hne => absurd h.signer.symm hne
    · exact fun hne => absurd h.signer.symm hne

theorem settle_iff_payOut {ctx : Ctx} {a : SettleEscrow} {source destination : AgentVault}
    {vaultAta : TokenAccount} (hinv : EscrowInv w) (hd : IsActive w a.escrow d)
    (hv : w.vaults d.sourceVault = some source) (h : SettleByAgent ctx w a d source destination vaultAta) :
    (∃ w', settleEscrow ctx a w = .ok w') ↔
      ∃ l, payOut w a.toPayout d.destinationVault source.owner d.amount = .ok l := by
  simp only [settleEscrow, Ctx.requireSigner, bind_eq_ok, require_eq_ok, pure_eq_ok, World.loadVault_eq_ok,
    loadEscrow_eq_ok, h.sourceVault, h.destinationVault]
  constructor
  · rintro ⟨_, _, -, _, -, _, -, vault, ⟨hvault, -⟩, escrow, ⟨hescrow, -⟩, _, -, _, -, _, -, _, -, _, -, _, -, l,
      hpay, -⟩
    cases hv.symm.trans hvault
    cases hd.1.symm.trans hescrow
    exact ⟨l, hpay⟩
  · rintro ⟨l, hpay⟩
    exact ⟨_, (), h.signed, destination, ⟨h.vault, hinv.vaults _ _ h.vault⟩, (), h.agent, source,
      ⟨hv, hinv.vaults _ _ hv⟩, d, ⟨hd.1, rfl, hinv.address _ _ hd.1⟩, (), rfl, (), h.unpaused, (), h.operator, (),
      hd.2, (), h.inTime, (), h.proof, l, hpay, rfl⟩

/-- The source vault of an active escrow is there and counts it. -/
theorem source_counts (hinv : EscrowInv w) (hd : IsActive w e d) :
    ∃ source, w.vaults d.sourceVault = some source ∧ 0 < source.activeEscrowCount := by
  obtain ⟨s, hs, hcard⟩ := hinv.counted d.sourceVault
  have hpos : 0 < activeCount w d.sourceVault := by
    rw [← hcard]
    exact Finset.card_pos.mpr ⟨e, (hs e).mpr ⟨d, hd.1, hd.2, rfl⟩⟩
  unfold activeCount at hpos
  cases hv : w.vaults d.sourceVault with
  | none => simp [hv] at hpos
  | some source => exact ⟨source, rfl, by simpa [hv] using hpos⟩

/-- In every reachable state the account of an active escrow holds at least the amount. The owner's refund
and the settlement of an agent succeed iff it holds exactly the amount and no account is frozen. As long as the
escrow is active its source vault cannot be closed. -/
theorem escrow_recoverable_iff {steps : List Step} (hrun : run Step.exec steps {} = .ok w) (hd : IsActive w e d) :
    ∃ source escrowAta, w.vaults d.sourceVault = some source ∧
      w.ledger.accounts (.ata e d.tokenMint) = some escrowAta ∧ d.amount ≤ escrowAta.amount ∧
      (∀ ctx (a : RefundEscrow) vaultAta, a.escrow = e → RefundByOwner ctx w a d source vaultAta →
        ((∃ w', refundEscrow ctx a w = .ok w') ↔
          escrowAta.amount = d.amount ∧ escrowAta.frozen = false ∧ vaultAta.frozen = false)) ∧
      (∀ ctx (a : SettleEscrow) destination vaultAta, a.escrow = e →
        SettleByAgent ctx w a d source destination vaultAta →
        ((∃ w', settleEscrow ctx a w = .ok w') ↔
          escrowAta.amount = d.amount ∧ escrowAta.frozen = false ∧ vaultAta.frozen = false)) ∧
      ∀ ctx a w', a.vault = d.sourceVault → closeVault ctx a w ≠ .ok w' := by
  have hinv := escrowInv_run hrun
  have he := isEscrow_of_address (hinv.address e d hd.1)
  obtain ⟨source, hv, hpos⟩ := source_counts hinv hd
  obtain ⟨escrowAta, hata, hle⟩ := hinv.backed e d hd.1 hd.2
  refine ⟨source, escrowAta, hv, hata, hle, ?_, ?_, ?_⟩
  · rintro ctx a vaultAta rfl h
    rw [refund_iff_payOut hinv hd hv h]
    exact payOut_iff hinv.sound hinv.hasMints he (isVault_of_address (hinv.vaults _ _ hv)) h.payable.rent
      (by rw [h.payable.mint]; exact hata) h.payable.account (by rw [h.payable.mint]; exact h.payable.account_mint)
      h.payable.account_owner
  · rintro ctx a destination vaultAta rfl h
    rw [settle_iff_payOut hinv hd hv h]
    exact payOut_iff hinv.sound hinv.hasMints he (isVault_of_address (hinv.vaults _ _ h.vault)) h.payable.rent
      (by rw [h.payable.mint]; exact hata) h.payable.account (by rw [h.payable.mint]; exact h.payable.account_mint)
      h.payable.account_owner
  · intro ctx a w' hvault hclose
    obtain ⟨vault, _, hclosable, -⟩ := closeVault_ok hclose
    have hv' := hclosable.owned.found
    have hzero := hclosable.escrows
    rw [hvault, hv] at hv'
    cases hv'
    omega

end

def refundCtx : Ctx := { clock := { unixTimestamp := 601000, slot := 2000 }, signers := [.key 1] }

theorem escrow_recoverable : ∃ w w', run Step.exec escrowRun {} = .ok w ∧
    refundEscrow refundCtx (refundOf (.key 1) usdcMint) w = .ok w' := by
  obtain ⟨w, source, vaultAta, d, hrun, hd, hv, hvault, hvmint, hvowner, hsource, hdest⟩ :
      ∃ w source vaultAta d, run Step.exec escrowRun {} = .ok w ∧ IsActive w payEscrow.escrow d ∧
      w.vaults payVault.vault = some source ∧ w.ledger.accounts (.ata payVault.vault usdcMint) = some vaultAta ∧
      vaultAta.mint = usdcMint ∧ vaultAta.owner = payVault.vault ∧ source.owner = .key 1 ∧
      d = payEscrow.deposit payClock 999800 :=
    ⟨_, _, _, _, rfl, ⟨rfl, rfl⟩, rfl, rfl, rfl, rfl, rfl, rfl⟩
  subst hdest
  obtain ⟨source', escrowAta, hv', hata, -, hrefund, -⟩ := escrow_recoverable_iff hrun hd
  cases hv.symm.trans hv'
  obtain ⟨w', hw'⟩ := (hrefund refundCtx (refundOf (.key 1) usdcMint) vaultAta rfl
    ⟨hsource.symm, by simp [refundCtx, refundOf], rfl, by decide,
      rfl, hsource.symm, hvault, hvmint, hvowner⟩).mpr (by
        cases hrun
        cases hata
        cases hvault
        exact ⟨rfl, rfl, rfl⟩)
  exact ⟨w, w', hrun, hw'⟩

/-- Key 5 sends one unit to the account of the escrow. -/
def donation : TopLevel :=
  { raw := { programId := .key 9, accounts := [], data := [] }
    call := .foreign [.transfer (.ata (.key 5) usdcMint) (.ata payEscrow.escrow usdcMint) (.key 5) 1] }

def donationRun : List Step := escrowRun ++ [.ofKey payClock 5 donation]

/-- After that neither the refund nor the closing of the vault succeeds. -/
theorem escrow_stranded : ∃ w d, run Step.exec donationRun {} = .ok w ∧ w.escrows payEscrow.escrow = some d ∧
    d.status = .active ∧ d.amount = 999800 ∧ w.ledger.balance (.ata payEscrow.escrow usdcMint) = 999801 ∧
    refundEscrow refundCtx (refundOf (.key 1) usdcMint) w = .error TokenError.nonNativeHasBalance ∧
    closeVault refundCtx { owner := .key 1, vault := payVault.vault } w = .error SigilError.activeEscrowsExist :=
  ⟨_, _, rfl, rfl, rfl, rfl, rfl, rfl, rfl⟩

/-! ## The counter of active escrows

A vault counts the escrows that it still may have to pay. The counter lies in the vault, the escrows lie in
accounts of their own, and what keeps them together is the invariant of the escrows.
-/

/-- Escrows that a vault pays and that are neither settled nor refunded. -/
def activeEscrows (w : World) (v : Pubkey) : Set Pubkey := {e | ActiveFrom w v e}

section
variable {w w' : World} {steps : List Step} {ctx : Ctx} {v : Pubkey}

theorem EscrowInv.activeEscrows (h : EscrowInv w) (v : Pubkey) :
    (activeEscrows w v).Finite ∧ (Sigil.activeEscrows w v).ncard = activeCount w v := by
  obtain ⟨s, hs, hcard⟩ := h.counted v
  have heq : Sigil.activeEscrows w v = s := Set.ext fun e => (hs e).symm
  rw [heq, Set.ncard_coe_finset, hcard]
  exact ⟨s.finite_toSet, rfl⟩

/-- The counter is what the vault had and one less, and it was not zero. -/
def CountsDown (w w' : World) (v : Pubkey) : Prop :=
  ∃ vault vault', w.vaults v = some vault ∧ w'.vaults v = some vault' ∧
    vault.activeEscrowCount = vault'.activeEscrowCount + 1

/-- Whoever releases an active escrow finds its source vault counting it. -/
theorem releaseEscrow_countsDown (hinv : EscrowInv w) {e : Pubkey} {d : EscrowDeposit} {vault : AgentVault}
    (hd : IsActive w e d) (hv : w.vaults d.sourceVault = some vault) (status : EscrowStatus) (ledger : Ledger) :
    CountsDown w (releaseEscrow w e d.sourceVault vault d status ledger) d.sourceVault := by
  obtain ⟨source, hsource, hpos⟩ := source_counts hinv hd
  cases hv.symm.trans hsource
  refine ⟨vault, { vault with activeEscrowCount := vault.activeEscrowCount - 1 }, hv, Function.update_self .., ?_⟩
  dsimp only
  omega

theorem closeVault_no_escrow (hinv : EscrowInv w) {a : CloseVault} (h : closeVault ctx a w = .ok w') :
    Sigil.activeEscrows w a.vault = ∅ := by
  obtain ⟨vault, _, hclosable, -⟩ := closeVault_ok h
  have hcount := hinv.activeEscrows a.vault
  rw [activeCount, hclosable.owned.found, Option.elim_some, hclosable.escrows] at hcount
  exact (Set.ncard_eq_zero hcount.1).mp hcount.2

/-- In every reachable state the counter of each vault is the number of its active escrows. So a settlement and a
refund count down from at least one, and a vault with an active escrow is not closed. -/
theorem escrows_counted (h : run Step.exec steps {} = .ok w) :
    (∀ v vault, w.vaults v = some vault →
      (activeEscrows w v).Finite ∧ (activeEscrows w v).ncard = vault.activeEscrowCount) ∧
    (∀ ctx a w', settleEscrow ctx a w = .ok w' → CountsDown w w' a.sourceVault) ∧
    (∀ ctx a w', refundEscrow ctx a w = .ok w' → CountsDown w w' a.sourceVault) ∧
    (∀ ctx a w', closeVault ctx a w = .ok w' → activeEscrows w a.vault = ∅) := by
  have hinv := escrowInv_run h
  refine ⟨fun v vault hv => ?_, fun ctx a w' hi => ?_, fun ctx a w' hi => ?_, fun ctx a w' hi => ?_⟩
  · have hcount := hinv.activeEscrows v
    rwa [activeCount, hv, Option.elim_some] at hcount
  · obtain ⟨vault, d, ledger, ⟨hv, -⟩, ⟨he, hsource, -⟩, -, -, hactive, -, -, rfl⟩ := settleEscrow_ok hi
    rw [← hsource] at hv ⊢
    exact releaseEscrow_countsDown hinv ⟨he, hactive⟩ hv .settled ledger
  · obtain ⟨vault, d, ledger, ⟨hv, -⟩, ⟨he, hsource, -⟩, hactive, -, -, rfl⟩ := refundEscrow_ok hi
    rw [← hsource] at hv ⊢
    exact releaseEscrow_countsDown hinv ⟨he, hactive⟩ hv .refunded ledger
  · exact closeVault_no_escrow hinv hi

end

theorem escrows_counted_open : ∃ w vault, run Step.exec escrowRun {} = .ok w ∧
    w.vaults payVault.vault = some vault ∧ vault.activeEscrowCount = 1 ∧ (activeEscrows w payVault.vault).ncard = 1 ∧
    ∀ ctx a w', a.vault = payVault.vault → closeVault ctx a w ≠ .ok w' := by
  obtain ⟨w, vault, hrun, hv, hcount⟩ : ∃ w vault, run Step.exec escrowRun {} = .ok w ∧
      w.vaults payVault.vault = some vault ∧ vault.activeEscrowCount = 1 := ⟨_, _, rfl, rfl, rfl⟩
  obtain ⟨hcounted, -, -, hclosed⟩ := escrows_counted hrun
  have hcard := (hcounted payVault.vault vault hv).2
  refine ⟨w, vault, hrun, hv, hcount, hcard.trans hcount, fun ctx a w' hvault hclose => ?_⟩
  have hempty := hclosed ctx a w' hclose
  rw [hvault] at hempty
  rw [hempty, Set.ncard_empty, hcount] at hcard
  cases hcard

end Sigil
