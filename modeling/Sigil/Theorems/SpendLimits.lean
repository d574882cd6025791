import Sigil.Lemmas.ApprovedRecords
import Sigil.Theorems.ShieldSync

/-!
# Spend limits over a run

A limit counts transfers of its mint and transfers of an unknown mint, which are recorded under no mint. What has been
spent stays within the limit as long as what is recorded under no mint fits into it too.
-/

namespace Sigil.Sdk

open Library

/-! ## Calls of `enforce` -/

structure EnforceCall where
  now : Int
  instructions : List InspectableInstruction
  signerAddress : Pubkey
  deriving DecidableEq, Repr

namespace EnforceCall

variable (base58 : Pubkey → String) (call : EnforceCall)

def records : List ShieldRecord := approvedRecords base58 call.now call.instructions call.signerAddress

/-- What a limit counts of the call: transfers of its mint and of an unknown one. -/
def attributed (limit : SpendLimit) : Int :=
  (((outgoingTransfers call.instructions call.signerAddress).filter fun t =>
    t.mint = some limit.mint ∨ t.mint = none).map TokenTransferInfo.amount).sum

end EnforceCall

/-- What a limit counts of the calls between two times. -/
def SpendLimit.spentBetween (limit : SpendLimit) (first last : Int) (calls : List EnforceCall) : Int :=
  ((calls.filter fun call => first ≤ call.now ∧ call.now ≤ last).map fun call => call.attributed limit).sum

theorem EnforceCall.attributed_eq {call : EnforceCall} {limit : SpendLimit} : call.attributed limit =
    (((analyzeInstructions call.instructions call.signerAddress).tokenTransfers.filter fun t =>
      isOutgoing call.signerAddress t ∧ (t.mint = some limit.mint ∨ t.mint = none)).map
        TokenTransferInfo.amount).sum := by
  rw [attributed, outgoingTransfers, List.filter_filter]
  congr 2
  apply List.filter_congr
  intro t _
  simp only [Bool.decide_and, Bool.and_comm, Bool.decide_eq_true]

namespace ShieldedContext

variable (base58 : Pubkey → String) (c : ShieldedContext)

def accepts (call : EnforceCall) : Bool := (c.enforce base58 call.now call.instructions call.signerAddress).isOk

/-- A call that throws leaves the context as it was. -/
def enforced (call : EnforceCall) : ShieldedContext :=
  (c.enforce base58 call.now call.instructions call.signerAddress).toOption.getD c

def afterCalls (calls : List EnforceCall) : ShieldedContext := calls.foldl (enforced base58) c

def accepted : List EnforceCall → ShieldedContext → List EnforceCall
  | [], _ => []
  | call :: calls, c =>
      if c.accepts base58 call then call :: accepted calls (c.enforced base58 call) else accepted calls c

end ShieldedContext

section
variable {base58 : Pubkey → String} {c c' : ShieldedContext} {call : EnforceCall} {calls calls' : List EnforceCall}
  {limit : SpendLimit}

theorem enforce_eq_ok (h : c.enforce base58 call.now call.instructions call.signerAddress = .ok c') :
    c.check base58 call.now call.instructions call.signerAddress = [] ∧ c'.resolved = c.resolved ∧
      c'.state.toShieldState = c.state.toShieldState.recordAll (call.records base58) := by
  unfold ShieldedContext.enforce at h
  split at h
  · rename_i hcheck
    obtain rfl := Except.ok.inj h
    exact ⟨hcheck, rfl, recordApproved_toShieldState⟩
  · cases h

theorem accepts_iff : c.accepts base58 call = true ↔
    ∃ c', c.enforce base58 call.now call.instructions call.signerAddress = .ok c' ∧ c.enforced base58 call = c' := by
  unfold ShieldedContext.accepts ShieldedContext.enforced
  cases c.enforce base58 call.now call.instructions call.signerAddress with
  | ok c' => simp [Except.isOk, Except.toBool, Except.toOption]
  | error violations => simp [Except.isOk, Except.toBool]

theorem enforced_of_not_accepts (h : ¬ c.accepts base58 call = true) : c.enforced base58 call = c := by
  unfold ShieldedContext.accepts at h
  unfold ShieldedContext.enforced
  cases henforce : c.enforce base58 call.now call.instructions call.signerAddress with
  | ok c' => simp [henforce, Except.isOk, Except.toBool] at h
  | error violations => rfl

theorem accepted_append : ShieldedContext.accepted base58 (calls ++ calls') c =
    ShieldedContext.accepted base58 calls c ++ ShieldedContext.accepted base58 calls' (c.afterCalls base58 calls) := by
  induction calls generalizing c with
  | nil => rfl
  | cons call calls ih =>
      rw [List.cons_append, ShieldedContext.accepted, ShieldedContext.accepted, ShieldedContext.afterCalls,
        List.foldl_cons, ← ShieldedContext.afterCalls]
      by_cases haccepts : c.accepts base58 call = true
      · rw [if_pos haccepts, if_pos haccepts, ih, List.cons_append]
      · rw [if_neg haccepts, if_neg haccepts, ih, enforced_of_not_accepts haccepts]

variable (base58 c calls) in
/-- Exactly the accepted calls are recorded. -/
theorem afterCalls_records : (c.afterCalls base58 calls).resolved = c.resolved ∧
    (c.afterCalls base58 calls).state.toShieldState = c.state.toShieldState.recordAll
      ((ShieldedContext.accepted base58 calls c).flatMap (EnforceCall.records base58)) := by
  induction calls generalizing c with
  | nil => exact ⟨rfl, rfl⟩
  | cons call calls ih =>
      rw [ShieldedContext.afterCalls, List.foldl_cons, ← ShieldedContext.afterCalls, ShieldedContext.accepted]
      by_cases haccepts : c.accepts base58 call = true
      · obtain ⟨c', henforce, hsame⟩ := accepts_iff.mp haccepts
        obtain ⟨-, hresolved, hrecords⟩ := enforce_eq_ok henforce
        rw [if_pos haccepts, hsame, List.flatMap_cons, ShieldState.recordAll_append, ← hrecords, ← hresolved]
        exact ih c'
      · rw [if_neg haccepts, enforced_of_not_accepts haccepts]
        exact ih c

/-- What an accepted call has been checked for. -/
theorem fits_of_accepts (h : c.accepts base58 call = true) (hlimit : limit ∈ c.resolved.spendLimits) :
    c.state.getSpendInWindow call.now (base58 limit.mint) (limit.windowMs.getD dayMs) + call.attributed limit ≤
      limit.amount := by
  obtain ⟨c', henforce, -⟩ := accepts_iff.mp h
  have hcheck := (enforce_eq_ok henforce).1
  unfold ShieldedContext.check at hcheck
  split at hcheck
  · cases hcheck
  simp only [evaluateInstructions, List.append_eq_nil_iff] at hcheck
  have hnone := List.filterMap_eq_nil_iff.mp hcheck.1.1.1.2 limit hlimit
  unfold checkSpendLimit at hnone
  dsimp only at hnone
  split at hnone
  · cases hnone
  · rename_i hle
    rw [EnforceCall.attributed_eq]
    exact Int.not_lt.mp hle

end

/-! ## What the record says -/

/-- Entries under a key and under no mint, from `since` on. -/
def heldSince (key : String) (since : Int) (entries : List SpendEntry) : Int :=
  ((entries.filter fun e => e.mint = key ∧ since ≤ e.timestamp).map SpendEntry.amount).sum +
    ((entries.filter fun e => e.mint = "" ∧ since ≤ e.timestamp).map SpendEntry.amount).sum

section
variable {base58 : Pubkey → String} {call : EnforceCall} {calls : List EnforceCall} {limit : SpendLimit} {key : String}
  {since : Int} {entries entries' : List SpendEntry}

theorem heldSince_append : heldSince key since (entries ++ entries') =
    heldSince key since entries + heldSince key since entries' := by
  simp only [heldSince, List.filter_append, List.map_append, List.sum_append]
  omega

theorem heldSince_cons {e : SpendEntry} :
    heldSince key since (e :: entries) = heldSince key since [e] + heldSince key since entries := by
  rw [← heldSince_append, List.singleton_append]

theorem sum_filter_nonneg {p : SpendEntry → Bool} (h : ∀ e ∈ entries, 0 ≤ e.amount) :
    0 ≤ ((entries.filter p).map SpendEntry.amount).sum := by
  apply List.sum_nonneg
  intro amount hamount
  obtain ⟨e, he, rfl⟩ := List.mem_map.mp hamount
  exact h e (List.mem_of_mem_filter he)

theorem heldSince_nonneg (h : ∀ e ∈ entries, 0 ≤ e.amount) : 0 ≤ heldSince key since entries :=
  Int.add_nonneg (sum_filter_nonneg h) (sum_filter_nonneg h)

theorem records_spendEntries : (call.records base58).flatMap ShieldRecord.spendEntries =
    (outgoingTransfers call.instructions call.signerAddress).map fun t => ⟨mintKey base58 t, t.amount, call.now⟩ := by
  rw [EnforceCall.records, approvedRecords, List.flatMap_append, List.flatMap_map, List.map_eq_flatMap]
  exact List.append_nil _

theorem records_nonneg : ∀ e ∈ (call.records base58).flatMap ShieldRecord.spendEntries, 0 ≤ e.amount := by
  rw [records_spendEntries]
  intro e he
  obtain ⟨t, ht, rfl⟩ := List.mem_map.mp he
  exact analyzeInstructions_amount_nonneg (List.mem_of_mem_filter ht)

theorem le_heldSince_key {e : SpendEntry} (hamount : 0 ≤ e.amount) (hsince : since ≤ e.timestamp)
    (hkey : e.mint = key ∨ e.mint = "") : e.amount ≤ heldSince key since [e] := by
  have hnonneg : ∀ e' ∈ [e], 0 ≤ e'.amount := by simpa using hamount
  rcases hkey with hkey | hkey
  · have hother : 0 ≤ (([e].filter fun e => e.mint = "" ∧ since ≤ e.timestamp).map SpendEntry.amount).sum :=
      sum_filter_nonneg hnonneg
    rw [heldSince, List.filter_cons_of_pos (by simp [hkey, hsince])]
    simpa using hother
  · have hother : 0 ≤ (([e].filter fun e => e.mint = key ∧ since ≤ e.timestamp).map SpendEntry.amount).sum :=
      sum_filter_nonneg hnonneg
    rw [heldSince, Int.add_comm, List.filter_cons_of_pos (by simp [hkey, hsince])]
    simpa using hother

variable (base58 limit) in
/-- A transfer that the limit counts is held under the key of its mint or under no mint. -/
theorem attributed_le_heldSince (hsince : since ≤ call.now) :
    call.attributed limit ≤
      heldSince (base58 limit.mint) since ((call.records base58).flatMap ShieldRecord.spendEntries) := by
  have hnonneg : ∀ t ∈ outgoingTransfers call.instructions call.signerAddress, 0 ≤ t.amount :=
    fun t ht => analyzeInstructions_amount_nonneg (List.mem_of_mem_filter ht)
  rw [records_spendEntries, EnforceCall.attributed]
  generalize outgoingTransfers call.instructions call.signerAddress = transfers at hnonneg ⊢
  induction transfers with
  | nil => simp [heldSince]
  | cons t transfers ih =>
      have hrest := ih fun t ht => hnonneg t (List.mem_cons_of_mem _ ht)
      have ht := hnonneg t List.mem_cons_self
      rw [List.map_cons, heldSince_cons]
      by_cases hcounts : t.mint = some limit.mint ∨ t.mint = none
      · have hheld : t.amount ≤
            heldSince (base58 limit.mint) since [⟨mintKey base58 t, t.amount, call.now⟩] := by
          apply le_heldSince_key ht hsince
          rcases hcounts with hmint | hmint
          · exact .inl (by simp [mintKey, hmint])
          · exact .inr (by simp [mintKey, hmint])
        rw [List.filter_cons_of_pos (by simpa using hcounts), List.map_cons, List.sum_cons]
        omega
      · have hheld : 0 ≤ heldSince (base58 limit.mint) since [⟨mintKey base58 t, t.amount, call.now⟩] :=
          heldSince_nonneg (by simpa using ht)
        rw [List.filter_cons_of_neg (by simpa using hcounts)]
        omega

theorem spentBetween_append {first last : Int} {calls' : List EnforceCall} :
    limit.spentBetween first last (calls ++ calls') =
      limit.spentBetween first last calls + limit.spentBetween first last calls' := by
  simp only [SpendLimit.spentBetween, List.filter_append, List.map_append, List.sum_append]

theorem spentBetween_singleton {first last : Int} : limit.spentBetween first last [call] =
    if first ≤ call.now ∧ call.now ≤ last then call.attributed limit else 0 := by
  by_cases hin : first ≤ call.now ∧ call.now ≤ last <;> simp [SpendLimit.spentBetween, hin]

variable (base58 limit calls) in
theorem spentBetween_le_heldSince {first : Int} (last : Int) (hfirst : since ≤ first) :
    limit.spentBetween first last calls ≤ heldSince (base58 limit.mint) since
      ((calls.flatMap (EnforceCall.records base58)).flatMap ShieldRecord.spendEntries) := by
  induction calls with
  | nil => simp [SpendLimit.spentBetween, heldSince]
  | cons call calls ih =>
      rw [List.flatMap_cons, List.flatMap_append, heldSince_append, SpendLimit.spentBetween]
      by_cases hin : first ≤ call.now ∧ call.now ≤ last
      · have hcall := attributed_le_heldSince base58 limit (hfirst.trans hin.1)
        rw [List.filter_cons_of_pos (by simpa using hin), List.map_cons, List.sum_cons, ← SpendLimit.spentBetween]
        omega
      · have hcall : 0 ≤ heldSince (base58 limit.mint) since
            ((call.records base58).flatMap ShieldRecord.spendEntries) := heldSince_nonneg records_nonneg
        rw [List.filter_cons_of_neg (by simpa using hin), ← SpendLimit.spentBetween]
        omega

end

namespace ShieldState

/-- No record drops a spend that a window from `since` on covers. -/
def RetainsSpends (since : Int) (s : ShieldState) (records : List ShieldRecord) : Prop :=
  ∀ before r after, records = before ++ r :: after → ((s.recordAll before).appended r).KeepsSpends since r.now

section
variable {s : ShieldState} {records : List ShieldRecord} {key mint : String} {now windowMs : Int}

theorem RetainsSpends.getSpendInWindow (h : s.RetainsSpends (now - windowMs) records) :
    (s.recordAll records).getSpendInWindow now mint windowMs =
      (s.appendAll records).getSpendInWindow now mint windowMs := by
  have hkept := (retains_spends_iff.mpr h).filter_kept
  rw [← recordAll_spendEntries, ← appendAll_spendEntries] at hkept
  rw [getSpendInWindow_eq, getSpendInWindow_eq, hkept]

/-- Windows of a day or less are retained, unless a record is later than the question. -/
theorem retainsSpends_of_day (hwindow : windowMs ≤ dayMs) (hclock : ∀ r ∈ records, r.now ≤ now) :
    s.RetainsSpends (now - windowMs) records := by
  intro before r after hsplit
  exact (keeps_of_day hwindow (hclock r (by simp [hsplit]))).1

variable (key) in
/-- What is recorded, and only that, is held. -/
theorem heldSince_le (hnonneg : ∀ e ∈ s.spendEntries, 0 ≤ e.amount)
    (hretains : s.RetainsSpends (now - windowMs) records) :
    heldSince key (now - windowMs) (records.flatMap ShieldRecord.spendEntries) ≤
      (s.recordAll records).getSpendInWindow now key windowMs +
        (s.recordAll records).getSpendInWindow now "" windowMs := by
  rw [hretains.getSpendInWindow, hretains.getSpendInWindow]
  show _ ≤ heldSince key (now - windowMs) (s.appendAll records).spendEntries
  have hhistory : (s.appendAll records).spendEntries =
      s.spendEntries ++ records.flatMap ShieldRecord.spendEntries := by
    rw [appendAll_spendEntries, Write.history, List.flatMap_map]
    rfl
  rw [hhistory, heldSince_append]
  have hbefore : 0 ≤ heldSince key (now - windowMs) s.spendEntries := heldSince_nonneg hnonneg
  omega

end

end ShieldState

/-! ## The limit -/

namespace ShieldedContext

variable (base58 : Pubkey → String) (limit : SpendLimit) (calls : List EnforceCall) (c : ShieldedContext)

/-- In no window of its length more than the limit has been spent. -/
def BoundsSpend : Prop :=
  ∀ start, limit.spentBetween start (start + limit.windowMs.getD dayMs) (accepted base58 calls c) ≤ limit.amount

/-- What the window holds under no mint fits into the limit too. -/
def UnknownFits (call : EnforceCall) : Prop :=
  let unknown := c.state.getSpendInWindow call.now "" (limit.windowMs.getD dayMs)
  unknown = 0 ∨ c.state.getSpendInWindow call.now (base58 limit.mint) (limit.windowMs.getD dayMs) + unknown +
    call.attributed limit ≤ limit.amount

/-- At each accepted call, what the window holds under no mint fits, and nothing has been dropped that the window still
covers. -/
def Accounted : Prop :=
  ∀ before call after, calls = before ++ call :: after → (c.afterCalls base58 before).accepts base58 call →
    (c.afterCalls base58 before).UnknownFits base58 limit call ∧
      c.state.toShieldState.RetainsSpends (call.now - limit.windowMs.getD dayMs)
        ((accepted base58 before c).flatMap (EnforceCall.records base58))

end ShieldedContext

/-- Spends stay within a limit in every run whose accepted calls leave room for what is recorded under no mint. -/
theorem spend_limit_bounds {base58 : Pubkey → String} {c : ShieldedContext} {limit : SpendLimit}
    {calls : List EnforceCall} (hnonneg : ∀ e ∈ c.state.spendEntries, 0 ≤ e.amount)
    (hlimit : limit ∈ c.resolved.spendLimits) (hamount : 0 ≤ limit.amount) (h : c.Accounted base58 limit calls) :
    c.BoundsSpend base58 limit calls := by
  intro start
  induction calls using List.reverseRecOn with
  | nil => simpa [ShieldedContext.accepted, SpendLimit.spentBetween] using hamount
  | append_singleton calls call ih =>
      have hbefore := ih fun before call' after hsplit => h before call' (after ++ [call]) (by simp [hsplit])
      rw [accepted_append, ShieldedContext.accepted, ShieldedContext.accepted, ShieldedContext.accepted,
        spentBetween_append]
      by_cases haccepts : (c.afterCalls base58 calls).accepts base58 call = true
      · rw [if_pos haccepts, spentBetween_singleton]
        split
        · rename_i hin
          -- the window begins after the one that the call has been checked for
          obtain ⟨hfits, hretains⟩ := h calls call [] rfl haccepts
          obtain ⟨hresolved, hrecords⟩ := afterCalls_records base58 c calls
          have hsince : call.now - limit.windowMs.getD dayMs ≤ start := by omega
          have hspent := spentBetween_le_heldSince base58 (ShieldedContext.accepted base58 calls c) limit
            (start + limit.windowMs.getD dayMs) hsince
          have hheld := ShieldState.heldSince_le (base58 limit.mint) hnonneg hretains
          rw [← hrecords] at hheld
          rcases hfits with hnone | hfits
          · have hcheck := fits_of_accepts haccepts (hresolved ▸ hlimit)
            omega
          · omega
        · omega
      · rw [if_neg haccepts]
        simpa [SpendLimit.spentBetween] using hbefore

/-! ### A limit of 100 units -/

def hundredLimit : SpendLimit := { mint := Sigil.usdcMint, amount := 100, windowMs := none }

def limitedContext : ShieldedContext :=
  { resolved := { openPolicies with spendLimits := [hundredLimit] }
    paused := false
    state := .initial
    syncNetwork := none }

def usdcText (_ : Pubkey) : String := "4zMMC9srt5Ri5X14GAgXhaHii3GnPAEERYPJgZJDncDU"

/-- A plain transfer of 60 units, signed by key 3. -/
def plainCall (now : Int) : EnforceCall :=
  { now
    instructions :=
      [{ programAddress := splTokenProgramId
         accounts := [.key 4, .key 5, .key 3]
         data := [3, 60, 0, 0, 0, 0, 0, 0, 0] }]
    signerAddress := .key 3 }

/-- A checked transfer of 40 units. -/
def checkedCall (now : Int) : EnforceCall :=
  { now
    instructions :=
      [{ programAddress := splTokenProgramId
         accounts := [.key 4, Sigil.usdcMint, .key 5, .key 3]
         data := [12, 40, 0, 0, 0, 0, 0, 0, 0, 6] }]
    signerAddress := .key 3 }

/-- Two transfers of a known mint fit, and a third one is refused. -/
theorem spend_limit_bounds_checked :
    ShieldedContext.accepted usdcText [checkedCall 0, checkedCall 1, checkedCall 2] limitedContext =
      [checkedCall 0, checkedCall 1] ∧
    limitedContext.BoundsSpend usdcText hundredLimit [checkedCall 0, checkedCall 1, checkedCall 2] := by
  refine ⟨by decide +kernel, ?_⟩
  apply spend_limit_bounds
  · intro e he
    cases he
  · exact List.mem_singleton_self _
  · decide
  · intro before call after hsplit haccepts
    cases before with
    | nil =>
        obtain ⟨rfl, -⟩ := List.cons.inj hsplit
        constructor
        · exact .inl rfl
        · exact ShieldState.retainsSpends_of_day le_rfl (by decide +kernel)
    | cons first before =>
        obtain ⟨rfl, hrest⟩ := List.cons.inj hsplit
        cases before with
        | nil =>
            obtain ⟨rfl, -⟩ := List.cons.inj hrest
            constructor
            · exact .inl rfl
            · exact ShieldState.retainsSpends_of_day le_rfl (by decide +kernel)
        | cons second before =>
            obtain ⟨rfl, hlast⟩ := List.cons.inj hrest
            cases before with
            | nil =>
                obtain ⟨rfl, -⟩ := List.cons.inj hlast
                exact absurd haccepts (by decide +kernel)
            | cons third before => simp at hlast

/-- Two plain transfers do not, and both are accepted. -/
theorem unknown_mint_unlimited : ¬ ∀ (base58 : Pubkey → String) (c : ShieldedContext) (limit : SpendLimit)
    (calls : List EnforceCall), (∀ e ∈ c.state.spendEntries, 0 ≤ e.amount) → limit ∈ c.resolved.spendLimits →
    0 ≤ limit.amount → c.BoundsSpend base58 limit calls := by
  intro h
  have hbound := h usdcText limitedContext hundredLimit [plainCall 0, plainCall 1] (by rintro _ ⟨⟩)
    (List.mem_singleton_self _) (by decide) 0
  have hspent : hundredLimit.spentBetween 0 (0 + hundredLimit.windowMs.getD dayMs)
      (ShieldedContext.accepted usdcText [plainCall 0, plainCall 1] limitedContext) = 120 := rfl
  rw [hspent] at hbound
  exact absurd hbound (by decide)

end Sigil.Sdk
