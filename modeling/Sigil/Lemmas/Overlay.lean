import Sigil.Library.Ring
import Sigil.Lemmas.Slots

/-!
# The hours of an agent

An entry of the overlay mirrors the last 24 hours of what was recorded in it, for any gap between two records. What
is read from it is never less than what these hours hold.
-/

namespace Sigil

open Library

/-! ## Hours -/

theorem overlayIndex_eq {e : Int} (he : 0 ≤ e) : overlayIndex e = cellOf overlayNumEpochs e := by
  rw [overlayIndex, cellOf, Int.tmod_eq_emod_of_nonneg he]

theorem overlayEpochOf_eq {clock : Clock} (h : 0 < clock.unixTimestamp) :
    overlayEpochOf clock = clock.unixTimestamp / 3600 := Int.tdiv_eq_ediv_of_nonneg h.le

theorem overlayEpochOf_nonneg {clock : Clock} (h : 0 < clock.unixTimestamp) : 0 ≤ overlayEpochOf clock := by
  rw [overlayEpochOf_eq h]
  omega

theorem overlayEpochOf_mono {c c' : Clock} (h : 0 < c.unixTimestamp) (hle : c.unixTimestamp ≤ c'.unixTimestamp) :
    overlayEpochOf c ≤ overlayEpochOf c' := by
  rw [overlayEpochOf_eq h, overlayEpochOf_eq (h.trans_le hle)]
  omega

/-! ## Entries -/

/-- An entry mirrors a log: it was written last in the newest hour of the log. -/
structure AgentContributionEntry.Represents (entry : AgentContributionEntry) (log : EpochLog) : Prop where
  mirrors : Mirrors log entry.lastWriteEpoch entry.contributions
  chronological : log.Chronological
  nonneg : ∀ e ∈ log.epochs, 0 ≤ e
  last : entry.lastWriteEpoch = 0 ∨ entry.lastWriteEpoch ∈ log.epochs

namespace AgentContributionEntry.Represents

variable {entry entry' : AgentContributionEntry} {log : EpochLog} {now : Int} {clock : Clock} {x : Nat}

/-- A slot that was just claimed. -/
theorem fresh (agent : Pubkey) : Represents { agent := agent } [] :=
  ⟨.empty 0, List.Pairwise.nil, by simp [EpochLog.epochs], .inl rfl⟩

theorem last_nonneg (h : entry.Represents log) : 0 ≤ entry.lastWriteEpoch := by
  rcases h.last with hzero | hmem
  · exact hzero.ge
  · exact h.nonneg _ hmem

theorem last_le (h : entry.Represents log) (hnow : 0 ≤ now) (hle : ∀ e ∈ log.epochs, e ≤ now) :
    entry.lastWriteEpoch ≤ now := by
  rcases h.last with hzero | hmem
  · exact hzero.trans_le hnow
  · exact hle _ hmem

/-! ## Writing -/

/-- The loop over the gap, cell by cell. -/
theorem foldl_clear (h : 0 ≤ entry.lastWriteEpoch) (n : Nat) :
    (List.range n).foldl (fun c (offset : Nat) =>
      Function.update c (overlayIndex (entry.lastWriteEpoch + offset + 1)) 0) entry.contributions =
    clearAfter entry.lastWriteEpoch n entry.contributions := by
  have hindex : ∀ offset : Nat, overlayIndex (entry.lastWriteEpoch + offset + 1) =
      cellOf overlayNumEpochs (entry.lastWriteEpoch + offset + 1) := fun offset => overlayIndex_eq (by omega)
  simp only [hindex, clearAfter]

/-- Whatever the gap is, the cleared entry mirrors the log up to now. -/
theorem zeroGapBuckets (h : entry.Represents log) (hlast : entry.lastWriteEpoch ≤ now) :
    Mirrors log now (AgentSpendOverlay.zeroGapBuckets entry now).contributions := by
  simp only [AgentSpendOverlay.zeroGapBuckets]
  split
  · obtain rfl : entry.lastWriteEpoch = now := by omega
    exact h.mirrors
  · split
    · exact h.mirrors.reset (by omega)
    · rw [foldl_clear h.last_nonneg]
      have hclear := h.mirrors.clear (now - entry.lastWriteEpoch).toNat
      rwa [show entry.lastWriteEpoch + (now - entry.lastWriteEpoch).toNat = now by omega] at hclear

/-! ## Reading -/

/-- An hour among the last 24 starts within the window. -/
theorem bucketStart_ge (hpos : 0 < clock.unixTimestamp) {e : Int} (hnear : overlayEpochOf clock < e + 24) :
    saturatingSubI64 clock.unixTimestamp overlayRollingWindowSeconds ≤ e * overlayEpochDuration := by
  have hrange := clock.timestamp_range
  rw [overlayEpochOf_eq hpos] at hnear
  dsimp only [i64Min, i64Max, overlayRollingWindowSeconds, overlayEpochDuration] at hrange ⊢
  rw [saturatingSubI64, clampI64_of_mem (by dsimp only [i64Min]; omega) (by dsimp only [i64Max]; omega)]
  omega

/-- What the loop adds for one hour, if the hour is among the last 24. -/
def counted (entry : AgentContributionEntry) (now : Int) (k : Nat) : Nat :=
  if 0 ≤ entry.lastWriteEpoch - k ∧ now < entry.lastWriteEpoch - k + 24 then
    entry.contributions (overlayIndex (entry.lastWriteEpoch - k))
  else 0

/-- The loop stops only when no later turn could count. -/
theorem counted_after {k j : Nat} (hstop : ¬ (0 ≤ entry.lastWriteEpoch - k ∧ now < entry.lastWriteEpoch - k + 24))
    (hj : k ≤ j) : counted entry now j = 0 := if_neg (by omega)

theorem le_sumContributions (hpos : 0 < clock.unixTimestamp) (hlast : entry.lastWriteEpoch ≤ overlayEpochOf clock)
    (n k total : Nat) :
    min (total + ((List.range' k n).map (counted entry (overlayEpochOf clock))).sum) (uMax 64) ≤
      min (AgentSpendOverlay.sumContributions entry (overlayEpochOf clock)
        (saturatingSubI64 clock.unixTimestamp overlayRollingWindowSeconds) (List.range' k n) total) (uMax 64) := by
  induction n generalizing k total with
  | zero => simp [AgentSpendOverlay.sumContributions]
  | succ n ih =>
      rw [List.range'_succ, List.map_cons, List.sum_cons]
      simp only [AgentSpendOverlay.sumContributions]
      split
      · rename_i hexit
        -- nothing from here on is among the last 24 hours
        have hstop : ¬ (0 ≤ entry.lastWriteEpoch - k ∧ overlayEpochOf clock < entry.lastWriteEpoch - k + 24) := by
          rintro ⟨hnonneg, hnear⟩
          have := bucketStart_ge hpos hnear
          dsimp only [overlayEpochDuration] at this hexit
          omega
        have hrest : ((List.range' (k + 1) n).map (counted entry (overlayEpochOf clock))).sum = 0 := by
          refine List.sum_eq_zero fun y hy => ?_
          obtain ⟨j, hj, rfl⟩ := List.mem_map.mp hy
          exact counted_after hstop (by have := (List.mem_range'_1.mp hj).1; omega)
        rw [counted_after hstop le_rfl, hrest]
        omega
      · rename_i hexit
        rw [if_neg (by omega)]
        refine le_trans (min_add_le_saturatingAdd (by decide) ?_) (ih (k + 1) _)
        unfold counted
        split
        · rename_i hcounted
          rw [if_pos (bucketStart_ge hpos hcounted.2)]
        · exact Nat.zero_le _

theorem total_le_counted (h : entry.Represents log) {k : Nat} (hk : k < 24) :
    (if now < entry.lastWriteEpoch - k + 24 then log.total (entry.lastWriteEpoch - k) else 0) ≤
      counted entry now k := by
  unfold counted
  rcases le_or_gt 0 (entry.lastWriteEpoch - k) with hnonneg | hneg
  · rw [overlayIndex_eq hnonneg, h.mirrors.cells k hk]
    simp only [hnonneg, true_and, le_refl]
  · rw [EpochLog.total_eq_zero fun hmem => absurd (h.nonneg _ hmem) (by omega)]
    simp

/-- The rolling spend of an agent is not less than what the last 24 hours hold, up to the width of the result. -/
theorem le_rolling {overlay : AgentSpendOverlay} {i : Fin maxOverlayEntries}
    (h : (overlay.entries i).Represents log) (hpos : 0 < clock.unixTimestamp)
    (hle : ∀ e ∈ log.epochs, e ≤ overlayEpochOf clock) :
    min (log.windowTotal (overlayEpochOf clock - 23) (overlayEpochOf clock)) (uMax 64) ≤
      overlay.getAgentRolling24hUsd clock i := by
  have hlast := h.last_le (overlayEpochOf_nonneg hpos) hle
  have hwindow := h.mirrors.windowTotal_le hlast
  rw [show overlayEpochOf clock - (overlayNumEpochs : Nat) + 1 = overlayEpochOf clock - 23 by
    dsimp only [overlayNumEpochs]; omega] at hwindow
  simp only [AgentSpendOverlay.getAgentRolling24hUsd, if_neg (not_le.mpr hpos)]
  split
  · rename_i hfar
    rw [EpochLog.windowTotal_eq_zero fun k hk hmem => absurd (h.mirrors.newest k hmem) ?_]
    · exact Nat.zero_le _
    · dsimp only [overlayNumEpochs] at hfar
      omega
  · have hloop := le_sumContributions hpos hlast 24 0 0
    rw [Nat.zero_add, ← List.range_eq_range'] at hloop
    refine le_trans (min_le_min_right _ (hwindow.trans ?_)) hloop
    exact Finset.sum_le_sum fun k hk => h.total_le_counted (Finset.mem_range.mp hk)

/-- A record in the current hour. -/
theorem record {overlay overlay' : AgentSpendOverlay} {i : Fin maxOverlayEntries}
    (h : (overlay.entries i).Represents log) (hpos : 0 < clock.unixTimestamp)
    (hle : ∀ e ∈ log.epochs, e ≤ overlayEpochOf clock)
    (hrecord : overlay.recordAgentContribution clock i x = .ok overlay') :
    (overlay'.entries i).Represents ((overlayEpochOf clock, x) :: log) := by
  have hnow := overlayEpochOf_nonneg hpos
  simp only [AgentSpendOverlay.recordAgentContribution, bind_eq_ok, okOr_eq_ok, checkedAdd_eq_some,
    pure_eq_ok] at hrecord
  obtain ⟨amount, ⟨-, rfl⟩, rfl⟩ := hrecord
  dsimp only
  rw [Function.update_self]
  refine ⟨?_, h.chronological.cons hle, ?_, .inr List.mem_cons_self⟩
  · have hmirrors := (h.zeroGapBuckets (h.last_le hnow hle)).record x
    rw [← overlayIndex_eq hnow] at hmirrors
    exact hmirrors
  · intro e he
    rcases List.mem_cons.mp he with rfl | he
    · exact hnow
    · exact h.nonneg e he

end AgentContributionEntry.Represents

/-! ## The entry of one agent -/

section
variable {overlay overlay' : AgentSpendOverlay} {agents : List AgentEntry} {agent : Pubkey}
  {i : Fin maxOverlayEntries}

/-- The entry that an agent has. -/
def AgentSpendOverlay.entryOf (overlay : AgentSpendOverlay) (agent : Pubkey) : Option AgentContributionEntry :=
  (overlay.findAgentSlot agent).map overlay.entries

theorem AgentSpendOverlay.entryOf_none (h : ∀ i, overlay.keyAt i ≠ agent) : overlay.entryOf agent = none := by
  rw [entryOf, findAgentSlot_eq_none.mpr h, Option.map_none]

theorem SlotsOf.findAgentSlot_eq (h : SlotsOf agents overlay) (hagent : agent ≠ .default)
    (hi : overlay.keyAt i = agent) : overlay.findAgentSlot agent = some i := by
  cases hslot : overlay.findAgentSlot agent with
  | none => exact absurd hi (AgentSpendOverlay.findAgentSlot_eq_none.mp hslot i)
  | some j =>
      have hj := AgentSpendOverlay.findAgentSlot_some hslot
      rw [h.tracks.injective j i (hj.trans hi.symm) (hj ▸ hagent)]

theorem SlotsOf.entryOf_eq (h : SlotsOf agents overlay) (hagent : agent ≠ .default) (hi : overlay.keyAt i = agent) :
    overlay.entryOf agent = some (overlay.entries i) := by
  rw [AgentSpendOverlay.entryOf, h.findAgentSlot_eq hagent hi, Option.map_some]

theorem AgentSpendOverlay.keyAt_releaseSlot (overlay : AgentSpendOverlay) (i : Fin maxOverlayEntries) :
    (overlay.releaseSlot i).keyAt i = .default := by
  have hkeys : (overlay.releaseSlot i).keyAt = Function.update overlay.keyAt i .default :=
    SlotsOf.keyAt_update overlay i {}
  rw [hkeys, Function.update_self]

/-- Nobody else has the slot of an agent, so once it is released the agent has none. -/
theorem SlotsOf.keyAt_releaseSlot_ne (h : SlotsOf agents overlay) (hagent : agent ≠ .default)
    (hi : overlay.keyAt i = agent) (j : Fin maxOverlayEntries) : (overlay.releaseSlot i).keyAt j ≠ agent := by
  have hkeys : (overlay.releaseSlot i).keyAt = Function.update overlay.keyAt i .default :=
    SlotsOf.keyAt_update overlay i {}
  intro hj
  rcases eq_or_ne j i with rfl | hji
  · exact hagent (hj.symm.trans (AgentSpendOverlay.keyAt_releaseSlot overlay j))
  · rw [hkeys, Function.update_of_ne hji] at hj
    exact hji (h.tracks.injective j i (hj.trans hi.symm) (hj ▸ hagent))

/-- A slot of somebody else is written. -/
theorem AgentSpendOverlay.findAgentSlot_congr (hothers : ∀ j ≠ i, overlay'.entries j = overlay.entries j)
    (hbefore : overlay.keyAt i ≠ agent) (hafter : overlay'.keyAt i ≠ agent) :
    overlay'.findAgentSlot agent = overlay.findAgentSlot agent := by
  have hkey : ∀ j, overlay'.keyAt j = agent ↔ overlay.keyAt j = agent := by
    intro j
    rcases eq_or_ne j i with rfl | hne
    · exact iff_of_false hafter hbefore
    · rw [keyAt, keyAt, hothers j hne]
  unfold findAgentSlot
  congr 1
  funext j
  exact decide_eq_decide.mpr (hkey j)

theorem AgentSpendOverlay.entryOf_congr (hothers : ∀ j ≠ i, overlay'.entries j = overlay.entries j)
    (hbefore : overlay.keyAt i ≠ agent) (hafter : overlay'.keyAt i ≠ agent) :
    overlay'.entryOf agent = overlay.entryOf agent := by
  rw [entryOf, entryOf, findAgentSlot_congr hothers hbefore hafter]
  cases hfound : overlay.findAgentSlot agent with
  | none => rfl
  | some j =>
      have hne : j ≠ i := by
        rintro rfl
        exact hbefore (findAgentSlot_some hfound)
      rw [Option.map_some, Option.map_some, hothers j hne]

end

def Staff.entryOf (s : Staff) (agent : Pubkey) : Option AgentContributionEntry :=
  s.overlay.bind (·.entryOf agent)

/-- What a step without a charge does to the slots. -/
inductive SlotsChange : Option AgentSpendOverlay → Option AgentSpendOverlay → Prop where
  | same {o : Option AgentSpendOverlay} : SlotsChange o o
  | opened {o : Option AgentSpendOverlay} : SlotsChange o (some {})
  | closed {o : Option AgentSpendOverlay} : SlotsChange o none
  | claimed {agents agents' : List AgentEntry} {overlay overlay' : AgentSpendOverlay} (agent : Pubkey)
      (hbefore : SlotsOf agents overlay) (hafter : SlotsOf agents' overlay') (hnone : ∀ i, overlay.keyAt i ≠ agent)
      (hclaim : overlay.claimSlot agent = some overlay') : SlotsChange (some overlay) (some overlay')
  | released {agents : List AgentEntry} {overlay : AgentSpendOverlay} (i : Fin maxOverlayEntries) (agent : Pubkey)
      (hbefore : SlotsOf agents overlay) (hi : overlay.keyAt i = agent) :
      SlotsChange (some overlay) (some (overlay.releaseSlot i))

theorem SlotsChange.of_staff {ctx : Ctx} {s s' : Staff} (hinv : s.SlotInv) (hchange : StaffChange ctx none s s') :
    SlotsChange s.overlay s'.overlay := by
  have hinv' := hinv.change hchange
  cases hchange with
  | same => exact .same
  | opened owner hdead => exact .opened
  | closed hroster hsigned => exact .closed
  | paused agent b hroster hsigned => exact .same
  | frozen hroster hsigned => exact .same
  | reactivated newAgent capability hroster hsigned hagents => exact .same
  | registered e hroster hsigned hoverlay hnew hlength hkey hclaim =>
      rw [hoverlay]
      unfold claimForNewAgent at hclaim
      split at hclaim
      · obtain rfl := pure_eq_ok.mp hclaim
        exact .same
      · rename_i hslot
        split at hclaim
        · rename_i hclaimed
          obtain rfl := pure_eq_ok.mp hclaim
          exact .claimed e.pubkey (hinv.slots _ _ hroster hoverlay) (hinv'.slots _ _ rfl rfl)
            (AgentSpendOverlay.findAgentSlot_eq_none.mp hslot) hclaimed
        · simp only [bind_eq_ok, pure_eq_ok] at hclaim
          obtain ⟨_, -, rfl⟩ := hclaim
          exact .same
  | revoked agent hroster hsigned hoverlay =>
      rw [hoverlay]
      unfold AgentSpendOverlay.without
      split
      · rename_i i hslot
        exact .released i agent (hinv.slots _ _ hroster hoverlay) (AgentSpendOverlay.findAgentSlot_some hslot)
      · exact .same
  | permitted pending hroster hsigned hoverlay hentry hadjust =>
      rw [hoverlay]
      unfold adjustSlot at hadjust
      split at hadjust
      · rename_i hslot
        split at hadjust
        · exact .claimed pending.agent (hinv.slots _ _ hroster hoverlay) (hinv'.slots _ _ rfl rfl)
            (AgentSpendOverlay.findAgentSlot_eq_none.mp hslot) (okOr_eq_ok.mp hadjust)
        · obtain rfl := pure_eq_ok.mp hadjust
          exact .same
      · rename_i i hslot
        obtain rfl := pure_eq_ok.mp hadjust
        split
        · exact .released i pending.agent (hinv.slots _ _ hroster hoverlay)
            (AgentSpendOverlay.findAgentSlot_some hslot)
        · exact .same

/-- What a step does to the entry of one agent. -/
inductive EntryChange (ctx : Ctx) (s : Staff) (agent : Pubkey) :
    Option (Pubkey × Nat) → Option AgentContributionEntry → Option AgentContributionEntry → Prop where
  | same {c : Option (Pubkey × Nat)} {o : Option AgentContributionEntry} (hc : ∀ x, c ≠ some (agent, x)) :
      EntryChange ctx s agent c o o
  | gone {c : Option (Pubkey × Nat)} {o : Option AgentContributionEntry} : EntryChange ctx s agent c o none
  | claimed : EntryChange ctx s agent none none (some { agent := agent })
  | charged {vault : AgentVault} {overlay overlay' : AgentSpendOverlay} {e : AgentEntry} (i : Fin maxOverlayEntries)
      (x : Nat) (hroster : s.roster = some vault.roster) (hentry : vault.getAgent agent = some e)
      (hlimit : checkAgentLimit e overlay ctx.clock i x = .ok ())
      (hrecord : overlay.recordAgentContribution ctx.clock i x = .ok overlay') :
      EntryChange ctx s agent (some (agent, x)) (some (overlay.entries i)) (some (overlay'.entries i))

namespace EntryChange

variable {ctx : Ctx} {s s' : Staff} {agent agent' : Pubkey} {agents agents' : List AgentEntry}
  {overlay overlay' : AgentSpendOverlay} {c : Option (Pubkey × Nat)}

theorem of_claim (h : SlotsOf agents overlay) (h' : SlotsOf agents' overlay') (hagent : agent ≠ .default)
    (hnone : ∀ i, overlay.keyAt i ≠ agent') (hclaim : overlay.claimSlot agent' = some overlay') :
    EntryChange ctx s agent none (overlay.entryOf agent) (overlay'.entryOf agent) := by
  obtain ⟨i, hi, hoverlay'⟩ := AgentSpendOverlay.claimSlot_some hclaim
  have hkey : overlay'.keyAt i = agent' := by
    rw [hoverlay', SlotsOf.keyAt_update, Function.update_self]
  rcases eq_or_ne agent' agent with rfl | hne
  · have hentry : overlay'.entries i = { agent := agent' } := by
      simp [hoverlay', (h.unused i hi).entry]
    rw [AgentSpendOverlay.entryOf_none hnone, h'.entryOf_eq hagent hkey, hentry]
    exact .claimed
  · have hothers : ∀ j ≠ i, overlay'.entries j = overlay.entries j := by
      intro j hj
      rw [hoverlay']
      exact Function.update_of_ne hj ..
    rw [AgentSpendOverlay.entryOf_congr hothers (hi ▸ hagent.symm) (hkey ▸ hne)]
    exact .same nofun

theorem of_release {i : Fin maxOverlayEntries} (h : SlotsOf agents overlay) (hagent : agent ≠ .default)
    (hi : overlay.keyAt i = agent') :
    EntryChange ctx s agent none (overlay.entryOf agent) ((overlay.releaseSlot i).entryOf agent) := by
  rcases eq_or_ne agent' agent with rfl | hne
  · rw [AgentSpendOverlay.entryOf_none (h.keyAt_releaseSlot_ne hagent hi)]
    exact .gone
  · have hothers : ∀ j ≠ i, (overlay.releaseSlot i).entries j = overlay.entries j :=
      fun j hj => Function.update_of_ne hj ..
    have hfree := AgentSpendOverlay.keyAt_releaseSlot overlay i
    rw [AgentSpendOverlay.entryOf_congr hothers (hi ▸ hne) (hfree ▸ hagent.symm)]
    exact .same nofun

theorem of_charge {vault : AgentVault} {x : Nat} {lifetime : Bool} (h : SlotsOf vault.agents overlay)
    (hagent : agent ≠ .default) (hroster : s.roster = some vault.roster)
    (hcharge : chargeAgent vault overlay ctx.clock agent' x lifetime = .ok overlay') :
    EntryChange ctx s agent (some (agent', x)) (overlay.entryOf agent) (overlay'.entryOf agent) := by
  have h' := h.charge hcharge
  obtain ⟨e, he, ⟨hslot, -, rfl⟩ | ⟨i, overlay₁, hslot, hlimit, hrecord, hentries, -⟩⟩ := chargeAgent_ok hcharge
  · rcases eq_or_ne agent' agent with rfl | hne
    · rw [AgentSpendOverlay.entryOf_none (AgentSpendOverlay.findAgentSlot_eq_none.mp hslot)]
      exact .gone
    · exact .same fun y hy => hne (Prod.mk.inj (Option.some.inj hy)).1
  · have hi := AgentSpendOverlay.findAgentSlot_some hslot
    obtain ⟨hkeys, hothers⟩ := recordAgentContribution_ok hrecord
    have hi' : overlay'.keyAt i = agent' := by
      rw [← hi, ← hkeys, AgentSpendOverlay.keyAt, AgentSpendOverlay.keyAt, hentries]
    rcases eq_or_ne agent' agent with rfl | hne
    · rw [h.entryOf_eq hagent hi, h'.entryOf_eq hagent hi', hentries]
      exact .charged i x hroster he hlimit hrecord
    · have hothers' : ∀ j ≠ i, overlay'.entries j = overlay.entries j := fun j hj => by rw [hentries, hothers j hj]
      rw [AgentSpendOverlay.entryOf_congr hothers' (hi ▸ hne) (hi' ▸ hne)]
      exact .same fun y hy => hne (Prod.mk.inj (Option.some.inj hy)).1

theorem entryOf_of_overlay (h : s.overlay = some overlay) : s.entryOf agent = overlay.entryOf agent := by
  rw [Staff.entryOf, h, Option.bind_some]

theorem of_staff (hinv : s.SlotInv) (hagent : agent ≠ .default) (hchange : StaffChange ctx c s s') :
    EntryChange ctx s agent c (s.entryOf agent) (s'.entryOf agent) := by
  cases c with
  | none =>
      have hslots := SlotsChange.of_staff hinv hchange
      unfold Staff.entryOf
      generalize s.overlay = o at hslots
      generalize s'.overlay = o' at hslots
      cases hslots with
      | same => exact .same nofun
      | opened =>
          have hnone : AgentSpendOverlay.entryOf {} agent = none :=
            AgentSpendOverlay.entryOf_none fun _ => hagent.symm
          rw [Option.bind_some, hnone]
          exact .gone
      | closed => exact .gone
      | claimed agent' hbefore hafter hnone hclaim => exact .of_claim hbefore hafter hagent hnone hclaim
      | released i agent' hbefore hi => exact .of_release hbefore hagent hi
  | some charge =>
      cases hchange with
      | charged agent' amount lifetime hroster hoverlay hcharge =>
          rw [entryOf_of_overlay hoverlay, Staff.entryOf, Option.bind_some]
          exact .of_charge (hinv.slots _ _ hroster hoverlay) hagent hroster hcharge

end EntryChange

end Sigil
