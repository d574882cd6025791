import Sigil.Sdk.Strings
import Sigil.Sdk.BalanceSnapshots

/-!
# The store of snapshots and its copy

The timestamps are the keys of the map, in order, after any calls. A store that is read back from its text is the same
store.
-/

namespace Sigil.Sdk

open Library Library.JsValue

/-! ## The text -/

@[simp] theorem safeBigInt_repr (n : Int) : safeBigInt (string n.repr) = some n := by
  show some ((bigInt (toString n)).getD 0) = some n
  rw [bigInt_toString, Option.getD_some]

theorem roundTrips_tracked : RoundTrips TrackedBalance.toJSON readTracked where
  defined _ := rfl
  plain _ := rfl
  reads b := by simp [TrackedBalance.toJSON, readTracked]

theorem roundTrips_snapshot (orElse : JsValue → JsValue)
    (harray : ∀ l : List TrackedBalance, orElse (array (l.map TrackedBalance.toJSON)).clean =
      (array (l.map TrackedBalance.toJSON)).clean) :
    RoundTrips BalanceSnapshot.toJSON fun v => readSnapshot (orElse (v.get "balances")) v where
  defined _ := rfl
  plain s := by simp [BalanceSnapshot.toJSON, roundTrips_tracked.list.plain]
  reads s := by simp [BalanceSnapshot.toJSON, readSnapshot, harray, roundTrips_tracked.list.reads]

theorem roundTrips_baseline : RoundTrips baselineToJSON readBaseline where
  defined baseline := by cases baseline <;> rfl
  plain baseline := by
    cases baseline with
    | none => rfl
    | some s => exact (roundTrips_snapshot id fun _ => rfl).plain s
  reads baseline := by
    cases baseline with
    | none => rfl
    | some s =>
        have hreads := (roundTrips_snapshot id fun _ => rfl).reads s
        rw [id] at hreads
        rw [baselineToJSON, readBaseline, hreads]
        rfl

namespace BalanceSnapshotStore

/-! ## The invariant -/

/-- The timestamps are the keys of the map, and there are not too many. -/
structure Wf (store : BalanceSnapshotStore) : Prop where
  keys : store.orderedTimestamps = store.snapshots.map Prod.fst
  nodup : store.orderedTimestamps.Nodup
  bounded : (store.orderedTimestamps.length : ℚ) ≤ max store.maxEntries.value 0

variable {store store' : BalanceSnapshotStore} {timestamp : Int} {balances : List TrackedBalance} {turns : Nat}

theorem wf_new (maxEntries : Double) : Wf { maxEntries := maxEntries } where
  keys := rfl
  nodup := List.nodup_nil
  bounded := le_max_right ..

theorem wf_clear (store : BalanceSnapshotStore) : store.clear.Wf where
  keys := rfl
  nodup := List.nodup_nil
  bounded := le_max_right ..

theorem lookup_isSome_iff (hkeys : store.orderedTimestamps = store.snapshots.map Prod.fst) :
    (store.snapshots.lookup timestamp).isSome ↔ timestamp ∈ store.orderedTimestamps := by
  rw [hkeys]
  induction store.snapshots with
  | nil => simp
  | cons entry entries ih =>
      obtain ⟨key, value⟩ := entry
      by_cases hkey : timestamp = key
      · simp [hkey]
      · simp [List.lookup_cons, beq_false_of_ne hkey, hkey, ih]

theorem map_fst_replace (entries : List (Int × List TrackedBalance)) :
    (entries.map fun entry => if entry.1 = timestamp then (timestamp, balances) else entry).map Prod.fst =
      entries.map Prod.fst := by
  rw [List.map_map]
  apply List.map_congr_left
  intro entry _
  by_cases hkey : entry.1 = timestamp
  · simp [hkey]
  · simp [hkey]

/-- The oldest entry is the first of the map. -/
theorem shiftOldest_keys (hkeys : store.orderedTimestamps = store.snapshots.map Prod.fst)
    (hnodup : store.orderedTimestamps.Nodup) :
    store.shiftOldest.orderedTimestamps = store.shiftOldest.snapshots.map Prod.fst := by
  rw [shiftOldest]
  cases hordered : store.orderedTimestamps with
  | nil => rw [← hkeys, hordered]
  | cons oldest rest =>
      rw [hordered] at hkeys hnodup
      cases hentries : store.snapshots with
      | nil => rw [hentries] at hkeys; cases hkeys
      | cons entry entries =>
          rw [hentries, List.map_cons] at hkeys
          obtain ⟨rfl, rfl⟩ := List.cons.inj hkeys
          have hkeep : ∀ e ∈ entries, decide (e.1 ≠ entry.1) = true := by
            intro e he
            have hnotMem := (List.nodup_cons.mp hnodup).1
            exact decide_eq_true fun heq => hnotMem (heq ▸ List.mem_map_of_mem he)
          show entries.map Prod.fst = ((entry :: entries).filter fun e => e.1 ≠ entry.1).map Prod.fst
          rw [List.filter_cons_of_neg (by simp), List.filter_eq_self.mpr hkeep]

theorem shiftOldest_ordered (store : BalanceSnapshotStore) :
    store.shiftOldest.orderedTimestamps = store.orderedTimestamps.tail := by
  rw [shiftOldest]
  split <;> rename_i hordered <;> rw [hordered] <;> rfl

theorem shiftOldest_maxEntries (store : BalanceSnapshotStore) : store.shiftOldest.maxEntries = store.maxEntries := by
  rw [shiftOldest]
  split <;> rfl

/-! ## Eviction -/

theorem evict_wf (hkeys : store.orderedTimestamps = store.snapshots.map Prod.fst)
    (hnodup : store.orderedTimestamps.Nodup) (h : evict turns store = some store') :
    store'.Wf ∧ store'.maxEntries = store.maxEntries := by
  induction turns generalizing store with
  | zero => cases h
  | succ turns ih =>
      rw [evict] at h
      split at h
      · have hnodup' : store.shiftOldest.orderedTimestamps.Nodup := by
          rw [shiftOldest_ordered]
          exact hnodup.tail
        obtain ⟨hwf, hmax⟩ := ih (shiftOldest_keys hkeys hnodup) hnodup' h
        exact ⟨hwf, hmax.trans (shiftOldest_maxEntries store)⟩
      · rename_i hle
        cases h
        exact ⟨⟨hkeys, hnodup, (not_lt.mp hle).trans (le_max_left ..)⟩, rfl⟩

/-- Below zero the loop goes on for ever. -/
theorem evict_of_neg (hneg : store.maxEntries.value < 0) (turns : Nat) : evict turns store = none := by
  induction turns generalizing store with
  | zero => rfl
  | succ turns ih =>
      have hgt : (store.orderedTimestamps.length : ℚ) > store.maxEntries.value :=
        hneg.trans_le (Nat.cast_nonneg _)
      rw [evict, if_pos hgt]
      exact ih (by rwa [shiftOldest_maxEntries])

theorem evict_isSome (hbound : (store.orderedTimestamps.length : ℚ) ≤ store.maxEntries.value + 1)
    (hnonneg : 0 ≤ store.maxEntries.value) : (evict 2 store).isSome := by
  rw [evict]
  split
  · have hdone : ¬ (store.shiftOldest.orderedTimestamps.length : ℚ) > store.shiftOldest.maxEntries.value := by
      rw [shiftOldest_ordered, shiftOldest_maxEntries, List.length_tail, not_lt]
      cases hordered : store.orderedTimestamps with
      | nil => simpa using hnonneg
      | cons oldest rest =>
          rw [hordered, List.length_cons] at hbound
          push_cast at hbound
          simpa using hbound
    rw [evict, if_neg hdone]
    rfl
  · rfl

/-! ## Calls -/

theorem withBaseline_maxEntries : (store.withBaseline timestamp balances).maxEntries = store.maxEntries := by
  rw [withBaseline]
  split <;> rfl

theorem withBaseline_snapshots : (store.withBaseline timestamp balances).snapshots = store.snapshots := by
  rw [withBaseline]
  split <;> rfl

theorem withBaseline_ordered :
    (store.withBaseline timestamp balances).orderedTimestamps = store.orderedTimestamps := by
  rw [withBaseline]
  split <;> rfl

theorem Wf.snapshot (h : store.Wf) (hcall : store.snapshot turns timestamp balances = some store') :
    store'.Wf ∧ store'.maxEntries = store.maxEntries := by
  rw [BalanceSnapshotStore.snapshot] at hcall
  rw [withBaseline_snapshots, withBaseline_ordered] at hcall
  split at hcall
  · cases hcall
    refine ⟨⟨?_, h.nodup, ?_⟩, withBaseline_maxEntries⟩
    · exact h.keys.trans (map_fst_replace store.snapshots).symm
    · show _ ≤ max (store.withBaseline timestamp balances).maxEntries.value 0
      rw [withBaseline_maxEntries]
      exact h.bounded
  · rename_i hnew
    rw [lookup_isSome_iff h.keys] at hnew
    have hkeys :
        store.orderedTimestamps ++ [timestamp] = (store.snapshots ++ [(timestamp, balances)]).map Prod.fst := by
      rw [List.map_append, h.keys]
      rfl
    have hnodup : (store.orderedTimestamps ++ [timestamp]).Nodup := by
      rw [List.nodup_append_comm, List.singleton_append, List.nodup_cons]
      exact ⟨hnew, h.nodup⟩
    obtain ⟨hwf, hmax⟩ := evict_wf hkeys hnodup hcall
    exact ⟨hwf, hmax.trans withBaseline_maxEntries⟩

theorem Wf.snapshot_isSome (h : store.Wf) (hnonneg : 0 ≤ store.maxEntries.value) (timestamp : Int)
    (balances : List TrackedBalance) : (store.snapshot 2 timestamp balances).isSome := by
  rw [BalanceSnapshotStore.snapshot]
  split
  · rfl
  · apply evict_isSome
    · show ((_ ++ [timestamp]).length : ℚ) ≤ _
      rw [withBaseline_ordered, withBaseline_maxEntries, List.length_append]
      have hbounded := h.bounded
      rw [max_eq_left hnonneg] at hbounded
      push_cast
      simpa using hbounded
    · show 0 ≤ (store.withBaseline timestamp balances).maxEntries.value
      rwa [withBaseline_maxEntries]

/-- A new timestamp is never stored if no entry may be. -/
theorem Wf.snapshot_of_neg (h : store.Wf) (hneg : store.maxEntries.value < 0) (turns : Nat) :
    store.snapshot turns timestamp balances = none := by
  have hempty : store.orderedTimestamps = [] := by
    have hbounded := h.bounded
    rw [max_eq_right hneg.le] at hbounded
    exact List.length_eq_zero_iff.mp (Nat.cast_eq_zero.mp (le_antisymm hbounded (Nat.cast_nonneg _)))
  have hnew : ¬ (store.snapshots.lookup timestamp).isSome := by
    rw [lookup_isSome_iff h.keys, hempty]
    exact List.not_mem_nil
  rw [BalanceSnapshotStore.snapshot]
  rw [withBaseline_snapshots, if_neg hnew]
  apply evict_of_neg
  show (store.withBaseline timestamp balances).maxEntries.value < 0
  rwa [withBaseline_maxEntries]

inductive Call where
  | snapshot (timestamp : Int) (balances : List TrackedBalance)
  | clear

/-- A call whose loop takes at most so many turns. -/
def Call.exec (turns : Nat) (store : BalanceSnapshotStore) : Call → Option BalanceSnapshotStore
  | .snapshot timestamp balances => store.snapshot turns timestamp balances
  | .clear => some store.clear

theorem Wf.exec {call : Call} (h : store.Wf) (hcall : call.exec turns store = some store') :
    store'.Wf ∧ store'.maxEntries = store.maxEntries := by
  cases call with
  | snapshot timestamp balances => exact h.snapshot hcall
  | clear =>
      cases hcall
      exact ⟨wf_clear store, rfl⟩

theorem Wf.run {calls : List Call} (h : store.Wf) (hrun : calls.foldlM (Call.exec turns) store = some store') :
    store'.Wf ∧ store'.maxEntries = store.maxEntries := by
  induction calls generalizing store with
  | nil =>
      cases hrun
      exact ⟨h, rfl⟩
  | cons call calls ih =>
      rw [List.foldlM_cons] at hrun
      obtain ⟨next, hcall, hrest⟩ := Option.bind_eq_some_iff.mp hrun
      obtain ⟨hwf, hmax⟩ := h.exec hcall
      obtain ⟨hwf', hmax'⟩ := ih hwf hrest
      exact ⟨hwf', hmax'.trans hmax⟩

theorem Wf.exec_isSome (h : store.Wf) (hnonneg : 0 ≤ store.maxEntries.value) (call : Call) :
    ∃ next, call.exec 2 store = some next := by
  cases call with
  | snapshot timestamp balances => exact Option.isSome_iff_exists.mp (h.snapshot_isSome hnonneg timestamp balances)
  | clear => exact ⟨store.clear, rfl⟩

theorem Wf.run_isSome (h : store.Wf) (hnonneg : 0 ≤ store.maxEntries.value) (calls : List Call) :
    ∃ last, calls.foldlM (Call.exec 2) store = some last := by
  induction calls generalizing store with
  | nil => exact ⟨store, rfl⟩
  | cons call calls ih =>
      obtain ⟨next, hcall⟩ := h.exec_isSome hnonneg call
      obtain ⟨hwf, hmax⟩ := h.exec hcall
      obtain ⟨last, hrest⟩ := ih hwf (by rwa [hmax])
      exact ⟨last, by rw [List.foldlM_cons, hcall]; exact hrest⟩

/-! ## Observations -/

structure Observation where
  baseline : Option BalanceSnapshot
  first : Option (Int × Option (List TrackedBalance))
  latest : Option (Int × Option (List TrackedBalance))
  size : Nat

def observe (store : BalanceSnapshotStore) : Observation :=
  { baseline := store.getBaseline, first := store.getFirst, latest := store.getLatest, size := store.size }

/-- What is seen before the calls and after each of them. -/
def observations (turns : Nat) : List Call → BalanceSnapshotStore → Option (List Observation)
  | [], store => some [store.observe]
  | call :: calls, store =>
      (call.exec turns store).bind fun next => (observations turns calls next).map fun seen => store.observe :: seen

theorem Wf.observations_isSome (h : store.Wf) (hnonneg : 0 ≤ store.maxEntries.value) (calls : List Call) :
    ∃ seen, observations 2 calls store = some seen := by
  induction calls generalizing store with
  | nil => exact ⟨[store.observe], rfl⟩
  | cons call calls ih =>
      obtain ⟨next, hcall⟩ := h.exec_isSome hnonneg call
      obtain ⟨hwf, hmax⟩ := h.exec hcall
      obtain ⟨seen, hseen⟩ := ih hwf (by rwa [hmax])
      exact ⟨store.observe :: seen, by rw [observations, hcall, Option.bind_some, hseen]; rfl⟩

/-! ## The copy -/

theorem foldl_restore (entries : List (Int × List TrackedBalance)) (store : BalanceSnapshotStore)
    (hnodup : (store.snapshots.map Prod.fst ++ entries.map Prod.fst).Nodup)
    (hkeys : store.orderedTimestamps = store.snapshots.map Prod.fst) :
    (entries.map fun entry => BalanceSnapshot.mk entry.1 entry.2).foldl restore store =
      { store with
        snapshots := store.snapshots ++ entries
        orderedTimestamps := store.orderedTimestamps ++ entries.map Prod.fst } := by
  induction entries generalizing store with
  | nil => simp
  | cons entry entries ih =>
      have hnew : ¬ (store.snapshots.lookup entry.1).isSome := by
        rw [lookup_isSome_iff hkeys, hkeys]
        intro hmem
        exact (List.disjoint_of_nodup_append hnodup) hmem List.mem_cons_self
      have hrestore : store.restore { timestamp := entry.1, balances := entry.2 } =
          { store with
            snapshots := store.snapshots ++ [entry]
            orderedTimestamps := store.orderedTimestamps ++ [entry.1] } := by
        rw [restore, if_neg hnew]
      rw [List.map_cons, List.foldl_cons, hrestore, ih]
      · simp
      · simpa using hnodup
      · simp [hkeys]

theorem toJSON_copy (store : BalanceSnapshotStore) : store.toJSON.copy =
    some (object [("baseline", (baselineToJSON store.baseline).clean),
      ("snapshots", (array ((store.snapshots.map fun entry => BalanceSnapshot.mk entry.1 entry.2).map
        BalanceSnapshot.toJSON)).clean),
      ("maxEntries", number store.maxEntries)]) := by
  have hlist := (roundTrips_snapshot id fun _ => rfl).list
  have hplain := hlist.plain (store.snapshots.map fun entry => BalanceSnapshot.mk entry.1 entry.2)
  rw [List.map_map] at hplain ⊢
  have hfields : store.toJSON = object [("baseline", baselineToJSON store.baseline),
      ("snapshots", array (store.snapshots.map (BalanceSnapshot.toJSON ∘ fun entry => ⟨entry.1, entry.2⟩))),
      ("maxEntries", number store.maxEntries)] := rfl
  rw [hfields, copy]
  simp only [hasBigint_object, anyFieldBigint_cons, roundTrips_baseline.plain, hplain, hasBigint_number,
    anyFieldBigint_nil, isUndefined_object, Bool.or_self, Bool.false_eq_true, if_false]
  simp [roundTrips_baseline.defined]

/-- What is read back is the store itself. -/
theorem Wf.fromJSON (h : store.Wf) (hinteger : isInteger store.maxEntries) :
    store.toJSON.copy.bind fromJSON = some store := by
  have hlist := (roundTrips_snapshot orEmpty fun _ => rfl).list
  have hsnapshots := hlist.reads (store.snapshots.map fun entry => BalanceSnapshot.mk entry.1 entry.2)
  have hbaseline := roundTrips_baseline.reads store.baseline
  have hmax : readMaxEntries (number store.maxEntries) = store.maxEntries := by
    rw [readMaxEntries, asNumber_number]
    exact if_pos hinteger
  have hfold := foldl_restore store.snapshots { maxEntries := store.maxEntries, baseline := store.baseline }
    (by rw [List.map_nil, List.nil_append, ← h.keys]; exact h.nodup) rfl
  have harray (items : List JsValue) : orEmpty (array items).clean = (array items).clean := rfl
  rw [toJSON_copy, Option.bind_some, BalanceSnapshotStore.fromJSON]
  simp only [get_cons_self, get_cons_of_ne (show "snapshots" ≠ "baseline" by decide),
    get_cons_of_ne (show "maxEntries" ≠ "baseline" by decide),
    get_cons_of_ne (show "maxEntries" ≠ "snapshots" by decide),
    harray, hbaseline, hsnapshots, hmax, Option.bind_eq_bind, Option.bind_some, hfold, List.nil_append, ← h.keys]
  rfl

/-! ## The round trip -/

/-- The calls return, the timestamps are the keys of the map, and the store that is read back cannot be told from the
store by any further calls, which return as well. -/
def Faithful (maxEntries : Double) (calls : List Call) : Prop :=
  ∃ turns store, calls.foldlM (Call.exec turns) { maxEntries := maxEntries } = some store ∧ store.Wf ∧
    ∃ copied, store.toJSON.copy.bind fromJSON = some copied ∧
      ∀ more, ∃ turns' seen, observations turns' more store = some seen ∧ observations turns' more copied = some seen

/-- The store is faithful exactly if it may hold no fewer than no entries. -/
theorem snapshots_faithful_iff (maxEntries : Double) (hinteger : isInteger maxEntries) (calls : List Call) :
    Faithful maxEntries calls ↔ 0 ≤ maxEntries.value := by
  constructor
  · intro h
    obtain ⟨turns, store, hrun, hwf, _, _, hmore⟩ := h
    by_contra hneg
    have hmax : store.maxEntries = maxEntries := ((wf_new maxEntries).run hrun).2
    obtain ⟨turns', seen, hseen, -⟩ := hmore [.snapshot 0 []]
    have hnone : store.snapshot turns' 0 [] = none :=
      hwf.snapshot_of_neg (by rw [hmax]; exact not_le.mp hneg) turns'
    rw [observations, Call.exec, hnone] at hseen
    cases hseen
  · intro hnonneg
    obtain ⟨store, hrun⟩ := (wf_new maxEntries).run_isSome hnonneg calls
    obtain ⟨hwf, hmax⟩ := (wf_new maxEntries).run hrun
    refine ⟨2, store, hrun, hwf, store, hwf.fromJSON (by rw [hmax]; exact hinteger), fun more => ?_⟩
    obtain ⟨seen, hseen⟩ := hwf.observations_isSome (by rw [hmax]; exact hnonneg) more
    exact ⟨2, seen, hseen, hseen⟩

def usdcBalance (balance : Int) : TrackedBalance :=
  { mint := "EPjFWdd5AufqSSqeM2qN1xzybapC8G4wEGGkZwyTDt1v", balance, symbol := "USDC", decimals := .ofRat 6 }

/-- With room for two snapshots the third one evicts the first. -/
theorem snapshots_faithful_iff_two :
    Faithful (.ofRat 2) [.snapshot 1 [usdcBalance 900], .snapshot 2 [usdcBalance 700, usdcBalance 5],
      .snapshot 3 [usdcBalance 400]] :=
  (snapshots_faithful_iff (.ofRat 2) (by decide +kernel) _).mpr (by decide +kernel)

/-- With room for less than no entries the first snapshot does not return. -/
theorem not_faithful_of_negative : ¬ Faithful (.ofRat (-1)) [.snapshot 0 []] := by
  rintro ⟨turns, store, hrun, -⟩
  have hnone : BalanceSnapshotStore.snapshot { maxEntries := .ofRat (-1) } turns 0 [] = none :=
    (wf_new (.ofRat (-1))).snapshot_of_neg (by decide +kernel) turns
  have hcall : [Call.snapshot 0 []].foldlM (Call.exec turns) { maxEntries := .ofRat (-1) } = none := by
    rw [List.foldlM_cons, Call.exec, hnone]
    rfl
  cases hcall.symm.trans hrun

end BalanceSnapshotStore

end Sigil.Sdk
