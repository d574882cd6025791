import Sigil.Sdk.VaultDiscovery

/-!
# The next id of a vault

Five slots are probed, then the id after the greatest one that is known. The answer against the set of all ids in use.
-/

namespace Sigil.Sdk

open Library

/-- An RPC that answers from the ids in use. It may list accounts in any order, or say that it cannot. -/
structure HonestRpc (rpc : VaultRpc) (owner : Pubkey) (used : Finset Nat) (supported : Bool) : Prop where
  fetch : ∀ i < 2 ^ 64, rpc.fetchMaybeAgentVault (getVaultPDA owner i) = .ok (decide (i ∈ used))
  accounts : supported = true → ∃ ids : List Nat, (∀ i, i ∈ ids ↔ i ∈ used) ∧
    rpc.getProgramAccounts owner = .ok (ids.map fun i => (getVaultPDA owner i, leBytes 8 i))
  unsupported : supported = false → ∃ err, rpc.getProgramAccounts owner = .error err ∧
    isGpaUnsupportedError err = true ∧ isRateLimitError err = false
  multiple : ∀ ids : List Nat, ids.length ≤ 100 → (∀ i ∈ ids, i < 2 ^ 64) →
    rpc.getMultipleAccounts (ids.map (getVaultPDA owner)) = .ok (ids.map fun i => decide (i ∈ used))

variable {rpc : VaultRpc} {owner : Pubkey} {used : Finset Nat} {supported : Bool} {vaults : List VaultLocator}

/-! ## The probe -/

theorem HonestRpc.firstFree_eq (h : HonestRpc rpc owner used supported) {ids : List Nat}
    (hids : ∀ i ∈ ids, i < 2 ^ 64) :
    firstFree rpc owner ids = .ok (ids.find? fun i => i ∉ used) := by
  induction ids with
  | nil => rfl
  | cons i ids ih =>
      rw [List.forall_mem_cons] at hids
      rw [firstFree, h.fetch i hids.1, List.find?_cons]
      show (if decide (i ∈ used) = true then firstFree rpc owner ids else pure (some i)) = _
      by_cases hi : i ∈ used
      · simpa [hi] using ih hids.2
      · simp [hi, pure, Except.pure]

/-! ## The greatest id -/

theorem foldl_max (vaults : List VaultLocator) (start : Nat) :
    let greatest := vaults.foldl (fun maxId v => if v.vaultId > maxId then v.vaultId else maxId) start
    start ≤ greatest ∧ (∀ v ∈ vaults, v.vaultId ≤ greatest) ∧
      (greatest = start ∨ ∃ v ∈ vaults, v.vaultId = greatest) := by
  induction vaults generalizing start with
  | nil => simp
  | cons v vaults ih =>
      obtain ⟨hle, hall, hsome⟩ := ih (if v.vaultId > start then v.vaultId else start)
      have hstart : start ≤ (if v.vaultId > start then v.vaultId else start) := by split <;> omega
      have hv : v.vaultId ≤ (if v.vaultId > start then v.vaultId else start) := by split <;> omega
      rw [List.foldl_cons]
      refine ⟨hstart.trans hle, ?_, ?_⟩
      · intro w hw
        rcases List.mem_cons.mp hw with rfl | hw
        · exact hv.trans hle
        · exact hall w hw
      · rcases hsome with hsame | ⟨w, hw, hmax⟩
        · by_cases hgt : v.vaultId > start
          · rw [if_pos hgt] at hsame ⊢
            exact .inr ⟨v, List.mem_cons_self, hsame.symm⟩
          · rw [if_neg hgt] at hsame ⊢
            exact .inl hsame
        · exact .inr ⟨w, List.mem_cons_of_mem v hw, hmax⟩

theorem le_maxVaultId {v : VaultLocator} (h : v ∈ vaults) : v.vaultId ≤ maxVaultId vaults :=
  (foldl_max vaults 0).2.1 v h

theorem exists_maxVaultId (h : vaults ≠ []) : ∃ v ∈ vaults, v.vaultId = maxVaultId vaults := by
  obtain ⟨v, hv⟩ := List.exists_mem_of_ne_nil vaults h
  rcases (foldl_max vaults 0).2.2 with hzero | hmax
  · exact ⟨v, hv, le_antisymm (le_maxVaultId hv) (hzero.trans_le (Nat.zero_le _))⟩
  · exact hmax

/-! ## The vaults that are found -/

theorem mem_verifiedVaults {ids : List Nat} (hids : ∀ i ∈ ids, i < 2 ^ 64) (i : Nat) :
    (∃ v ∈ verifiedVaults owner (ids.map fun i => (getVaultPDA owner i, leBytes 8 i)), v.vaultId = i) ↔ i ∈ ids := by
  have hdecode (j : Nat) (hj : j ∈ ids) : decodeVaultId (leBytes 8 j) = j := leValue_leBytes (hids j hj)
  simp only [verifiedVaults, List.mem_mergeSort, List.mem_filter, List.mem_map, decide_eq_true_eq]
  constructor
  · intro h
    obtain ⟨v, ⟨⟨entry, ⟨j, hj, rfl⟩, rfl⟩, -⟩, rfl⟩ := h
    dsimp only
    rwa [hdecode j hj]
  · intro hi
    refine ⟨⟨getVaultPDA owner i, i⟩, ⟨⟨_, ⟨i, hi, rfl⟩, ?_⟩, rfl⟩, rfl⟩
    rw [hdecode i hi]

theorem mem_probedVaults (n i : Nat) :
    (∃ v ∈ probedVaults owner ((List.range n).map fun i => decide (i ∈ used)), v.vaultId = i) ↔ i ∈ used ∧ i < n := by
  simp only [probedVaults, List.mem_map, List.mem_filter, Prod.exists, List.mem_zipIdx_iff_getElem?,
    List.getElem?_map, Option.map_eq_some_iff]
  constructor
  · intro h
    obtain ⟨v, ⟨found, j, ⟨⟨k, hk, hfound⟩, htrue⟩, rfl⟩, rfl⟩ := h
    obtain ⟨hlt, rfl⟩ := List.getElem?_eq_some_iff.mp hk
    rw [List.getElem_range] at hfound
    rw [List.length_range] at hlt
    rw [← hfound] at htrue
    exact ⟨of_decide_eq_true htrue, hlt⟩
  · intro h
    refine ⟨⟨getVaultPDA owner i, i⟩, ⟨true, i, ⟨⟨i, ?_, ?_⟩, rfl⟩, rfl⟩, rfl⟩
    · rw [List.getElem?_range h.2]
    · exact decide_eq_true h.1

/-- The ids that are found: all of them, or those below 100. -/
theorem HonestRpc.findVaultsByOwner_eq (h : HonestRpc rpc owner used supported) (hused : ∀ i ∈ used, i < 2 ^ 64) :
    ∃ vaults, findVaultsByOwner rpc owner 100 = .ok vaults ∧
      ∀ i, (∃ v ∈ vaults, v.vaultId = i) ↔ i ∈ used ∧ (supported = true ∨ i < 100) := by
  cases supported with
  | true =>
      obtain ⟨ids, hids, haccounts⟩ := h.accounts rfl
      refine ⟨_, by rw [findVaultsByOwner, haccounts], fun i => ?_⟩
      rw [mem_verifiedVaults (fun j hj => hused j ((hids j).mp hj)), hids]
      simp
  | false =>
      obtain ⟨err, herr, hunsupported, hlimit⟩ := h.unsupported rfl
      have hmultiple := h.multiple (List.range 100) (by simp) fun i hi =>
        (List.mem_range.mp hi).trans (by decide)
      refine ⟨probedVaults owner ((List.range 100).map fun i => decide (i ∈ used)), ?_, fun i => ?_⟩
      · rw [findVaultsByOwner, herr]
        dsimp only
        rw [hlimit, hunsupported, if_neg Bool.false_ne_true, Bool.not_true, if_neg Bool.false_ne_true, Nat.min_self,
          probeVaults, hmultiple]
      · rw [mem_probedVaults]
        simp

/-! ## The answer -/

/-- An id below 256 that is not in use, or the error where there is none. -/
def SoundAnswer (answer : Except DiscoveryError Nat) (used : Finset Nat) : Prop :=
  (∃ i, answer = .ok i ∧ i < 256 ∧ i ∉ used) ∨ (answer = .error .vaultSlotsExhausted ∧ ∀ i < 256, i ∈ used)

/-- One of the first five slots is free; or all ids are known, and the greatest is below 255 or no slot is free; or the
ids below 100 are known, and the one after them is not in use. -/
def Searchable (used : Finset Nat) (supported : Bool) : Prop :=
  (∃ i < 5, i ∉ used) ∨
    (supported = true ∧ ((∀ i ∈ used, i < 255) ∨ ∀ i < 256, i ∈ used)) ∨
    (supported = false ∧ ¬ (99 ∈ used ∧ 100 ∈ used))

theorem nextVaultId_eq (h : vaults ≠ []) : nextVaultId vaults =
    if maxVaultId vaults + 1 ≥ 256 then .error .vaultSlotsExhausted else .ok (maxVaultId vaults + 1) := by
  rw [nextVaultId, if_neg (by simpa using h)]

/-- With the first five slots in use the answer is the id after the greatest one that is found. -/
theorem HonestRpc.findNextVaultId_eq (h : HonestRpc rpc owner used supported) (hused : ∀ i ∈ used, i < 2 ^ 64)
    (hfull : ∀ i < 5, i ∈ used) :
    ∃ greatest ∈ used, (supported = true ∨ greatest < 100) ∧
      (∀ i ∈ used, (supported = true ∨ i < 100) → i ≤ greatest) ∧
      findNextVaultId rpc owner =
        if greatest + 1 ≥ 256 then .error .vaultSlotsExhausted else .ok (greatest + 1) := by
  have hids : ∀ i ∈ List.range 5, i < 2 ^ 64 := fun i hi => (List.mem_range.mp hi).trans (by decide)
  have hfirst := h.firstFree_eq hids
  have hfind : (List.range 5).find? (fun i => i ∉ used) = none := by
    rw [List.find?_eq_none]
    intro i hi
    simpa using hfull i (List.mem_range.mp hi)
  obtain ⟨vaults, hvaults, hids⟩ := h.findVaultsByOwner_eq hused
  have hne : vaults ≠ [] := by
    obtain ⟨v, hv, -⟩ := (hids 4).mpr ⟨hfull 4 (by decide), .inr (by decide)⟩
    exact List.ne_nil_of_mem hv
  obtain ⟨top, htop, hmax⟩ := exists_maxVaultId hne
  obtain ⟨hmem, hknown⟩ := (hids (maxVaultId vaults)).mp ⟨top, htop, hmax⟩
  refine ⟨maxVaultId vaults, hmem, hknown, ?_, ?_⟩
  · intro i hi hreach
    obtain ⟨v, hv, rfl⟩ := (hids i).mpr ⟨hi, hreach⟩
    exact le_maxVaultId hv
  · rw [findNextVaultId, hfirst, hfind]
    show (findVaultsByOwner rpc owner 100).bind nextVaultId = _
    rw [hvaults, Except.bind, nextVaultId_eq hne]

/-- All ids are known: the greatest one decides. -/
theorem HonestRpc.sound_iff_of_listed (h : HonestRpc rpc owner used true) (hused : ∀ i ∈ used, i < 2 ^ 64)
    (hfull : ∀ i < 5, i ∈ used) :
    SoundAnswer (findNextVaultId rpc owner) used ↔ (∀ i ∈ used, i < 255) ∨ ∀ i < 256, i ∈ used := by
  obtain ⟨greatest, hmem, -, hle, hanswer⟩ := h.findNextVaultId_eq hused hfull
  have hbelow : (∀ i ∈ used, i < 255) ↔ greatest < 255 :=
    ⟨fun hall => hall greatest hmem, fun hlt i hi => (hle i hi (.inl rfl)).trans_lt hlt⟩
  rw [hanswer, hbelow]
  by_cases hlt : greatest < 255
  · have hnew : greatest + 1 ∉ used := fun hin => by
      have := hle _ hin (.inl rfl)
      omega
    rw [if_neg (by omega)]
    exact iff_of_true (.inl ⟨_, rfl, by omega, hnew⟩) (.inl hlt)
  · rw [if_pos (by omega), or_iff_right hlt]
    simp only [SoundAnswer, reduceCtorEq, false_and, exists_false, false_or, true_and]

/-- The ids below 100 are known: the one after them decides. -/
theorem HonestRpc.sound_iff_of_probed (h : HonestRpc rpc owner used false) (hused : ∀ i ∈ used, i < 2 ^ 64)
    (hfull : ∀ i < 5, i ∈ used) :
    SoundAnswer (findNextVaultId rpc owner) used ↔ ¬ (99 ∈ used ∧ 100 ∈ used) := by
  obtain ⟨greatest, hmem, hknown, hle, hanswer⟩ := h.findNextVaultId_eq hused hfull
  have hsmall : greatest < 100 := by simpa using hknown
  have hafter : greatest + 1 ∈ used ↔ 99 ∈ used ∧ 100 ∈ used := by
    constructor
    · intro hin
      obtain rfl : greatest = 99 := by
        by_contra hne
        have := hle _ hin (.inr (by omega))
        omega
      exact ⟨hmem, hin⟩
    · intro hin
      have := hle 99 hin.1 (.inr (by decide))
      obtain rfl : greatest = 99 := by omega
      exact hin.2
  rw [hanswer, if_neg (by omega), ← hafter]
  constructor
  · intro hsound
    rcases hsound with ⟨i, hi, -, hfree⟩ | ⟨herr, -⟩
    · cases hi
      exact hfree
    · cases herr
  · intro hfree
    exact .inl ⟨greatest + 1, rfl, by omega, hfree⟩

/-- The RPC of a list of ids; it lists accounts unless it has an error to say. -/
def rpcOf (owner : Pubkey) (ids : List Nat) (failure : Option RpcError) : VaultRpc :=
  { fetchMaybeAgentVault := fun a => .ok (decide (a ∈ ids.map (getVaultPDA owner)))
    getProgramAccounts := fun _ =>
      failure.elim (.ok (ids.map fun i => (getVaultPDA owner i, leBytes 8 i))) Except.error
    getMultipleAccounts := fun addresses =>
      .ok (addresses.map fun a => decide (a ∈ ids.map (getVaultPDA owner))) }

theorem honest_rpcOf (owner : Pubkey) (ids : List Nat) : HonestRpc (rpcOf owner ids none) owner ids.toFinset true where
  fetch i _ := by simp [rpcOf, getVaultPDA]
  accounts _ := ⟨ids, by simp, rfl⟩
  unsupported h := by cases h
  multiple addresses _ _ := by simp [rpcOf, getVaultPDA]

/-- The search is right exactly where the sets of ids allow it. -/
theorem findNextVaultId_sound_iff (rpc : VaultRpc) (owner : Pubkey) (used : Finset Nat)
    (hused : ∀ i ∈ used, i < 2 ^ 64) (supported : Bool) (hrpc : HonestRpc rpc owner used supported) :
    SoundAnswer (findNextVaultId rpc owner) used ↔ Searchable used supported := by
  have hids : ∀ i ∈ List.range 5, i < 2 ^ 64 := fun i hi => (List.mem_range.mp hi).trans (by decide)
  have hfirst := hrpc.firstFree_eq hids
  cases hfind : (List.range 5).find? fun i => i ∉ used with
  | some i =>
      have hfree := List.find?_some hfind
      have hlt := List.mem_range.mp (List.mem_of_find?_eq_some hfind)
      rw [decide_eq_true_eq] at hfree
      rw [findNextVaultId, hfirst, hfind]
      exact iff_of_true (.inl ⟨i, rfl, by omega, hfree⟩) (.inl ⟨i, hlt, hfree⟩)
  | none =>
      have hfull : ∀ i < 5, i ∈ used := by
        intro i hi
        simpa using List.find?_eq_none.mp hfind i (List.mem_range.mpr hi)
      have hnot : ¬ ∃ i < 5, i ∉ used := by
        rintro ⟨i, hi, hfree⟩
        exact hfree (hfull i hi)
      rw [Searchable, or_iff_right hnot]
      cases supported with
      | true =>
          simp only [true_and, Bool.true_eq_false, false_and, or_false]
          exact hrpc.sound_iff_of_listed hused hfull
      | false =>
          simp only [true_and, Bool.false_eq_true, false_and, false_or]
          exact hrpc.sound_iff_of_probed hused hfull

theorem findNextVaultId_sound_iff_gap :
    SoundAnswer (findNextVaultId (rpcOf (.key 7) [0, 1, 2, 3, 4, 9] none) (.key 7)) [0, 1, 2, 3, 4, 9].toFinset ↔
      Searchable [0, 1, 2, 3, 4, 9].toFinset true :=
  findNextVaultId_sound_iff (rpcOf (.key 7) [0, 1, 2, 3, 4, 9] none) (.key 7) [0, 1, 2, 3, 4, 9].toFinset (by decide)
    true (honest_rpcOf (.key 7) [0, 1, 2, 3, 4, 9])

/-- Six vaults, one of them with the last id: 250 slots are free. -/
theorem slots_not_exhausted :
    HonestRpc (rpcOf (.key 7) [0, 1, 2, 3, 4, 255] none) (.key 7) [0, 1, 2, 3, 4, 255].toFinset true ∧
      ¬ SoundAnswer (findNextVaultId (rpcOf (.key 7) [0, 1, 2, 3, 4, 255] none) (.key 7))
        [0, 1, 2, 3, 4, 255].toFinset := by
  have hhonest := honest_rpcOf (.key 7) [0, 1, 2, 3, 4, 255]
  obtain ⟨greatest, -, -, hle, hanswer⟩ := hhonest.findNextVaultId_eq (by decide) (by decide)
  have hlast := hle 255 (by decide) (.inl rfl)
  rw [if_pos (by omega)] at hanswer
  refine ⟨hhonest, fun h => ?_⟩
  rw [hanswer] at h
  rcases h with ⟨i, hi, -⟩ | ⟨-, hfull⟩
  · cases hi
  · exact absurd (hfull 5 (by decide)) (by decide)

end Sigil.Sdk
