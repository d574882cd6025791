import Sigil.Instructions.AssertionArrays
import Sigil.Lemmas.Assertions
import Sigil.Lemmas.Bytes

/-!
# Arrays of assertions follow the entries

On the entries that `validate_entries` accepts no index, slice or copy is out of range and no product overflows.
-/

namespace Sigil

open Library

/-! ## Comparisons -/

section
variable {a b : List UInt8} {n : Nat}

theorem byteOr_eq (a : List UInt8) (i : Nat) (pad : UInt8) : byteOr a i pad = .ok (a.getD i pad) := by
  unfold byteOr
  split
  · rename_i h
    rw [indexAt_eq_ok, List.getElem?_eq_getElem h, List.getD_eq_getElem a pad h]
  · rename_i h
    rw [List.getD_eq_default a pad (Nat.not_lt.mp h)]
    rfl

theorem padTo_eq (pad : UInt8) (h : a.length ≤ n) : padTo n pad a = (List.range n).map (a.getD · pad) := by
  refine List.ext_getElem (by simp [padTo_length h]) fun i hi _ => ?_
  rw [List.getElem_map, List.getElem_range]
  by_cases hlt : i < a.length
  · simp [padTo, List.getElem_append_left hlt, hlt]
  · simp [padTo, List.getElem_append_right (Nat.not_lt.mp hlt), Nat.not_lt.mp hlt]

theorem compareDown_eq (a b : List UInt8) (aPad bPad : UInt8) (n : Nat) : compareDown a b aPad bPad n =
    .ok (compareBytes ((List.range n).map (a.getD · aPad)).reverse ((List.range n).map (b.getD · bPad)).reverse) := by
  induction n with
  | zero => rfl
  | succ n ih =>
      rw [List.range_succ, List.map_append, List.map_append, List.reverse_append, List.reverse_append, compareDown,
        byteOr_eq, byteOr_eq, ih]
      simp only [List.map_cons, List.map_nil, List.reverse_singleton, List.singleton_append, compareBytes]
      show (if _ then _ else _) = _
      split
      · rfl
      · show (if _ then _ else _) = _
        split <;> rfl

theorem evalUnsigned_eq (a b : List UInt8) : evalUnsigned a b = .ok (compareLeUnsigned a b) := by
  rw [evalUnsigned, compareDown_eq, compareLeUnsigned, padTo_eq 0 (le_max_left ..), padTo_eq 0 (le_max_right ..)]

theorem evalNegative_eq (a : List UInt8) : evalNegative a = .ok (isNegative a) := by
  have hbit : ∀ n < 256, decide (UInt8.ofNat n &&& 0x80 ≠ 0) = decide (UInt8.ofNat n ≥ 0x80) := by decide +kernel
  rcases List.eq_nil_or_concat a with rfl | ⟨a, x, rfl⟩
  · rfl
  · have hx := hbit x.toNat x.toNat_lt
    rw [UInt8.ofNat_toNat] at hx
    have htop : indexAt (ε := ProgramError) (a.concat x) ((a.concat x).length - 1) = .ok x := by
      rw [indexAt_eq_ok]
      simp
    rw [evalNegative, if_neg (by simp), htop]
    simpa [isNegative] using hx

theorem evalSigned_eq (a b : List UInt8) : evalSigned a b = .ok (compareLeSigned a b) := by
  rw [evalSigned, compareLeSigned, evalNegative_eq, evalNegative_eq]
  show (if _ then _ else _) = _
  split
  · rfl
  · show (if _ then _ else _) = _
    split
    · rfl
    · dsimp only
      rw [compareDown_eq, padTo_eq _ (le_max_left ..), padTo_eq _ (le_max_right ..)]

theorem evalBitmask_eq (actual mask : List UInt8) (i : Nat) :
    evalBitmask actual mask i = .ok (bitmaskCheck (actual.drop i) mask) := by
  induction mask generalizing i with
  | nil => rw [evalBitmask, bitmaskCheck]; rfl
  | cons m mask ih =>
      rw [evalBitmask, byteOr_eq, ih]
      show (if _ then _ else _) = _
      by_cases hlt : i < actual.length
      · rw [List.drop_eq_getElem_cons hlt, bitmaskCheck, List.getD_eq_getElem actual 0 hlt]
        split <;> simp_all
      · have hle := Nat.not_lt.mp hlt
        rw [List.drop_of_length_le hle, List.drop_of_length_le (Nat.le_succ_of_le hle), bitmaskCheck,
          List.getD_eq_default actual 0 hle]
        show (if _ then _ else _) = _
        split <;> simp_all [eq_comm, pure, Except.pure]

theorem evalBytesMatch_eq (actual expected : List UInt8) (operator : ConstraintOperator) :
    evalBytesMatch actual operator expected = .ok (bytesMatch actual operator expected) := by
  cases operator with
  | eq => rfl
  | ne => rfl
  | gte => rw [evalBytesMatch, evalUnsigned_eq]; rfl
  | lte => rw [evalBytesMatch, evalUnsigned_eq]; rfl
  | gteSigned => rw [evalBytesMatch, evalSigned_eq]; rfl
  | lteSigned => rw [evalBytesMatch, evalSigned_eq]; rfl
  | bitmask => rw [evalBytesMatch, evalBitmask_eq]; rfl

end

/-! ## Packing -/

/-- The widths of the fields on the wire. -/
structure PostAssertionEntry.Fits (entry : PostAssertionEntry) : Prop where
  offset : entry.offset < 2 ^ 16
  valueLen : entry.valueLen < 2 ^ 8
  operator : entry.operator < 2 ^ 8
  assertionMode : entry.assertionMode < 2 ^ 8
  crossFieldOffsetB : entry.crossFieldOffsetB < 2 ^ 16
  crossFieldMultiplierBps : entry.crossFieldMultiplierBps < 2 ^ 32
  crossFieldFlags : entry.crossFieldFlags < 2 ^ 8

/-- The arrays hold what the entry says. -/
structure Packed (entry : PostAssertionEntry) (zc : PostAssertionEntryZC) : Prop where
  targetAccount : zc.targetAccount = entry.targetAccount
  offset : zc.offset.toNat = entry.offset
  valueLen : zc.valueLen.toNat = entry.valueLen
  operator : zc.operator.toNat = entry.operator
  expectedValue : zc.expectedValue.toList.take entry.valueLen = entry.expectedValue.take entry.valueLen
  assertionMode : zc.assertionMode.toNat = entry.assertionMode
  crossFieldOffsetB : leValue zc.crossFieldOffsetB.toList = entry.crossFieldOffsetB
  crossFieldMultiplierBps : leValue zc.crossFieldMultiplierBps.toList = entry.crossFieldMultiplierBps
  crossFieldFlags : zc.crossFieldFlags.toNat = entry.crossFieldFlags

structure PackedSet (entries : List PostAssertionEntry) (assertions : PostExecutionAssertionsZC) : Prop where
  count : assertions.entryCount.toNat = entries.length
  entry : ∀ (i : Nat) (entry : PostAssertionEntry), entries[i]? = some entry →
    ∃ zc, assertions.entries.toList[i]? = some zc ∧ Packed entry zc

section
variable {entry : PostAssertionEntry} {entries : List PostAssertionEntry} {zc : PostAssertionEntryZC}
  {assertions : PostExecutionAssertionsZC} {arrays : SnapshotArrays} {ctx : Ctx} {remaining : List Pubkey} {i : Nat}

theorem packEntry_packed (hvalid : entry.Valid) (hfits : entry.Fits) (zc : PostAssertionEntryZC) :
    ∃ zc', packEntry entry zc = .ok zc' ∧ Packed entry zc' := by
  have hsource : (entry.expectedValue.take (min entry.expectedValue.length maxConstraintValueLen)).length =
      min entry.expectedValue.length maxConstraintValueLen := by simp
  obtain ⟨expected, hcopy, hexpected⟩ :=
    exists_copyFromSlice (ε := ProgramError) zc.expectedValue (min_le_right ..) hsource
  have hprefix : entry.valueLen ≤ min entry.expectedValue.length maxConstraintValueLen :=
    le_min hvalid.expects hvalid.len_le
  rw [packEntry, slice_eq (Nat.zero_le _) (min_le_left ..)]
  refine ⟨_, (bind_eq_ok.mpr ⟨_, rfl, bind_eq_ok.mpr ⟨expected, hcopy, rfl⟩⟩), ?_⟩
  constructor
  case targetAccount => rfl
  case offset => exact Nat.mod_eq_of_lt hfits.offset
  case valueLen => exact Nat.mod_eq_of_lt hfits.valueLen
  case operator => exact Nat.mod_eq_of_lt hfits.operator
  case expectedValue =>
    rw [hexpected, List.take_append_of_le_length (by simpa using hprefix), List.take_take, min_eq_left hprefix]
  case assertionMode => exact Nat.mod_eq_of_lt hfits.assertionMode
  case crossFieldOffsetB => exact leValue_leBytes hfits.crossFieldOffsetB
  case crossFieldMultiplierBps => exact leValue_leBytes hfits.crossFieldMultiplierBps
  case crossFieldFlags => exact Nat.mod_eq_of_lt hfits.crossFieldFlags

theorem packFrom_eq_packInto (zcs : Vector PostAssertionEntryZC 4) (i : Nat) :
    packFrom zcs entries i = packInto packEntry zcs entries i := by
  induction entries generalizing zcs i with
  | nil => rfl
  | cons entry entries ih => simp only [packFrom, packInto, ih]

theorem packEntries_packed (hvalid : PostExecutionAssertions.validateEntries entries = .ok ())
    (hfits : ∀ entry ∈ entries, entry.Fits) :
    ∃ assertions, packEntries entries = .ok assertions ∧ PackedSet entries assertions := by
  obtain ⟨⟨-, hlength⟩, hentries⟩ := PostExecutionAssertions.validateEntries_ok hvalid
  obtain ⟨zcs, hpack, -, hpacked⟩ := packInto_packed
    (fun entry hentry => packEntry_packed (hentries entry hentry) (hfits entry hentry)) (.replicate 4 .zeroed) (i := 0)
    (by rwa [Nat.zero_add])
  rw [← packFrom_eq_packInto] at hpack
  refine ⟨_, bind_eq_ok.mpr ⟨zcs, hpack, rfl⟩, ?_, fun k entry hentry => ?_⟩
  · exact Nat.mod_eq_of_lt (hlength.trans_lt (by decide))
  · simpa using hpacked k entry hentry

/-! ## Targets -/

theorem evalTarget_follows (hpacked : Packed entry zc) (missing : SigilError) :
    Follows Eq (evalTarget ctx remaining zc missing) (readTarget ctx remaining entry missing) := by
  have hoffset : zc.offset.toNat < 2 ^ 16 := zc.offset.toNat_lt
  have hlen : zc.valueLen.toNat < 2 ^ 8 := zc.valueLen.toNat_lt
  have hadd : checkedAdd 64 zc.offset.toNat zc.valueLen.toNat = some (zc.offset.toNat + zc.valueLen.toNat) :=
    checkedAdd_eq_some.mpr ⟨by simp only [uMax]; omega, rfl⟩
  unfold evalTarget readTarget
  refine follows_require (by rw [hpacked.targetAccount]) fun _ => ?_
  rw [hadd]
  refine Follows.bind_left rfl (follows_require ?_ fun hlong => ?_)
  · rw [hpacked.targetAccount, hpacked.offset, hpacked.valueLen]
  · rw [hpacked.targetAccount, hpacked.offset, hpacked.valueLen, slice_eq (Nat.le_add_right ..) hlong,
      Nat.add_sub_cancel_left]
    exact follows_pure rfl

/-! ## Snapshots -/

/-- The snapshots that the arrays hold. -/
def SnapshotArrays.snapshots (arrays : SnapshotArrays) (i : Fin 4) : List UInt8 :=
  arrays.assertionSnapshots[i].toList.take arrays.snapshotLens[i].toNat

theorem SnapshotArrays.snapshots_set (snapshot : Vector UInt8 32) (len : UInt8) (hi : i < 4) (j : Fin 4) :
    (SnapshotArrays.mk (arrays.assertionSnapshots.set i snapshot) (arrays.snapshotLens.set i len)).snapshots j =
      if j.val = i then snapshot.toList.take len.toNat else arrays.snapshots j := by
  by_cases hj : j.val = i
  · subst hj
    simp [SnapshotArrays.snapshots]
  · simp [SnapshotArrays.snapshots, hj, Ne.symm hj]

theorem getD_concat (done : List (List UInt8)) (bytes : List UInt8) (j : Nat) :
    ((done ++ [bytes])[j]?).getD [] = if j = done.length then bytes else (done[j]?).getD [] := by
  rcases Nat.lt_trichotomy j done.length with hj | hj | hj
  · rw [List.getElem?_append_left hj, if_neg (Nat.ne_of_lt hj)]
  · rw [hj, List.getElem?_concat_length, if_pos rfl]
    rfl
  · rw [List.getElem?_eq_none (Nat.le_of_lt hj), List.getElem?_eq_none (by simpa using hj), if_neg (Nat.ne_of_gt hj)]

theorem evalCaptureEntry_follows {done : List (List UInt8)} (hset : PackedSet entries assertions)
    (hentry : entries[i]? = some entry) (hvalid : entry.Valid) (hi : done.length = i) (hlt : i < 4)
    (hdone : ∀ j : Fin 4, arrays.snapshots j = (done[j.val]?).getD []) :
    Follows (fun arrays' bytes => ∀ j : Fin 4, arrays'.snapshots j = ((done ++ [bytes])[j.val]?).getD [])
      (evalCaptureEntry ctx remaining assertions i arrays) (snapshotEntry ctx remaining entry) := by
  obtain ⟨zc, hzc, hpacked⟩ := hset.entry i entry hentry
  unfold evalCaptureEntry snapshotEntry
  refine Follows.bind_left (indexAt_eq_ok.mpr hzc) ?_
  have hmode : zc.assertionMode = 0 ↔ entry.assertionMode = 0 := by
    rw [← hpacked.assertionMode, ← UInt8.toNat_inj]
    rfl
  by_cases hzero : entry.assertionMode = 0
  · rw [if_pos (hmode.mpr hzero), if_pos hzero]
    refine follows_pure fun j => (hdone j).trans ?_
    rw [getD_concat]
    split
    · rename_i hj
      rw [hj, List.getElem?_eq_none (Nat.le_refl _)]
      rfl
    · rfl
  · rw [if_neg (mt hmode.mp hzero), if_neg hzero]
    refine (evalTarget_follows hpacked _).map_left ?_
    rintro bytes _ hread rfl
    have hlength : bytes.length = entry.valueLen := by
      obtain ⟨-, hlong, rfl⟩ := readTarget_eq_ok.mp hread
      exact fieldBytes_length hlong
    obtain ⟨snapshot, hcopy, hsnapshot⟩ := exists_copyFromSlice (ε := ProgramError) arrays.assertionSnapshots[i]
      (by rw [hpacked.valueLen]; exact hvalid.len_le) (hlength.trans hpacked.valueLen.symm)
    have hindex :
        indexAt (ε := ProgramError) arrays.assertionSnapshots.toList i = .ok arrays.assertionSnapshots[i] := by
      rw [indexAt_eq_ok]
      simp [hlt]
    refine ⟨_, bind_eq_ok.mpr ⟨_, hindex, bind_eq_ok.mpr ⟨snapshot, hcopy, bind_eq_ok.mpr
      ⟨_, assignAt_eq hlt, bind_eq_ok.mpr ⟨_, assignAt_eq hlt, rfl⟩⟩⟩⟩, fun j => ?_⟩
    rw [SnapshotArrays.snapshots_set snapshot zc.valueLen hlt, getD_concat, hi, hdone j, hsnapshot, hpacked.valueLen,
      ← hlength, List.take_left]

theorem evalCapture_follows (hset : PackedSet entries assertions)
    (hvalid : PostExecutionAssertions.validateEntries entries = .ok ()) :
    Follows (fun arrays bytes => arrays.snapshots = fun i : Fin 4 => (bytes[i.val]?).getD [])
      (evalCapture ctx remaining assertions) (entries.mapM (snapshotEntry ctx remaining)) := by
  obtain ⟨⟨-, hlength⟩, hentries⟩ := PostExecutionAssertions.validateEntries_ok hvalid
  rw [evalCapture, hset.count]
  refine Follows.mono (follows_forRange (P := fun arrays bytes => ∀ j : Fin 4,
    arrays.snapshots j = (bytes[j.val]?).getD []) (fun i entry arrays done hentry hi hdone => ?_) ?_)
    fun _ _ h => funext h
  · obtain ⟨hlt, -⟩ := List.getElem?_eq_some_iff.mp hentry
    exact evalCaptureEntry_follows hset hentry (hentries entry (List.mem_of_getElem? hentry)) hi
      (hlt.trans_le hlength) hdone
  · intro j
    simp [SnapshotArrays.snapshots]

/-! ## Evaluation -/

theorem evalU64_eq {bytes : List UInt8} {len : Nat} (hlen : len ≤ 8) (hbytes : bytes.length = len) :
    evalU64 len bytes = .ok (leValue bytes) := by
  obtain ⟨buffer, hcopy, hbuffer⟩ :=
    exists_copyFromSlice (ε := ProgramError) (Vector.replicate 8 (0 : UInt8)) hlen hbytes
  rw [evalU64, hcopy]
  show Except.ok (leValue buffer.toList) = _
  rw [hbuffer, Vector.toList_replicate, List.drop_replicate, leValue_append_zeros]

theorem leValue_lt_u64 {bytes : List UInt8} (h : bytes.length ≤ 8) : leValue bytes < 2 ^ 64 :=
  (leValue_lt bytes).trans_le (Nat.pow_le_pow_right (by decide) h)

/-- Numbers of 64 and 32 bits do not overflow 128 bits. -/
theorem checkedMul_128 {x y : Nat} (hx : x < 2 ^ 64) (hy : y < 2 ^ 32) :
    checkedMul 128 x y = some (x * y) ∧ checkedMul 128 y x = some (y * x) := by
  have hmul : x * y < 2 ^ 64 * 2 ^ 32 := Nat.mul_lt_mul'' hx hy
  have hmax : x * y ≤ uMax 128 := (Nat.le_of_lt hmul).trans (by decide)
  exact ⟨checkedMul_eq_some.mpr ⟨hmax, rfl⟩, checkedMul_eq_some.mpr ⟨Nat.mul_comm x y ▸ hmax, rfl⟩⟩

theorem evalCrossField_follows {data actual : List UInt8} (hpacked : Packed entry zc) (hlen : entry.valueLen ≤ 8)
    (hactual : actual.length = entry.valueLen) :
    Follows (fun _ _ => True) (evalCrossField data actual zc) (checkCrossField data actual entry) := by
  have hmultiplier : entry.crossFieldMultiplierBps < 2 ^ 32 := by
    have hlt := leValue_lt zc.crossFieldMultiplierBps.toList
    rwa [hpacked.crossFieldMultiplierBps, Vector.length_toList] at hlt
  have hoffset : entry.crossFieldOffsetB < 2 ^ 16 := by
    have hlt := leValue_lt zc.crossFieldOffsetB.toList
    rwa [hpacked.crossFieldOffsetB, Vector.length_toList] at hlt
  have hadd : checkedAdd 64 entry.crossFieldOffsetB entry.valueLen = some (entry.crossFieldOffsetB + entry.valueLen) :=
    checkedAdd_eq_some.mpr ⟨by simp only [uMax]; omega, rfl⟩
  unfold evalCrossField checkCrossField
  rw [hpacked.valueLen, hpacked.crossFieldOffsetB, hpacked.crossFieldMultiplierBps]
  dsimp only
  rw [hadd]
  refine Follows.bind_left rfl (follows_require Iff.rfl fun hlong => ?_)
  have hfieldB : (fieldBytes data entry.crossFieldOffsetB entry.valueLen).length = entry.valueLen :=
    fieldBytes_length hlong
  rw [slice_eq (Nat.le_add_right ..) hlong, Nat.add_sub_cancel_left, ← fieldBytes, leNat_eq, leNat_eq]
  refine Follows.bind_left rfl (Follows.bind_left (evalU64_eq hlen hactual)
    (Follows.bind_left (evalU64_eq hlen hfieldB) ?_))
  by_cases hzero : leValue (fieldBytes data entry.crossFieldOffsetB entry.valueLen) = 0
  · rw [if_pos hzero, if_pos hzero]
    exact follows_require_last Iff.rfl
  · rw [if_neg hzero, if_neg hzero, (checkedMul_128 (leValue_lt_u64 (hactual.trans_le hlen)) (by decide)).1,
      (checkedMul_128 (leValue_lt_u64 (hfieldB.trans_le hlen)) hmultiplier).2]
    exact Follows.bind_left rfl (Follows.bind_left rfl (follows_require_last Iff.rfl))

theorem evalSnapshot_follows (hpacked : Packed entry zc) (hlen : entry.valueLen ≤ 8) (i : Fin 4) :
    Follows (fun snapshot _ => snapshot = arrays.snapshots i ∧ snapshot.length = entry.valueLen)
      (evalSnapshot arrays zc i.val)
      (require ((arrays.snapshots i).length = entry.valueLen) (SigilError.snapshotNotCaptured : ProgramError)) := by
  have hlens : arrays.snapshotLens.toList[i.val]? = some arrays.snapshotLens[i] := by simp
  have hbytes : arrays.assertionSnapshots.toList[i.val]? = some arrays.assertionSnapshots[i] := by simp
  have htaken : arrays.snapshotLens[i] = zc.valueLen ↔ (arrays.snapshots i).length = entry.valueLen := by
    rw [SnapshotArrays.snapshots, List.length_take, Vector.length_toList, ← UInt8.toNat_inj, hpacked.valueLen]
    omega
  have hslice : slice (ε := ProgramError) arrays.assertionSnapshots[i].toList 0 zc.valueLen.toNat = .ok _ :=
    slice_eq (Nat.zero_le _) (by rw [hpacked.valueLen, Vector.length_toList]; omega)
  unfold evalSnapshot
  rw [← bind_pure (require _ (SigilError.snapshotNotCaptured : ProgramError))]
  refine Follows.bind_left (indexAt_eq_ok.mpr hlens) (follows_require htaken fun hlength =>
    Follows.bind_left (indexAt_eq_ok.mpr hbytes) ?_)
  have hsnapshot : (arrays.assertionSnapshots[i].toList.drop 0).take (zc.valueLen.toNat - 0) = arrays.snapshots i := by
    rw [List.drop_zero, Nat.sub_zero, SnapshotArrays.snapshots, htaken.mpr hlength]
  rw [hslice, hsnapshot]
  exact follows_pure ⟨rfl, hlength⟩

theorem evalDelta_follows {actual : List UInt8} (hpacked : Packed entry zc) (hvalid : entry.Valid)
    (hlen : entry.valueLen ≤ 8) (hactual : actual.length = entry.valueLen) (i : Fin 4) :
    Follows (fun values _ => values = (leNat (arrays.snapshots i), leNat actual,
        leNat (entry.expectedValue.take entry.valueLen)))
      (evalDelta arrays zc i.val actual)
      (require ((arrays.snapshots i).length = entry.valueLen) (SigilError.snapshotNotCaptured : ProgramError)) := by
  have hexpected : (entry.expectedValue.take entry.valueLen).length = entry.valueLen := by simpa using hvalid.expects
  have hslice : slice (ε := ProgramError) zc.expectedValue.toList 0 entry.valueLen =
      .ok (entry.expectedValue.take entry.valueLen) := by
    rw [slice_eq (Nat.zero_le _) (by rw [Vector.length_toList]; exact hvalid.len_le), List.drop_zero, Nat.sub_zero,
      hpacked.expectedValue]
  unfold evalDelta
  rw [hpacked.valueLen]
  refine (evalSnapshot_follows hpacked hlen i).map_left ?_
  rintro snapshot _ - ⟨rfl, hlength⟩
  refine ⟨_, bind_eq_ok.mpr ⟨_, hslice, bind_eq_ok.mpr ⟨_, evalU64_eq hlen hlength, bind_eq_ok.mpr
    ⟨_, evalU64_eq hlen hactual, bind_eq_ok.mpr ⟨_, evalU64_eq hlen hexpected, rfl⟩⟩⟩⟩, ?_⟩
  rw [leNat_eq, leNat_eq, leNat_eq]

theorem evalEntry_follows (hset : PackedSet entries assertions) {i : Fin 4} (hentry : entries[i.val]? = some entry)
    (hvalid : entry.Valid) :
    Follows (fun _ _ => True) (evalEntry ctx remaining assertions arrays i.val)
      (checkAssertion ctx remaining entry (arrays.snapshots i)) := by
  obtain ⟨zc, hzc, hpacked⟩ := hset.entry i.val entry hentry
  unfold evalEntry checkAssertion
  refine Follows.bind_left (indexAt_eq_ok.mpr hzc) ((evalTarget_follows hpacked _).bind ?_)
  rintro actual _ hread rfl
  have hactual : actual.length = entry.valueLen := by
    obtain ⟨-, hlong, rfl⟩ := readTarget_eq_ok.mp hread
    exact fieldBytes_length hlong
  rw [hpacked.assertionMode]
  refine follows_okOr fun mode hmode => ?_
  cases mode with
  | absolute =>
      have hslice : slice (ε := ProgramError) zc.expectedValue.toList 0 zc.valueLen.toNat =
          .ok (entry.expectedValue.take entry.valueLen) := by
        rw [hpacked.valueLen, slice_eq (Nat.zero_le _) (by rw [Vector.length_toList]; exact hvalid.len_le),
          List.drop_zero, Nat.sub_zero, hpacked.expectedValue]
      rw [hpacked.operator]
      refine Follows.bind_left hslice (follows_okOr fun operator _ => ?_)
      have hflag : zc.crossFieldFlags &&& 0x01 ≠ 0 ↔ entry.crossFieldFlags % 2 = 1 := by
        have hone : (zc.crossFieldFlags &&& 0x01).toNat = zc.crossFieldFlags.toNat % 2 := Nat.and_one_is_mod _
        rw [← hpacked.crossFieldFlags, ← hone, ne_eq, ← UInt8.toNat_inj, hone]
        exact Nat.mod_two_ne_zero
      by_cases hcross : entry.crossFieldFlags % 2 = 1
      · rw [if_pos (hflag.mpr hcross), if_pos hcross, hpacked.targetAccount]
        exact evalCrossField_follows hpacked (hvalid.cross hcross).1 hactual
      · rw [if_neg (mt hflag.mp hcross), if_neg hcross]
        exact Follows.bind_left (evalBytesMatch_eq ..) (follows_require_last Iff.rfl)
  | maxDecrease =>
      have hlen : entry.valueLen ≤ 8 := hvalid.delta fun hzero => by rw [hzero] at hmode; cases hmode
      refine (evalDelta_follows hpacked hvalid hlen hactual i).bind ?_
      rintro _ _ - rfl
      exact follows_require_last Iff.rfl
  | maxIncrease =>
      have hlen : entry.valueLen ≤ 8 := hvalid.delta fun hzero => by rw [hzero] at hmode; cases hmode
      refine (evalDelta_follows hpacked hvalid hlen hactual i).bind ?_
      rintro _ _ - rfl
      exact follows_require_last Iff.rfl
  | noChange =>
      have hlen : entry.valueLen ≤ 8 := hvalid.delta fun hzero => by rw [hzero] at hmode; cases hmode
      refine (evalSnapshot_follows hpacked hlen i).bind ?_
      rintro _ _ - ⟨rfl, -⟩
      exact follows_require_last Iff.rfl

/-- The stage does what its entries say, and does not panic. -/
theorem evalAssertions_follows (hset : PackedSet entries assertions)
    (hvalid : PostExecutionAssertions.validateEntries entries = .ok ()) :
    Follows (fun _ _ => True) (evalAssertions ctx remaining assertions arrays)
      (checkAssertionList ctx remaining arrays.snapshots entries 0) := by
  obtain ⟨⟨-, hlength⟩, hentries⟩ := PostExecutionAssertions.validateEntries_ok hvalid
  rw [evalAssertions, hset.count]
  suffices ∀ (rest : List PostAssertionEntry) (i : Nat), entries.drop i = rest →
      Follows (fun _ _ => True) (forRange (fun i _ => evalEntry ctx remaining assertions arrays i) rest.length i ())
        (checkAssertionList ctx remaining arrays.snapshots rest i) from this entries 0 rfl
  intro rest
  induction rest with
  | nil => exact fun _ _ => follows_pure trivial
  | cons entry rest ih =>
      intro i hrest
      have hentry : entries[i]? = some entry := by
        rw [← List.head?_drop, hrest]
        rfl
      obtain ⟨hi, -⟩ := List.getElem?_eq_some_iff.mp hentry
      have hlt : i < 4 := hi.trans_le hlength
      rw [checkAssertionList, dif_pos hlt]
      refine (evalEntry_follows (i := ⟨i, hlt⟩) hset hentry (hentries entry (List.mem_of_getElem? hentry))).bind ?_
      exact fun _ _ _ _ => ih (i + 1) (by rw [← List.tail_drop, hrest]; rfl)

end

end Sigil
