import Sigil.Library.Skip
import Sigil.Instructions.Jupiter
import Sigil.Lemmas.Bytes

/-!
# The parser of Jupiter instructions

On a slice it does what it does on a list, and it skips exactly the encoded fields.
-/

namespace Sigil

open Library

/-! ## Nothing is out of range -/

section
variable {data : List UInt8} {cursor n : Nat}

theorem advance_eq (h : cursor + n < 2 ^ 64) : advance cursor n = .ok (cursor + n) := by
  have hadd : checkedAdd 64 cursor n = some (cursor + n) := checkedAdd_eq_some.mpr ⟨by simp only [uMax]; omega, rfl⟩
  rw [advance, hadd]
  rfl

theorem addUsize_eq (h : cursor + n < 2 ^ 64) : addUsize cursor n = .ok (cursor + n) := by
  have hadd : checkedAdd 64 cursor n = some (cursor + n) := checkedAdd_eq_some.mpr ⟨by simp only [uMax]; omega, rfl⟩
  rw [addUsize, hadd]
  rfl

theorem fromLeBytes_eq {bytes : List UInt8} (h : bytes.length = n) : fromLeBytes n bytes = .ok (leValue bytes) := by
  rw [fromLeBytes, require, if_pos h]
  rfl

theorem readLe_eq_ok {value : Nat} : readLe data cursor n = .ok value ↔
    cursor + n ≤ data.length ∧ leValue ((data.drop cursor).take n) = value := by
  rw [readLe, require_bind_eq_ok, pure_eq_ok, leNat_eq]

theorem readLe_byte_eq_ok {value : Nat} :
    readLe data cursor 1 = .ok value ↔ ∃ byte, data[cursor]? = some byte ∧ byte.toNat = value := by
  rw [readLe_eq_ok]
  constructor
  · rintro ⟨hlt, rfl⟩
    refine ⟨data[cursor], List.getElem?_eq_getElem hlt, ?_⟩
    rw [List.drop_eq_getElem_cons hlt, List.take_succ_cons, List.take_zero, leValue_cons, leValue_nil]
    rfl
  · rintro ⟨byte, hbyte, rfl⟩
    obtain ⟨hlt, rfl⟩ := List.getElem?_eq_some_iff.mp hbyte
    refine ⟨hlt, ?_⟩
    rw [List.drop_eq_getElem_cons hlt, List.take_succ_cons, List.take_zero, leValue_cons, leValue_nil]
    rfl

theorem swapVariantSizes_le {variant : Nat} {size : Int} (h : swapVariantSizes[variant]? = some size) : size ≤ 48 := by
  have hall : ∀ size ∈ swapVariantSizes, size ≤ 48 := by decide +kernel
  exact hall size (List.mem_of_getElem? h)

theorem evalVecLen_follows (hcursor : cursor < 2 ^ 63) :
    Follows (fun counted vecLen => counted = (vecLen, cursor + 4) ∧ cursor + 4 ≤ data.length ∧ vecLen < 2 ^ 32)
      (evalVecLen data cursor) (readLe data cursor 4) := by
  unfold evalVecLen readLe
  refine Follows.bind_left (advance_eq (by omega)) (follows_require Iff.rfl fun hstop => ?_)
  have hlength : ((data.drop cursor).take 4).length = 4 := by
    rw [List.length_take, List.length_drop]
    omega
  refine Follows.bind_left (slice_eq (Nat.le_add_right ..) hstop) ?_
  rw [Nat.add_sub_cancel_left]
  refine Follows.bind_left (fromLeBytes_eq hlength) (follows_pure ?_)
  rw [leNat_eq]
  exact ⟨rfl, hstop, (leValue_lt _).trans_eq (by rw [hlength]; rfl)⟩

theorem evalSkipRemaining_follows (hdata : data.length < 2 ^ 63) (hcursor : cursor < 2 ^ 63) :
    Follows (fun next next' => next = next' ∧ next ≤ data.length) (evalSkipRemaining data cursor)
      (skipRemainingAccountsInfo data cursor) := by
  unfold evalSkipRemaining skipRemainingAccountsInfo
  apply (evalVecLen_follows hcursor).bind
  rintro _ vecLen - ⟨rfl, hstop, hvecLen⟩
  have hmul : checkedMul 64 vecLen 2 = some (vecLen * 2) := checkedMul_eq_some.mpr ⟨by simp only [uMax]; omega, rfl⟩
  dsimp only
  rw [hmul]
  refine Follows.bind_left rfl (Follows.bind_left (advance_eq (by omega)) ?_)
  exact follows_require Iff.rfl fun hnext => follows_pure ⟨rfl, hnext⟩

theorem evalSkipOption_follows (hdata : data.length < 2 ^ 63) :
    Follows (fun next next' => next = next' ∧ next ≤ data.length) (evalSkipOption data cursor)
      (skipOptionRemainingAccountsInfo data cursor) := by
  unfold evalSkipOption skipOptionRemainingAccountsInfo
  by_cases hlt : cursor < data.length
  · have htag : readLe data cursor 1 = .ok data[cursor].toNat :=
      readLe_byte_eq_ok.mpr ⟨_, List.getElem?_eq_getElem hlt, rfl⟩
    have htagOne : data[cursor] = 1 ↔ data[cursor].toNat = 1 := UInt8.toNat_inj.symm
    have htagZero : data[cursor] = 0 ↔ data[cursor].toNat = 0 := UInt8.toNat_inj.symm
    rw [htag]
    refine Follows.passed hlt (Follows.bind_left
      (indexAt_eq_ok.mpr (List.getElem?_eq_getElem hlt)) (Follows.bind_left (advance_eq (by omega)) ?_))
    show Follows _ _ (if _ then _ else _)
    by_cases hone : data[cursor] = 1
    · rw [if_pos hone, if_pos (htagOne.mp hone)]
      exact evalSkipRemaining_follows hdata (by omega)
    · rw [if_neg hone, if_neg (mt htagOne.mpr hone)]
      exact follows_require htagZero fun _ => follows_pure ⟨rfl, hlt⟩
  · have hstop : ¬ cursor + 1 ≤ data.length := hlt
    rw [readLe, require, require, if_neg hstop]
    exact Follows.failed hlt

theorem evalSkipVariable_follows {variant : Nat} (hdata : data.length < 2 ^ 63) (hcursor : cursor ≤ data.length) :
    Follows (fun next next' => next = next' ∧ next ≤ data.length) (evalSkipVariable data cursor variant)
      (skipVariableSwapFields data cursor variant) := by
  unfold evalSkipVariable skipVariableSwapFields
  split
  · exact Follows.bind_left (advance_eq (by omega)) (evalSkipOption_follows hdata)
  · split
    · exact evalSkipRemaining_follows hdata (by omega)
    · exact rfl

theorem evalRouteStep_follows (hdata : data.length < 2 ^ 63) :
    Follows (fun next next' => next = next' ∧ next ≤ data.length + 64) (evalRouteStep data cursor)
      (skipRouteStep data cursor) := by
  unfold evalRouteStep skipRouteStep
  by_cases hlt : cursor < data.length
  · have hvariant : readLe data cursor 1 = .ok data[cursor].toNat :=
      readLe_byte_eq_ok.mpr ⟨_, List.getElem?_eq_getElem hlt, rfl⟩
    rw [hvariant]
    refine Follows.passed hlt (Follows.bind_left
      (indexAt_eq_ok.mpr (List.getElem?_eq_getElem hlt)) (Follows.bind_left (advance_eq (by omega)) ?_))
    show Follows _ _ (okOr _ _ >>= _)
    have hmax : ∀ size, swapVariantSizes[data[cursor].toNat]? = some size → size ≤ 48 := fun _ => swapVariantSizes_le
    generalize swapVariantSizes = sizes at hmax ⊢
    cases hsize : sizes[data[cursor].toNat]? with
    | none =>
        exact Follows.failed (Nat.not_lt.mpr (List.getElem?_eq_none_iff.mp hsize))
    | some size =>
        obtain ⟨hknown, -⟩ := List.getElem?_eq_some_iff.mp hsize
        have hmax := hmax size hsize
        refine Follows.passed hknown (Follows.bind_left (indexAt_eq_ok.mpr hsize) ?_)
        show Follows _ _ (if _ then _ else _)
        unfold evalSkipFields
        by_cases hfixed : size ≥ 0
        · rw [if_pos hfixed, if_pos hfixed]
          refine Follows.bind_left (advance_eq (by omega)) ?_
          rw [advance_eq (by omega)]
          exact follows_pure ⟨rfl, by omega⟩
        · rw [if_neg hfixed, if_neg hfixed]
          by_cases hvariable : size = -1
          · rw [if_pos hvariable, if_pos hvariable]
            apply (evalSkipVariable_follows hdata (by omega)).bind
            rintro next _ - ⟨rfl, hnext⟩
            rw [advance_eq (by omega)]
            exact follows_pure ⟨rfl, by omega⟩
          · rw [if_neg hvariable, if_neg hvariable]
            exact rfl
  · have hstop : ¬ cursor + 1 ≤ data.length := hlt
    rw [readLe, require, require, if_neg hstop]
    exact Follows.failed hlt

theorem evalRouteSteps_follows (hdata : data.length < 2 ^ 63) (i : Nat) (hcursor : cursor ≤ data.length + 64) :
    Follows (fun next next' => next = next' ∧ next ≤ data.length + 64)
      (forRange (fun _ cursor => evalRouteStep data cursor) n i cursor) (skipRouteSteps data n cursor) := by
  induction n generalizing cursor i with
  | zero => exact follows_pure ⟨rfl, hcursor⟩
  | succ n ih =>
      apply (evalRouteStep_follows hdata).bind
      rintro next _ - ⟨rfl, hnext⟩
      exact ih (i + 1) hnext

theorem evalQuotedOut_eq (hdata : data.length < 2 ^ 63) (hlength : data.length = cursor + v1SuffixSize) :
    Follows Eq (evalQuotedOut data cursor) (readLe data (cursor + 8) 8) := by
  simp only [v1SuffixSize] at hlength
  unfold evalQuotedOut
  have hread : readLe data (cursor + 8) 8 = .ok (leValue ((data.drop (cursor + 8)).take 8)) :=
    readLe_eq_ok.mpr ⟨by omega, rfl⟩
  have hbytes : ((data.drop (cursor + 8)).take 8).length = 8 := by
    rw [List.length_take, List.length_drop]
    omega
  have hwidth : cursor + 16 - (cursor + 8) = 8 := by omega
  rw [hread]
  refine Follows.bind_left (addUsize_eq (by omega)) (Follows.bind_left (addUsize_eq (by omega))
    (Follows.bind_left (slice_eq (by omega) (by omega)) ?_))
  rw [hwidth, fromLeBytes_eq hbytes]
  exact rfl

theorem evalSlippageBps_eq (hdata : data.length < 2 ^ 63) (hlength : data.length = cursor + v1SuffixSize) :
    Follows Eq (evalSlippageBps data cursor) (readLe data (cursor + 16) 2) := by
  simp only [v1SuffixSize] at hlength
  unfold evalSlippageBps
  have hlow : cursor + 16 < data.length := by omega
  have hhigh : cursor + 17 < data.length := by omega
  have hread : readLe data (cursor + 16) 2 = .ok (leValue [data[cursor + 16], data[cursor + 17]]) := by
    refine readLe_eq_ok.mpr ⟨hhigh, ?_⟩
    rw [List.drop_eq_getElem_cons hlow, List.drop_eq_getElem_cons hhigh]
    rfl
  rw [hread]
  refine Follows.bind_left (addUsize_eq (by omega)) (Follows.bind_left
    (indexAt_eq_ok.mpr (List.getElem?_eq_getElem hlow)) (Follows.bind_left (addUsize_eq (by omega))
    (Follows.bind_left (indexAt_eq_ok.mpr (List.getElem?_eq_getElem hhigh)) ?_)))
  exact rfl

/-- On a slice the parser does what it does on a list. -/
theorem evalJupiterSlippage_follows (slice : ByteSlice) (maxSlippageBps : Nat) :
    Follows (fun _ _ => True) (evalJupiterSlippage slice.val maxSlippageBps)
      (verifyJupiterSlippage slice.val maxSlippageBps) := by
  obtain ⟨data, hdata⟩ := slice
  unfold evalJupiterSlippage verifyJupiterSlippage
  refine follows_require Iff.rfl fun hlong => Follows.bind_left
    (slice_eq (Nat.zero_le 8) ((by decide : 8 ≤ 24).trans hlong)) ?_
  dsimp only [List.drop_zero, Nat.sub_zero]
  refine follows_require Iff.rfl fun _ => ?_
  apply (evalVecLen_follows (by split <;> omega)).bind
  rintro _ vecLen - ⟨rfl, hstop, -⟩
  refine follows_require Iff.rfl fun _ => ?_
  apply (evalRouteSteps_follows hdata 0 (by omega)).bind
  rintro cursor _ - ⟨rfl, hcursor⟩
  refine Follows.bind_left (advance_eq (by simp only [v1SuffixSize]; omega))
    (follows_require Iff.rfl fun hlength => ?_)
  apply (evalQuotedOut_eq hdata hlength).bind
  rintro quotedOut _ - rfl
  apply (evalSlippageBps_eq hdata hlength).bind
  rintro slippageBps _ - rfl
  exact follows_require Iff.rfl fun _ => follows_require_last Iff.rfl

end

/-! ## What is skipped -/

/-- `Option<RemainingAccountsInfo>`. -/
def OptionalInfo (field : List UInt8) : Prop := field = [0] ∨ ∃ info : RemainingAccountsInfo, field = 1 :: info.encode

/-- The variants whose fields have no fixed length. -/
def VariableFields (variant : Nat) (fields : List UInt8) : Prop :=
  if variant = 47 ∨ variant = 103 then Concat (fun flag => flag.length = 1) OptionalInfo fields
  else variant = 75 ∧ ∃ info : RemainingAccountsInfo, fields = info.encode

section
variable {variant n : Nat} {fields bytes : List UInt8} {size : Int}

theorem leBytes_leValue (h : bytes.length = n) : (leBytes n (leValue bytes)).toList = bytes := by
  subst h
  rw [← leValue_inj (by simp), leValue_leBytes (leValue_lt bytes)]

theorem readLe_append (before after : List UInt8) (h : bytes.length = n) :
    readLe (before ++ (bytes ++ after)) before.length n = .ok (leValue bytes) := by
  subst h
  apply readLe_eq_ok.mpr
  simp

/-- Slices are pairs of bytes. -/
theorem exists_slices (h : bytes.length = n * 2) :
    ∃ slices : List (UInt8 × UInt8), slices.length = n ∧ bytes = slices.flatMap fun s => [s.1, s.2] := by
  induction n generalizing bytes with
  | zero => exact ⟨[], rfl, List.length_eq_zero_iff.mp (by simpa using h)⟩
  | succ n ih =>
      match bytes, h with
      | a :: b :: rest, h =>
          have hrest : rest.length = n * 2 := by
            simp only [List.length_cons] at h
            omega
          obtain ⟨slices, hlength, hrest⟩ := ih hrest
          exact ⟨(a, b) :: slices, by rw [List.length_cons, hlength], by rw [hrest]; rfl⟩
      | [_], h => simp only [List.length_singleton] at h; omega
      | [], h => simp only [List.length_nil] at h; omega

theorem slices_length (slices : List (UInt8 × UInt8)) :
    (slices.flatMap fun s => [s.1, s.2]).length = slices.length * 2 := by
  induction slices with
  | nil => rfl
  | cons s slices ih =>
      rw [List.flatMap_cons, List.length_append, ih, List.length_cons, List.length_cons, List.length_cons]
      simp only [List.length_nil]
      omega

theorem skipRemaining_skips :
    Skips skipRemainingAccountsInfo (fun field => ∃ info : RemainingAccountsInfo, field = info.encode) where
  sound data cursor next h := by
    obtain ⟨vecLen, hread, h⟩ := bind_eq_ok.mp h
    obtain ⟨hnext, h⟩ := require_bind_eq_ok.mp h
    obtain rfl := pure_eq_ok.mp h
    obtain ⟨hstop, hvecLen⟩ := readLe_eq_ok.mp hread
    have hlength : ((data.drop cursor).take 4).length = 4 := by
      rw [List.length_take, List.length_drop]
      omega
    have hlt : vecLen < 2 ^ 32 := hvecLen ▸ (leValue_lt _).trans_eq (by rw [hlength]; rfl)
    refine ⟨by omega, fun _ => ?_⟩
    obtain ⟨slices, hcount, hslices⟩ :
        ∃ slices : List (UInt8 × UInt8), slices.length = vecLen ∧
          (data.drop (cursor + 4)).take (vecLen * 2) = slices.flatMap fun s => [s.1, s.2] := by
      apply exists_slices
      rw [List.length_take, List.length_drop]
      omega
    refine ⟨⟨slices, hcount ▸ hlt⟩, ?_⟩
    show _ = (leBytes 4 slices.length).toList ++ slices.flatMap fun s => [s.1, s.2]
    rw [take_drop_split data (Nat.le_add_right cursor 4) (Nat.le_add_right _ _), Nat.add_sub_cancel_left,
      Nat.add_sub_cancel_left, hslices, hcount, ← hvecLen, leBytes_leValue hlength]
  complete before field after h := by
    obtain ⟨info, rfl⟩ := h
    have hread := readLe_append before ((info.slices.flatMap fun s => [s.1, s.2]) ++ after)
      (leBytes 4 info.slices.length).length_toList
    rw [leValue_leBytes info.countable] at hread
    have hlength : info.encode.length = 4 + info.slices.length * 2 := by
      rw [RemainingAccountsInfo.encode, List.length_append, Vector.length_toList, slices_length]
    rw [RemainingAccountsInfo.encode, List.append_assoc, skipRemainingAccountsInfo, hread,
      ← List.append_assoc _ _ after, ← RemainingAccountsInfo.encode, hlength]
    apply require_bind_eq_ok.mpr
    refine ⟨?_, ?_⟩
    · simp only [List.length_append, hlength]
      omega
    · rw [pure_eq_ok]
      omega

theorem skipOption_skips : Skips skipOptionRemainingAccountsInfo OptionalInfo := by
  have hbody (tag : UInt8) : Skips (fun data cursor => if tag.toNat = 1 then skipRemainingAccountsInfo data cursor
        else do
          require (tag.toNat = 0) SigilError.invalidJupiterInstruction
          pure cursor)
      (fun rest => if tag = 1 then ∃ info : RemainingAccountsInfo, rest = info.encode else tag = 0 ∧ rest = []) := by
    have hone : tag.toNat = 1 ↔ tag = 1 := (UInt8.toNat_inj : tag.toNat = (1 : UInt8).toNat ↔ tag = 1)
    have hzero : tag.toNat = 0 ↔ tag = 0 := (UInt8.toNat_inj : tag.toNat = (0 : UInt8).toNat ↔ tag = 0)
    simp only [hone, hzero]
    split
    · exact skipRemaining_skips
    · exact skips_nothing.guarded _
  apply (Skips.headed (fun tag data cursor => if tag = 1 then skipRemainingAccountsInfo data cursor
    else do
      require (tag = 0) SigilError.invalidJupiterInstruction
      pure cursor) (fun _ _ _ => readLe_byte_eq_ok) hbody).congr
  intro field
  constructor
  · rintro ⟨tag, rest, rfl, h⟩
    split at h
    · subst tag
      obtain ⟨info, rfl⟩ := h
      exact .inr ⟨info, rfl⟩
    · obtain ⟨rfl, rfl⟩ := h
      exact .inl rfl
  · rintro (rfl | ⟨info, rfl⟩)
    · exact ⟨0, [], rfl, by simp⟩
    · exact ⟨1, info.encode, rfl, by simp⟩

theorem skipVariable_skips (variant : Nat) :
    Skips (fun data cursor => skipVariableSwapFields data cursor variant) (VariableFields variant) := by
  unfold skipVariableSwapFields VariableFields
  split
  · exact (skips_length 1).next skipOption_skips
  · split
    · exact skipRemaining_skips.congr (by simp [*])
    · exact skips_error.congr (by simp [*])

/-! ### The table of the variants -/

/-- The variants without a fixed length are marked in the table. -/
theorem variable_marked :
    swapVariantSizes[47]? = some (-1) ∧ swapVariantSizes[103]? = some (-1) ∧ swapVariantSizes[75]? = some (-1) := by
  decide +kernel

theorem swapFields_cases (h : SwapFields variant fields) :
    swapVariantSizes[variant]? = some (fields.length : Int) ∨
      swapVariantSizes[variant]? = some (-1) ∧ VariableFields variant fields := by
  obtain ⟨h47, h103, h75⟩ := variable_marked
  have hmarked {variant : Nat} (hvariant : variant = 47 ∨ variant = 103) : swapVariantSizes[variant]? = some (-1) := by
    rcases hvariant with rfl | rfl <;> assumption
  cases h with
  | fixed hsize hfields => exact .inl (hfields ▸ hsize)
  | absent hvariant flag =>
      refine .inr ⟨hmarked hvariant, ?_⟩
      rw [VariableFields, if_pos hvariant]
      exact ⟨[flag], [0], rfl, rfl, .inl rfl⟩
  | present hvariant flag info =>
      refine .inr ⟨hmarked hvariant, ?_⟩
      rw [VariableFields, if_pos hvariant]
      exact ⟨[flag], 1 :: info.encode, rfl, rfl, .inr ⟨info, rfl⟩⟩
  | remaining info =>
      refine .inr ⟨h75, ?_⟩
      rw [VariableFields, if_neg (by decide)]
      exact ⟨rfl, info, rfl⟩

theorem swapFields_of_variable (h : VariableFields variant fields) : SwapFields variant fields := by
  unfold VariableFields at h
  split at h
  · rename_i hvariant
    obtain ⟨flag, rest, rfl, hflag, hrest⟩ := h
    obtain ⟨flag, rfl⟩ := List.length_eq_one_iff.mp hflag
    rcases hrest with rfl | ⟨info, rfl⟩
    · exact .absent hvariant flag
    · exact .present hvariant flag info
  · obtain ⟨rfl, info, rfl⟩ := h
    exact .remaining info

theorem swapFields_iff_length (hsize : swapVariantSizes[variant]? = some size) (h : 0 ≤ size) :
    SwapFields variant fields ↔ fields.length = size.toNat := by
  constructor
  · intro hfields
    rcases swapFields_cases hfields with hlength | ⟨hmarked, -⟩
    · cases hsize.symm.trans hlength
      rfl
    · cases hsize.symm.trans hmarked
      omega
  · intro hlength
    refine .fixed ?_ hlength
    rw [hsize, Int.toNat_of_nonneg h]

theorem swapFields_iff_variable (hsize : swapVariantSizes[variant]? = some (-1)) :
    SwapFields variant fields ↔ VariableFields variant fields := by
  constructor
  · intro hfields
    rcases swapFields_cases hfields with hlength | ⟨-, hvariable⟩
    · have hneg := Option.some.inj (hsize.symm.trans hlength)
      omega
    · exact hvariable
  · exact swapFields_of_variable

theorem swapFields_supported (h : SwapFields variant fields) :
    ∃ size, swapVariantSizes[variant]? = some size ∧ (0 ≤ size ∨ size = -1) := by
  rcases swapFields_cases h with hlength | ⟨hmarked, -⟩
  · exact ⟨_, hlength, .inl (by omega)⟩
  · exact ⟨_, hmarked, .inr rfl⟩

/-! ### Steps of the route -/

/-- The rest of a step after its variant. -/
def skipStepBody (variant : Nat) (data : List UInt8) (cursor : Nat) : Result Nat := do
  let size ← okOr swapVariantSizes[variant]? SigilError.invalidJupiterInstruction
  if size ≥ 0 then
    pure (cursor + size.toNat + 3)
  else if size = -1 then do
    let next ← skipVariableSwapFields data cursor variant
    pure (next + 3)
  else
    .error SigilError.invalidJupiterInstruction

theorem skipStepBody_skips (variant : Nat) :
    Skips (skipStepBody variant) (Concat (SwapFields variant) (fun field => field.length = 3)) := by
  unfold skipStepBody
  cases hsize : swapVariantSizes[variant]? with
  | none =>
      refine skips_error.congr fun field => ⟨False.elim, ?_⟩
      rintro ⟨fields, _, -, hfields, -⟩
      obtain ⟨size, hsome, -⟩ := swapFields_supported hfields
      cases hsize.symm.trans hsome
  | some size =>
      show Skips (fun data cursor => if size ≥ 0 then pure (cursor + size.toNat + 3)
        else if size = -1 then skipVariableSwapFields data cursor variant >>= fun next => pure (next + 3)
        else .error SigilError.invalidJupiterInstruction) _
      split
      · rename_i hfixed
        have hfields : Skips (ε := ProgramError) (fun _ cursor => pure (cursor + size.toNat)) (SwapFields variant) :=
          (skips_length size.toNat).congr fun _ => (swapFields_iff_length hsize hfixed).symm
        exact hfields.next (skips_length 3)
      · split
        · rename_i hvariable
          subst hvariable
          have hfields : Skips (fun data cursor => skipVariableSwapFields data cursor variant) (SwapFields variant) :=
            (skipVariable_skips variant).congr fun _ => (swapFields_iff_variable hsize).symm
          exact hfields.next (skips_length 3)
        · rename_i hfixed hvariable
          refine skips_error.congr fun field => ⟨False.elim, ?_⟩
          rintro ⟨fields, _, -, hfields, -⟩
          obtain ⟨_, hsome, hsupported⟩ := swapFields_supported hfields
          cases hsize.symm.trans hsome
          exact hsupported.elim hfixed hvariable

theorem skipRouteStep_skips : Skips skipRouteStep (fun field => ∃ step : RoutePlanStep, field = step.encode) := by
  apply (Skips.headed skipStepBody (fun _ _ _ => readLe_byte_eq_ok) (fun variant =>
    skipStepBody_skips variant.toNat)).congr
  intro field
  constructor
  · rintro ⟨variant, _, rfl, fields, last, rfl, hfields, hlast⟩
    match last, hlast with
    | [percent, inputIndex, outputIndex], _ =>
        exact ⟨⟨variant, fields, percent, inputIndex, outputIndex, hfields⟩, rfl⟩
  · rintro ⟨step, rfl⟩
    exact ⟨step.variant, _, rfl, step.fields, _, rfl, step.supported, rfl⟩

theorem skipRouteSteps_eq (data : List UInt8) (n cursor : Nat) :
    skipRouteSteps data n cursor = skipTimes skipRouteStep data n cursor := by
  induction n generalizing cursor with
  | zero => rfl
  | succ n ih =>
      rw [skipRouteSteps, skipTimes]
      congr 1
      funext next
      exact ih next

theorem skipRouteSteps_skips (n : Nat) : Skips (fun data cursor => skipRouteSteps data n cursor)
    (fun field => ∃ steps : List RoutePlanStep, steps.length = n ∧ field = steps.flatMap RoutePlanStep.encode) := by
  simp only [skipRouteSteps_eq]
  apply (skipRouteStep_skips.times n).congr
  intro field
  constructor
  · rintro ⟨pieces, rfl, rfl, hpieces⟩
    induction pieces with
    | nil => exact ⟨[], rfl, rfl⟩
    | cons piece pieces ih =>
        obtain ⟨⟨step, rfl⟩, hrest⟩ := List.forall_mem_cons.mp hpieces
        obtain ⟨steps, hlength, hsteps⟩ := ih hrest
        exact ⟨step :: steps, by rw [List.length_cons, hlength, List.length_cons],
          by rw [List.flatten_cons, hsteps, List.flatMap_cons]⟩
  · rintro ⟨steps, rfl, rfl⟩
    refine ⟨steps.map RoutePlanStep.encode, List.length_map _, List.flatMap_def, ?_⟩
    simp only [List.mem_map, forall_exists_index, and_imp]
    rintro piece step - rfl
    exact ⟨step, rfl⟩

end

end Sigil
