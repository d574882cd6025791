import Sigil.Lemmas.Jupiter

/-!
# Jupiter instructions are parsed exactly

What passes is the encoding of an instruction of the first version with a quoted output and a slippage within the
limit, and every such encoding passes.
-/

namespace Sigil

open Library

section
variable {data : List UInt8} {n m : Nat}

def V1Method.disc : V1Method → List UInt8
  | .sharedAccountsRoute _ => sharedAccountsRouteDisc
  | .route => routeDisc
  | .exactOutRoute => exactOutRouteDisc
  | .sharedAccountsExactOutRoute _ => sharedAccountsExactOutRouteDisc

/-- A discriminator that the parser knows, and where it finds the length of the route. -/
def Discriminated (disc : List UInt8) (start : Nat) : Prop :=
  let hasId := disc = sharedAccountsRouteDisc ∨ disc = sharedAccountsExactOutRouteDisc
  (hasId ∨ disc = routeDisc ∨ disc = exactOutRouteDisc) ∧ start = if hasId then 9 else 8

theorem V1Method.discriminated (method : V1Method) : Discriminated method.disc method.encode.length := by
  cases method with
  | sharedAccountsRoute id => exact ⟨.inl (.inl rfl), rfl⟩
  | route => exact ⟨.inr (.inl rfl), rfl⟩
  | exactOutRoute => exact ⟨.inr (.inr rfl), rfl⟩
  | sharedAccountsExactOutRoute id => exact ⟨.inl (.inr rfl), rfl⟩

theorem V1Method.take_encode (method : V1Method) (rest : List UInt8) :
    (method.encode ++ rest).take 8 = method.disc := by
  cases method <;> rfl

theorem exists_method {start : Nat} (hlong : 8 < data.length) (h : Discriminated (data.take 8) start) :
    ∃ method : V1Method, method.encode = data.take start := by
  obtain ⟨hknown, rfl⟩ := h
  have hnine : data.take 9 = data.take 8 ++ [data[8]] := by
    rw [List.take_add_one, List.getElem?_eq_getElem hlong]
    rfl
  by_cases hid : data.take 8 = sharedAccountsRouteDisc ∨ data.take 8 = sharedAccountsExactOutRouteDisc
  · rw [if_pos hid, hnine]
    rcases hid with hdisc | hdisc
    · exact ⟨.sharedAccountsRoute data[8], by rw [hdisc]; rfl⟩
    · exact ⟨.sharedAccountsExactOutRoute data[8], by rw [hdisc]; rfl⟩
  · rw [if_neg hid]
    rcases hknown with hshared | hdisc | hdisc
    · exact absurd hshared hid
    · exact ⟨.route, hdisc.symm⟩
    · exact ⟨.exactOutRoute, hdisc.symm⟩

/-- The suffix as its four numbers. -/
theorem exists_suffix {suffix : List UInt8} (h : suffix.length = v1SuffixSize) :
    ∃ (inAmount quotedOut : UInt64) (slippageBps : UInt16) (platformFeeBps : UInt8),
      suffix = (leBytes 8 inAmount.toNat).toList ++ (leBytes 8 quotedOut.toNat).toList ++
        (leBytes 2 slippageBps.toNat).toList ++ [platformFeeBps] ∧
      quotedOut.toNat = leValue ((suffix.drop 8).take 8) ∧ slippageBps.toNat = leValue ((suffix.drop 16).take 2) := by
  simp only [v1SuffixSize] at h
  have hlength (start size : Nat) (hle : start + size ≤ 19) : ((suffix.drop start).take size).length = size := by
    rw [List.length_take, List.length_drop]
    omega
  have hlt (start size : Nat) (hle : start + size ≤ 19) : leValue ((suffix.drop start).take size) < 256 ^ size :=
    (leValue_lt _).trans_eq (by rw [hlength start size hle])
  have h64 (start : Nat) (hle : start + 8 ≤ 19) :
      (UInt64.ofNat (leValue ((suffix.drop start).take 8))).toNat = leValue ((suffix.drop start).take 8) :=
    UInt64.toNat_ofNat_of_lt' (hlt start 8 hle)
  have h16 : (UInt16.ofNat (leValue ((suffix.drop 16).take 2))).toNat = leValue ((suffix.drop 16).take 2) :=
    UInt16.toNat_ofNat_of_lt' (hlt 16 2 (by decide))
  obtain ⟨fee, hfee⟩ := List.length_eq_one_iff.mp (hlength 18 1 (by decide))
  refine ⟨.ofNat (leValue ((suffix.drop 0).take 8)), .ofNat (leValue ((suffix.drop 8).take 8)),
    .ofNat (leValue ((suffix.drop 16).take 2)), fee, ?_, h64 8 (by decide), h16⟩
  rw [h64 0 (by decide), h64 8 (by decide), h16, leBytes_leValue (hlength 0 8 (by decide)),
    leBytes_leValue (hlength 8 8 (by decide)), leBytes_leValue (hlength 16 2 (by decide)), ← hfee]
  have hall : suffix = (suffix.drop 0).take (19 - 0) := by rw [List.drop_zero, Nat.sub_zero, ← h, List.take_length]
  conv_lhs =>
    rw [hall, take_drop_split suffix (by decide : 0 ≤ 8) (by decide : 8 ≤ 19),
      take_drop_split suffix (by decide : 8 ≤ 16) (by decide : 16 ≤ 19),
      take_drop_split suffix (by decide : 16 ≤ 18) (by decide : 18 ≤ 19)]
  simp only [List.append_assoc, Nat.reduceSub]

theorem verifyJupiterSlippage_sound (h : verifyJupiterSlippage data m = .ok ()) :
    ∃ ix : V1Instruction, data = ix.encode ∧ 0 < ix.quotedOut.toNat ∧ ix.slippageBps.toNat ≤ m := by
  simp only [verifyJupiterSlippage, require_bind_eq_ok] at h
  obtain ⟨hlong, hknown, h⟩ := h
  obtain ⟨vecLen, hvecLen, h⟩ := bind_eq_ok.mp h
  obtain ⟨hbounded, h⟩ := require_bind_eq_ok.mp h
  obtain ⟨cursor, hsteps, h⟩ := bind_eq_ok.mp h
  obtain ⟨hlength, h⟩ := require_bind_eq_ok.mp h
  obtain ⟨quotedOut, hquoted, h⟩ := bind_eq_ok.mp h
  obtain ⟨slippageBps, hslippage, h⟩ := bind_eq_ok.mp h
  obtain ⟨hpos, h⟩ := require_bind_eq_ok.mp h
  have hle := require_eq_ok.mp h
  generalize hstart : (if data.take 8 = sharedAccountsRouteDisc ∨ data.take 8 = sharedAccountsExactOutRouteDisc then 9
    else 8) = start at hvecLen hsteps
  obtain ⟨method, hmethod⟩ := exists_method (by omega) ⟨hknown, hstart.symm⟩
  obtain ⟨hstop, hvalue⟩ := readLe_eq_ok.mp hvecLen
  have hcount : ((data.drop start).take 4).length = 4 := by
    rw [List.length_take, List.length_drop]
    omega
  obtain ⟨hcursor, hroute⟩ := (skipRouteSteps_skips vecLen).sound data (start + 4) cursor hsteps
  obtain ⟨steps, hstepCount, hencode⟩ := hroute (by omega)
  have hrest : (data.drop cursor).length = v1SuffixSize := by
    rw [List.length_drop, hlength, Nat.add_sub_cancel_left]
  obtain ⟨inAmount, out, bps, fee, hsuffix, hout, hbps⟩ := exists_suffix hrest
  rw [List.drop_drop, (readLe_eq_ok.mp hquoted).2] at hout
  rw [List.drop_drop, (readLe_eq_ok.mp hslippage).2] at hbps
  refine ⟨⟨method, steps, inAmount, out, bps, fee, hstepCount ▸ hbounded⟩, ?_, hout ▸ hpos, hbps ▸ hle⟩
  suffices data = method.encode ++ ((leBytes 4 steps.length).toList ++
      (steps.flatMap RoutePlanStep.encode ++ data.drop cursor)) by rwa [hsuffix] at this
  rw [hmethod, hstepCount, ← hvalue, leBytes_leValue hcount, ← hencode]
  calc data = data.take start ++ data.drop start := (List.take_append_drop start data).symm
    _ = data.take start ++ ((data.drop start).take 4 ++ data.drop (start + 4)) := by
      rw [← List.drop_drop, List.take_append_drop 4]
    _ = data.take start ++ ((data.drop start).take 4 ++
        ((data.drop (start + 4)).take (cursor - (start + 4)) ++ data.drop cursor)) := by
      congr 2
      have hdrop : data.drop cursor = (data.drop (start + 4)).drop (cursor - (start + 4)) := by
        rw [List.drop_drop, Nat.add_sub_cancel' hcursor]
      rw [hdrop, List.take_append_drop]

theorem V1Instruction.suffix_length (ix : V1Instruction) : ix.suffix.length = v1SuffixSize := by
  simp [V1Instruction.suffix, v1SuffixSize]

/-- A number behind other fields. -/
theorem readLe_behind (before a b c : List UInt8) (h : b.length = n) :
    readLe (before ++ (a ++ (b ++ c))) (before.length + a.length) n = .ok (leValue b) := by
  have hread := readLe_append (before ++ a) c h
  rwa [List.append_assoc, List.length_append] at hread

theorem V1Instruction.read_suffix (ix : V1Instruction) (before : List UInt8) :
    readLe (before ++ ix.suffix) (before.length + 8) 8 = .ok ix.quotedOut.toNat ∧
      readLe (before ++ ix.suffix) (before.length + 16) 2 = .ok ix.slippageBps.toNat := by
  have hout := readLe_behind before (leBytes 8 ix.inAmount.toNat).toList (leBytes 8 ix.quotedOut.toNat).toList
    ((leBytes 2 ix.slippageBps.toNat).toList ++ [ix.platformFeeBps]) Vector.length_toList
  have hbps := readLe_behind before ((leBytes 8 ix.inAmount.toNat).toList ++ (leBytes 8 ix.quotedOut.toNat).toList)
    (leBytes 2 ix.slippageBps.toNat).toList [ix.platformFeeBps] Vector.length_toList
  rw [leValue_leBytes ix.quotedOut.toNat_lt] at hout
  rw [leValue_leBytes ix.slippageBps.toNat_lt] at hbps
  rw [V1Instruction.suffix]
  constructor
  · simpa only [List.append_assoc, Vector.length_toList] using hout
  · simpa only [List.append_assoc, List.length_append, Vector.length_toList] using hbps

theorem verifyJupiterSlippage_complete (ix : V1Instruction) (hout : 0 < ix.quotedOut.toNat)
    (hbps : ix.slippageBps.toNat ≤ m) : verifyJupiterSlippage ix.encode m = .ok () := by
  obtain ⟨hknown, hstart⟩ := ix.method.discriminated
  have hcount : (leBytes 4 ix.steps.length).toList.length = 4 := Vector.length_toList
  have hvecLen := readLe_append ix.method.encode (ix.steps.flatMap RoutePlanStep.encode ++ ix.suffix) hcount
  rw [leValue_leBytes (ix.bounded.trans_lt (by decide))] at hvecLen
  have hsteps := (skipRouteSteps_skips ix.steps.length).complete
    (ix.method.encode ++ (leBytes 4 ix.steps.length).toList) _ ix.suffix ⟨ix.steps, rfl, rfl⟩
  rw [List.append_assoc, List.length_append, hcount] at hsteps
  have hsuffix := ix.read_suffix
    (ix.method.encode ++ ((leBytes 4 ix.steps.length).toList ++ ix.steps.flatMap RoutePlanStep.encode))
  simp only [List.append_assoc, List.length_append, hcount, ← Nat.add_assoc] at hsuffix
  have hlength : ix.encode.length = ix.method.encode.length + 4 + (ix.steps.flatMap RoutePlanStep.encode).length +
      v1SuffixSize := by
    simp only [V1Instruction.encode, List.length_append, hcount, ix.suffix_length, ← Nat.add_assoc]
  have hlong : 24 ≤ ix.encode.length := by
    rw [hlength, v1SuffixSize, hstart]
    split <;> omega
  have hdisc : ix.encode.take 8 = ix.method.disc := ix.method.take_encode _
  simp only [verifyJupiterSlippage, hdisc, ← hstart]
  refine require_bind_eq_ok.mpr ⟨hlong, require_bind_eq_ok.mpr ⟨hknown, ?_⟩⟩
  refine bind_eq_ok.mpr ⟨_, hvecLen, require_bind_eq_ok.mpr ⟨ix.bounded, ?_⟩⟩
  refine bind_eq_ok.mpr ⟨_, hsteps, require_bind_eq_ok.mpr ⟨hlength, ?_⟩⟩
  refine bind_eq_ok.mpr ⟨_, hsuffix.1, bind_eq_ok.mpr ⟨_, hsuffix.2, ?_⟩⟩
  exact require_bind_eq_ok.mpr ⟨hout, require_eq_ok.mpr hbps⟩

/-- A slice passes exactly if it encodes an instruction that quotes an output and allows no more slippage than the
limit. No slice makes the parser panic. -/
theorem jupiter_slippage_exact (slice : ByteSlice) (maxSlippageBps : Nat) :
    evalJupiterSlippage slice.val maxSlippageBps ≠ .error .panic ∧
      (evalJupiterSlippage slice.val maxSlippageBps = .ok () ↔
        ∃ ix : V1Instruction, slice.val = ix.encode ∧ 0 < ix.quotedOut.toNat ∧
          ix.slippageBps.toNat ≤ maxSlippageBps) := by
  have hfollows := evalJupiterSlippage_follows slice maxSlippageBps
  refine ⟨hfollows.ne_panic, hfollows.ok_iff.trans ?_⟩
  constructor
  · exact verifyJupiterSlippage_sound
  · rintro ⟨ix, hencode, hout, hbps⟩
    rw [hencode]
    exact verifyJupiterSlippage_complete ix hout hbps

end

end Sigil
