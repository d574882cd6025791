import Sigil.Library.LittleEndian

/-!
# Borsh encodings

A value is encoded without padding: a number in as many bytes as its type has, a vector as its length in four bytes
and its elements, an option as a tag and its value. An account of fixed size holds whatever is not longer than it.
-/

namespace Sigil.Library.Borsh

abbrev u8 : Nat := 1
abbrev u16 : Nat := 2
abbrev u64 : Nat := 8
abbrev i64 : Nat := 8
abbrev bool : Nat := 1

/-- Tag of an enumeration without fields. -/
abbrev enum : Nat := 1

variable {α : Type}

def vec (elem : Nat) (l : List α) : Nat := 4 + elem * l.length

def option (value : α → Nat) (o : Option α) : Nat := 1 + o.elim 0 value

theorem vec_le {elem bound : Nat} {l : List α} (h : l.length ≤ bound) : vec elem l ≤ 4 + elem * bound :=
  Nat.add_le_add_left (Nat.mul_le_mul_left elem h) 4

end Sigil.Library.Borsh

namespace Sigil.Library

/-! ## Writing and reading -/

/-- How a value is written, and read off the front of bytes with the rest returned. What is written is read again,
and what is read can be written in as many bytes. -/
structure Codec (α : Type) where
  encode : α → List UInt8
  decode : List UInt8 → Option (α × List UInt8)
  Valid : α → Prop
  decode_encode : ∀ {a} rest, Valid a → decode (encode a ++ rest) = some (a, rest)
  valid_of_decode : ∀ {bytes a rest}, decode bytes = some (a, rest) → Valid a
  read_of_decode : ∀ {bytes a rest}, decode bytes = some (a, rest) →
    ∃ read, bytes = read ++ rest ∧ read.length = (encode a).length

namespace Codec

variable {α β : Type} {c : Codec α} {d : Codec β} {a : α} {n : Nat}

/-- A value has one encoding: reading and writing gives back the bytes. -/
def Canonical (c : Codec α) : Prop := ∀ bytes a rest, c.decode bytes = some (a, rest) → bytes = c.encode a ++ rest

/-! ### Bytes and numbers -/

/-- A fixed number of bytes. -/
def fixed (n : Nat) : Codec (List UInt8) where
  encode l := l
  decode bytes := if n ≤ bytes.length then some (bytes.take n, bytes.drop n) else none
  Valid l := l.length = n
  decode_encode := by
    rintro l rest rfl
    simp
  valid_of_decode := by
    intro bytes l rest h
    split at h
    · cases h
      simpa
    · cases h
  read_of_decode := by
    intro bytes l rest h
    split at h
    · cases h
      exact ⟨bytes.take n, (List.take_append_drop n bytes).symm, rfl⟩
    · cases h

theorem fixed_canonical : (fixed n).Canonical := by
  intro bytes l rest h
  simp only [fixed] at h
  split at h
  · cases h
    exact (List.take_append_drop n bytes).symm
  · cases h

/-- Bytes that are skipped when they are read, and zero when they are written. -/
def padding (n : Nat) : Codec Unit where
  encode _ := List.replicate n 0
  decode bytes := if n ≤ bytes.length then some ((), bytes.drop n) else none
  Valid _ := True
  decode_encode := by simp
  valid_of_decode _ := trivial
  read_of_decode := by
    intro bytes _ rest h
    split at h
    · cases h
      exact ⟨bytes.take n, (List.take_append_drop n bytes).symm, by simpa⟩
    · cases h

@[simp] theorem padding_length (u : Unit) : ((padding n).encode u).length = n := List.length_replicate

/-- Values that are written as other values. -/
def pmap (c : Codec α) (f : α → Option β) (g : β → α) (h : ∀ a b, c.Valid a → f a = some b → g b = a) :
    Codec β where
  encode b := c.encode (g b)
  decode bytes := (c.decode bytes).bind fun r => (f r.1).map fun b => (b, r.2)
  Valid b := c.Valid (g b) ∧ f (g b) = some b
  decode_encode := by
    intro b rest hb
    simp [c.decode_encode rest hb.1, hb.2]
  valid_of_decode := by
    intro bytes b rest hdecode
    simp only [Option.bind_eq_some_iff, Option.map_eq_some_iff, Prod.exists, Prod.mk.injEq] at hdecode
    obtain ⟨a, r, hdecode, _, hf, rfl, rfl⟩ := hdecode
    have hvalid := c.valid_of_decode hdecode
    obtain rfl := h _ _ hvalid hf
    exact ⟨hvalid, hf⟩
  read_of_decode := by
    intro bytes b rest hdecode
    simp only [Option.bind_eq_some_iff, Option.map_eq_some_iff, Prod.exists, Prod.mk.injEq] at hdecode
    obtain ⟨a, r, hdecode, _, hf, rfl, rfl⟩ := hdecode
    obtain rfl := h _ _ (c.valid_of_decode hdecode) hf
    exact c.read_of_decode hdecode

theorem Canonical.pmap {f : α → Option β} {g : β → α} {h : ∀ a b, c.Valid a → f a = some b → g b = a}
    (hc : c.Canonical) : (c.pmap f g h).Canonical := by
  intro bytes b rest hdecode
  simp only [Codec.pmap, Option.bind_eq_some_iff, Option.map_eq_some_iff, Prod.exists, Prod.mk.injEq] at hdecode
  obtain ⟨a, r, hdecode, _, hf, rfl, rfl⟩ := hdecode
  obtain rfl := h _ _ (c.valid_of_decode hdecode) hf
  exact hc _ _ _ hdecode

/-- The fields of a structure, in their order. -/
def record (c : Codec α) (f : α → β) (g : β → α) (h : ∀ a, g (f a) = a) : Codec β :=
  c.pmap (fun a => some (f a)) g (by
    rintro a _ _ ⟨⟩
    exact h a)

theorem record_valid {f : α → β} {g : β → α} {h : ∀ a, g (f a) = a} {b : β} (hb : f (g b) = b)
    (hvalid : c.Valid (g b)) : (c.record f g h).Valid b := ⟨hvalid, congrArg some hb⟩

@[simp] theorem record_length {f : α → β} {g : β → α} {h : ∀ a, g (f a) = a} (b : β) :
    ((c.record f g h).encode b).length = (c.encode (g b)).length := rfl

theorem Canonical.record {f : α → β} {g : β → α} {h : ∀ a, g (f a) = a} (hc : c.Canonical) :
    (c.record f g h).Canonical := hc.pmap

/-- Numbers of `n` bytes. -/
def uint (n : Nat) : Codec Nat :=
  (fixed n).pmap (fun l => some (leValue l)) (leDigits n) (by
    rintro l _ rfl ⟨⟩
    exact leDigits_leValue l)

@[simp] theorem uint_valid_iff {x : Nat} : (uint n).Valid x ↔ x < 256 ^ n := by
  constructor
  · rintro ⟨-, heq⟩
    have hlt := leValue_lt (leDigits n x)
    rwa [leDigits_length, Option.some.inj heq] at hlt
  · intro h
    exact ⟨leDigits_length n x, congrArg some (leValue_leBytes h)⟩

@[simp] theorem uint_length (x : Nat) : ((uint n).encode x).length = n := leDigits_length n x

theorem uint_canonical : (uint n).Canonical := fixed_canonical.pmap

/-- Numbers of `n` bytes in two's complement. -/
def int (n : Nat) : Codec Int :=
  (fixed n).pmap (fun l => some (leSigned l)) (fun i => leDigits n (i % ((256 ^ n : Nat) : Int)).toNat) (by
    rintro l _ rfl ⟨⟩
    rw [leSigned_emod, Int.toNat_natCast]
    exact leDigits_leValue l)

theorem int_valid {i : Int} (hlow : -((256 ^ n : Nat) : Int) ≤ 2 * i) (hhigh : 2 * i < ((256 ^ n : Nat) : Int)) :
    (int n).Valid i := ⟨leDigits_length _ _, congrArg some (leSigned_leDigits hlow hhigh)⟩

@[simp] theorem int_length (i : Int) : ((int n).encode i).length = n := leDigits_length _ _

theorem int_canonical : (int n).Canonical := fixed_canonical.pmap

/-- One byte: the position of a variant. -/
def enum [DecidableEq β] (variants : List β) (h : variants.Nodup) : Codec β :=
  (uint 1).pmap (fun i => variants[i]?) variants.idxOf (by
    intro i b _ hi
    obtain ⟨hlt, rfl⟩ := List.getElem?_eq_some_iff.mp hi
    exact h.idxOf_getElem i hlt)

theorem enum_valid [DecidableEq β] {variants : List β} {h : variants.Nodup} (hfew : variants.length ≤ 256) {b : β}
    (hb : b ∈ variants) : (enum variants h).Valid b := by
  have hlt := List.idxOf_lt_length_of_mem hb
  exact ⟨uint_valid_iff.mpr (hlt.trans_le hfew), List.getElem?_idxOf hb⟩

@[simp] theorem enum_length [DecidableEq β] {variants : List β} {h : variants.Nodup} (b : β) :
    ((enum variants h).encode b).length = 1 := leDigits_length _ _

theorem enum_canonical [DecidableEq β] {variants : List β} {h : variants.Nodup} : (enum variants h).Canonical :=
  uint_canonical.pmap

/-- Zero or one, and no other byte. -/
def bool : Codec Bool := enum [false, true] (by decide)

@[simp] theorem bool_valid (b : Bool) : bool.Valid b := by
  refine enum_valid (by decide) ?_
  cases b <;> simp

theorem bool_canonical : bool.Canonical := enum_canonical

@[simp] theorem bool_length (b : Bool) : (bool.encode b).length = 1 := enum_length b

/-! ### Compound values -/

def pair (c : Codec α) (d : Codec β) : Codec (α × β) where
  encode p := c.encode p.1 ++ d.encode p.2
  decode bytes := (c.decode bytes).bind fun r => (d.decode r.2).map fun s => ((r.1, s.1), s.2)
  Valid p := c.Valid p.1 ∧ d.Valid p.2
  decode_encode := by
    rintro ⟨a, b⟩ rest ⟨ha, hb⟩
    simp [c.decode_encode _ ha, d.decode_encode rest hb]
  valid_of_decode := by
    intro bytes p rest h
    simp only [Option.bind_eq_some_iff, Option.map_eq_some_iff, Prod.exists, Prod.mk.injEq] at h
    obtain ⟨a, r, hc, b, s, hd, rfl, rfl⟩ := h
    exact ⟨c.valid_of_decode hc, d.valid_of_decode hd⟩
  read_of_decode := by
    intro bytes p rest h
    simp only [Option.bind_eq_some_iff, Option.map_eq_some_iff, Prod.exists, Prod.mk.injEq] at h
    obtain ⟨a, r, hc, b, s, hd, rfl, rfl⟩ := h
    obtain ⟨read, rfl, hread⟩ := c.read_of_decode hc
    obtain ⟨read', rfl, hread'⟩ := d.read_of_decode hd
    exact ⟨read ++ read', by simp, by simp [hread, hread']⟩

@[simp] theorem pair_length (p : α × β) :
    ((c.pair d).encode p).length = (c.encode p.1).length + (d.encode p.2).length := List.length_append

theorem Canonical.pair (hc : c.Canonical) (hd : d.Canonical) : (c.pair d).Canonical := by
  intro bytes p rest h
  simp only [Codec.pair, Option.bind_eq_some_iff, Option.map_eq_some_iff, Prod.exists, Prod.mk.injEq] at h
  obtain ⟨a, r, hread, b, s, hread', rfl, rfl⟩ := h
  rw [hc _ _ _ hread, hd _ _ _ hread']
  simp [Codec.pair]

/-- Tag 0 for nothing, 1 in front of a value. -/
def option (c : Codec α) : Codec (Option α) where
  encode o := o.elim [0] fun a => 1 :: c.encode a
  decode bytes := bytes.head?.bind fun tag =>
    if tag = 0 then some (none, bytes.tail)
    else if tag = 1 then (c.decode bytes.tail).map fun r => (some r.1, r.2)
    else none
  Valid o := ∀ a, o = some a → c.Valid a
  decode_encode := by
    intro o rest h
    cases o with
    | none => rfl
    | some a => simp [c.decode_encode rest (h a rfl)]
  valid_of_decode := by
    intro bytes o rest h a ho
    subst ho
    cases bytes with
    | nil => cases h
    | cons tag bytes =>
        simp only [List.head?_cons, Option.bind_some, List.tail_cons] at h
        split at h
        · cases h
        · split at h
          · simp only [Option.map_eq_some_iff, Prod.exists, Prod.mk.injEq, Option.some.injEq] at h
            obtain ⟨_, r, hread, rfl, -⟩ := h
            exact c.valid_of_decode hread
          · cases h
  read_of_decode := by
    intro bytes o rest h
    cases bytes with
    | nil => cases h
    | cons tag bytes =>
        simp only [List.head?_cons, Option.bind_some, List.tail_cons] at h
        split at h
        · cases h
          exact ⟨[tag], rfl, rfl⟩
        · split at h
          · simp only [Option.map_eq_some_iff, Prod.exists, Prod.mk.injEq] at h
            obtain ⟨_, r, hread, rfl, rfl⟩ := h
            obtain ⟨read, rfl, hlength⟩ := c.read_of_decode hread
            exact ⟨tag :: read, rfl, by simp [hlength]⟩
          · cases h

theorem Canonical.option (hc : c.Canonical) : c.option.Canonical := by
  intro bytes o rest h
  cases bytes with
  | nil => cases h
  | cons tag bytes =>
      simp only [Codec.option, List.head?_cons, Option.bind_some, List.tail_cons] at h
      split at h
      · rename_i htag
        cases h
        rw [htag]
        rfl
      · split at h
        · rename_i htag
          simp only [Option.map_eq_some_iff, Prod.exists, Prod.mk.injEq] at h
          obtain ⟨_, r, hread, rfl, rfl⟩ := h
          rw [hc _ _ _ hread, htag]
          rfl
        · cases h

/-- So many values one after the other. -/
def decodeMany (c : Codec α) : Nat → List UInt8 → Option (List α × List UInt8)
  | 0, bytes => some ([], bytes)
  | n + 1, bytes => (c.decode bytes).bind fun r => (decodeMany c n r.2).map fun s => (r.1 :: s.1, s.2)

theorem decodeMany_succ_eq_some {bytes rest : List UInt8} {l : List α} :
    c.decodeMany (n + 1) bytes = some (l, rest) ↔
      ∃ a bytes' l', c.decode bytes = some (a, bytes') ∧ c.decodeMany n bytes' = some (l', rest) ∧ l = a :: l' := by
  simp only [decodeMany, Option.bind_eq_some_iff, Option.map_eq_some_iff, Prod.exists, Prod.mk.injEq]
  constructor
  · rintro ⟨a, bytes', hread, l', _, hmany, rfl, rfl⟩
    exact ⟨a, bytes', l', hread, hmany, rfl⟩
  · rintro ⟨a, bytes', l', hread, hmany, rfl⟩
    exact ⟨a, bytes', hread, l', rest, hmany, rfl, rfl⟩

theorem decodeMany_encode {l : List α} (rest : List UInt8) (h : ∀ a ∈ l, c.Valid a) :
    c.decodeMany l.length (l.flatMap c.encode ++ rest) = some (l, rest) := by
  induction l with
  | nil => rfl
  | cons a l ih =>
      have ha : c.Valid a := h a (by simp)
      have hl := ih fun b hb => h b (by simp [hb])
      rw [List.flatMap_cons, List.append_assoc]
      exact decodeMany_succ_eq_some.mpr ⟨a, _, l, c.decode_encode _ ha, hl, rfl⟩

/-- What is read of a list. -/
theorem decodeMany_ok {bytes rest : List UInt8} {l : List α} (h : c.decodeMany n bytes = some (l, rest)) :
    l.length = n ∧ (∀ a ∈ l, c.Valid a) ∧
      ∃ read, bytes = read ++ rest ∧ read.length = (l.flatMap c.encode).length := by
  induction n generalizing bytes l with
  | zero =>
      cases h
      exact ⟨rfl, by simp, [], rfl, rfl⟩
  | succ n ih =>
      obtain ⟨a, bytes', l', hread, hmany, rfl⟩ := decodeMany_succ_eq_some.mp h
      obtain ⟨hlength, hvalid, rest', rfl, hrest⟩ := ih hmany
      obtain ⟨read, rfl, hfirst⟩ := c.read_of_decode hread
      refine ⟨by simp [hlength], ?_, read ++ rest', by simp, by simp [hfirst, hrest]⟩
      simpa using ⟨c.valid_of_decode hread, hvalid⟩

theorem Canonical.decodeMany (hc : c.Canonical) {bytes rest : List UInt8} {l : List α}
    (h : c.decodeMany n bytes = some (l, rest)) : bytes = l.flatMap c.encode ++ rest := by
  induction n generalizing bytes l with
  | zero =>
      cases h
      rfl
  | succ n ih =>
      obtain ⟨a, bytes', l', hread, hmany, rfl⟩ := decodeMany_succ_eq_some.mp h
      rw [hc _ _ _ hread, ih hmany, List.flatMap_cons, List.append_assoc]

/-- A list behind its length in four bytes. -/
def vec (c : Codec α) : Codec (List α) where
  encode l := (uint 4).encode l.length ++ l.flatMap c.encode
  decode bytes := ((uint 4).decode bytes).bind fun r => c.decodeMany r.1 r.2
  Valid l := l.length < 256 ^ 4 ∧ ∀ a ∈ l, c.Valid a
  decode_encode := by
    intro l rest h
    rw [List.append_assoc, (uint 4).decode_encode _ (uint_valid_iff.mpr h.1)]
    exact decodeMany_encode rest h.2
  valid_of_decode := by
    intro bytes l rest h
    obtain ⟨⟨m, bytes'⟩, hread, hmany⟩ := Option.bind_eq_some_iff.mp h
    obtain ⟨rfl, hvalid, -⟩ := decodeMany_ok hmany
    exact ⟨uint_valid_iff.mp ((uint 4).valid_of_decode hread), hvalid⟩
  read_of_decode := by
    intro bytes l rest h
    obtain ⟨⟨m, bytes'⟩, hread, hmany⟩ := Option.bind_eq_some_iff.mp h
    obtain ⟨rfl, -, read', rfl, hrest⟩ := decodeMany_ok hmany
    obtain ⟨read, rfl, hlength⟩ := (uint 4).read_of_decode hread
    exact ⟨read ++ read', by simp, by simp [hlength, hrest]⟩

theorem Canonical.vec (hc : c.Canonical) : c.vec.Canonical := by
  intro bytes l rest h
  obtain ⟨⟨m, bytes'⟩, hread, hmany⟩ := Option.bind_eq_some_iff.mp h
  obtain ⟨rfl, -⟩ := decodeMany_ok hmany
  have hlist : bytes' = l.flatMap c.encode ++ rest := hc.decodeMany hmany
  rw [uint_canonical _ _ _ hread, hlist, ← List.append_assoc]
  rfl

/-- Elements of one size. -/
theorem vec_length {elem : Nat} (h : ∀ a, (c.encode a).length = elem) (l : List α) :
    (c.vec.encode l).length = Borsh.vec elem l := by
  have hsum : (l.flatMap c.encode).length = elem * l.length := by
    induction l with
    | nil => rfl
    | cons a l ih => rw [List.flatMap_cons, List.length_append, h, ih, List.length_cons, Nat.mul_succ, Nat.add_comm]
  show ((uint 4).encode l.length ++ l.flatMap c.encode).length = 4 + elem * l.length
  rw [List.length_append, uint_length, hsum]

theorem option_length {value : α → Nat} (h : ∀ a, (c.encode a).length = value a) (o : Option α) :
    (c.option.encode o).length = Borsh.option value o := by
  cases o with
  | none => rfl
  | some a =>
      show (1 :: c.encode a).length = 1 + value a
      rw [List.length_cons, h, Nat.add_comm]

end Codec

/-! ## Accounts -/

/-- An account of a fixed space: a discriminator, the encoding of a value, and bytes that nobody reads. -/
structure AccountFormat (α : Type) where
  discriminator : List UInt8
  codec : Codec α
  space : Nat

namespace AccountFormat

variable {α : Type} {f : AccountFormat α} {a : α} {data : List UInt8}

def encode (f : AccountFormat α) (a : α) : List UInt8 := f.discriminator ++ f.codec.encode a

/-- Reads the value behind the discriminator, and not what follows it. -/
def load (f : AccountFormat α) (data : List UInt8) : Option α :=
  if f.discriminator <+: data then (f.codec.decode (data.drop f.discriminator.length)).map Prod.fst else none

/-- A new account is zero. -/
def allocated (f : AccountFormat α) : List UInt8 := List.replicate f.space 0

/-- Overwrites the front of an account, if it has room. -/
def store (f : AccountFormat α) (a : α) (data : List UInt8) : Option (List UInt8) :=
  if (f.encode a).length ≤ data.length then some (f.encode a ++ data.drop (f.encode a).length) else none

/-- An account that has its size and begins with a value. -/
structure Holds (f : AccountFormat α) (data : List UInt8) (a : α) : Prop where
  valid : f.codec.Valid a
  size : data.length = f.space
  front : f.encode a <+: data

theorem Holds.load (h : f.Holds data a) : f.load data = some a := by
  obtain ⟨stale, rfl⟩ := h.front
  have hfront : f.discriminator <+: f.encode a ++ stale :=
    (List.prefix_append f.discriminator _).trans (List.prefix_append (f.encode a) stale)
  rw [AccountFormat.load, if_pos hfront, encode, List.append_assoc, List.drop_left, f.codec.decode_encode stale h.valid]
  rfl

theorem store_isSome : (f.store a data).isSome ↔ (f.encode a).length ≤ data.length := by
  unfold store
  split
  · rename_i h
    exact iff_of_true rfl h
  · rename_i h
    exact iff_of_false (by simp) h

theorem holds_of_store {data' : List UInt8} (h : f.store a data = some data') (hvalid : f.codec.Valid a)
    (hsize : data.length = f.space) : f.Holds data' a := by
  unfold store at h
  split at h
  · rename_i hroom
    cases h
    refine ⟨hvalid, ?_, List.prefix_append _ _⟩
    rw [List.length_append, List.length_drop, Nat.add_sub_cancel' hroom, hsize]
  · cases h

/-- A value that is read and stored again leaves every byte as it is. -/
theorem store_of_load (hc : f.codec.Canonical) (h : f.load data = some a) : f.store a data = some data := by
  unfold load at h
  split at h
  · rename_i hfront
    obtain ⟨bytes, rfl⟩ := hfront
    rw [List.drop_left, Option.map_eq_some_iff] at h
    obtain ⟨⟨_, rest⟩, hdecode, rfl⟩ := h
    have hbytes : bytes = f.codec.encode _ ++ rest := hc _ _ _ hdecode
    rw [hbytes, ← List.append_assoc]
    show f.store _ (f.encode _ ++ rest) = some (f.encode _ ++ rest)
    rw [store, if_pos (by simp), List.drop_left]
  · cases h

/-! ### A store of accounts -/

/-- A store keeps bytes for the values that are there, and nothing for the others. -/
def Keeps (f : AccountFormat α) : Option (List UInt8) → Option α → Prop := Option.Rel f.Holds

theorem Keeps.load {data : Option (List UInt8)} {o : Option α} (h : f.Keeps data o) : data.bind f.load = o := by
  cases h with
  | none => rfl
  | some h => exact h.load

variable {β : Type} {fresh : β}

/-- What becomes of an account when a program is done with it: it is closed, or the value is written over what is
there. The other part of the account stays what it was, and is `fresh` in a new one. -/
def writeBack (f : AccountFormat (α × β)) (fresh : β) (data : Option (List UInt8)) (o : Option α) :
    Option (Option (List UInt8)) :=
  o.elim (some none) fun a =>
    (f.store (a, ((data.bind f.load).map Prod.snd).getD fresh) (data.getD f.allocated)).map some

variable {f : AccountFormat (α × β)} {data : Option (List UInt8)} {o p : Option α}

/-- An account is written back if and only if its value is not too long. -/
theorem writeBack_cases (h : f.Keeps data (o.map fun a => (a, fresh)))
    (hvalid : ∀ a, p = some a → (f.encode (a, fresh)).length ≤ f.space → f.codec.Valid (a, fresh)) :
    (∃ data', f.writeBack fresh data p = some data' ∧ f.Keeps data' (p.map fun a => (a, fresh)) ∧
        ∀ a, p = some a → (f.encode (a, fresh)).length ≤ f.space) ∨
      f.writeBack fresh data p = none ∧ ∃ a, p = some a ∧ f.space < (f.encode (a, fresh)).length := by
  cases p with
  | none => exact .inl ⟨none, rfl, .none, by simp⟩
  | some a =>
      have hpart : ((data.bind f.load).map Prod.snd).getD fresh = fresh := by
        rw [h.load]
        cases o <;> rfl
      have hsize : (data.getD f.allocated).length = f.space := by
        cases ho : o with
        | none =>
            rw [ho] at h
            cases h
            exact List.length_replicate
        | some b =>
            rw [ho] at h
            cases h with
            | some h => exact h.size
      have hwrite : f.writeBack fresh data (some a) = (f.store (a, fresh) (data.getD f.allocated)).map some := by
        rw [writeBack, Option.elim_some, hpart]
      rw [hwrite]
      cases hstore : f.store (a, fresh) (data.getD f.allocated) with
      | none =>
          refine .inr ⟨rfl, a, rfl, ?_⟩
          rw [← hsize, ← Nat.not_le, ← store_isSome, hstore]
          simp
      | some bytes =>
          have hroom : (f.encode (a, fresh)).length ≤ f.space := by
            rw [← hsize, ← store_isSome, hstore]
            rfl
          have hholds : f.Holds bytes (a, fresh) := holds_of_store hstore (hvalid a rfl hroom) hsize
          exact .inl ⟨some bytes, rfl, .some hholds, by rintro _ ⟨⟩; exact hroom⟩

end AccountFormat

end Sigil.Library
