import Mathlib.Tactic.Common

/-!
# SHA-256

The hash function on byte strings, one 64-byte block at a time.
-/

namespace Sigil.Library.Sha256

def roundConstants : List UInt32 := [
  0x428a2f98, 0x71374491, 0xb5c0fbcf, 0xe9b5dba5, 0x3956c25b, 0x59f111f1, 0x923f82a4, 0xab1c5ed5,
  0xd807aa98, 0x12835b01, 0x243185be, 0x550c7dc3, 0x72be5d74, 0x80deb1fe, 0x9bdc06a7, 0xc19bf174,
  0xe49b69c1, 0xefbe4786, 0x0fc19dc6, 0x240ca1cc, 0x2de92c6f, 0x4a7484aa, 0x5cb0a9dc, 0x76f988da,
  0x983e5152, 0xa831c66d, 0xb00327c8, 0xbf597fc7, 0xc6e00bf3, 0xd5a79147, 0x06ca6351, 0x14292967,
  0x27b70a85, 0x2e1b2138, 0x4d2c6dfc, 0x53380d13, 0x650a7354, 0x766a0abb, 0x81c2c92e, 0x92722c85,
  0xa2bfe8a1, 0xa81a664b, 0xc24b8b70, 0xc76c51a3, 0xd192e819, 0xd6990624, 0xf40e3585, 0x106aa070,
  0x19a4c116, 0x1e376c08, 0x2748774c, 0x34b0bcb5, 0x391c0cb3, 0x4ed8aa4a, 0x5b9cca4f, 0x682e6ff3,
  0x748f82ee, 0x78a5636f, 0x84c87814, 0x8cc70208, 0x90befffa, 0xa4506ceb, 0xbef9a3f7, 0xc67178f2]

/-- The eight words of the state. -/
structure State where
  a : UInt32 := 0x6a09e667
  b : UInt32 := 0xbb67ae85
  c : UInt32 := 0x3c6ef372
  d : UInt32 := 0xa54ff53a
  e : UInt32 := 0x510e527f
  f : UInt32 := 0x9b05688c
  g : UInt32 := 0x1f83d9ab
  h : UInt32 := 0x5be0cd19

def rotr (x : UInt32) (n : UInt32) : UInt32 := (x >>> n) ||| (x <<< (32 - n))

def round (s : State) (k w : UInt32) : State :=
  let s1 := rotr s.e 6 ^^^ rotr s.e 11 ^^^ rotr s.e 25
  let ch := (s.e &&& s.f) ^^^ (~~~ s.e &&& s.g)
  let t1 := s.h + s1 + ch + k + w
  let s0 := rotr s.a 2 ^^^ rotr s.a 13 ^^^ rotr s.a 22
  let maj := (s.a &&& s.b) ^^^ (s.a &&& s.c) ^^^ (s.b &&& s.c)
  { a := t1 + (s0 + maj), b := s.a, c := s.b, d := s.c, e := s.d + t1, f := s.e, g := s.f, h := s.g }

/-- Message schedule: `n` more words after the given ones, which are kept newest first. -/
def schedule : Nat → List UInt32 → List UInt32
  | 0, ws => ws.reverse
  | n + 1, ws =>
      let at' (i : Nat) := ws.getD i 0
      let s0 := rotr (at' 14) 7 ^^^ rotr (at' 14) 18 ^^^ (at' 14 >>> 3)
      let s1 := rotr (at' 1) 17 ^^^ rotr (at' 1) 19 ^^^ (at' 1 >>> 10)
      schedule n ((at' 15 + s0 + at' 6 + s1) :: ws)

def word (bytes : List UInt8) : UInt32 := bytes.foldl (fun n b => n * 256 + b.toUInt32) 0

/-- Bytes cut into pieces of `size`, at most `n` of them. -/
def chunks {α : Type} (size : Nat) : Nat → List α → List (List α)
  | 0, _ => []
  | _, [] => []
  | n + 1, l => l.take size :: chunks size n (l.drop size)

def compress (s : State) (block : List UInt8) : State :=
  let ws := schedule 48 ((chunks 4 16 block).map word).reverse
  let t := (roundConstants.zip ws).foldl (fun s kw => round s kw.1 kw.2) s
  { a := s.a + t.a, b := s.b + t.b, c := s.c + t.c, d := s.d + t.d,
    e := s.e + t.e, f := s.f + t.f, g := s.g + t.g, h := s.h + t.h }

def bytesBE (n size : Nat) : List UInt8 :=
  ((List.range size).map fun i => UInt8.ofNat (n >>> (8 * i))).reverse

def pad (message : List UInt8) : List UInt8 :=
  let zeros := (55 + 64 - message.length % 64) % 64
  message ++ [0x80] ++ List.replicate zeros 0 ++ bytesBE (message.length * 8) 8

def digest (message : List UInt8) : List UInt8 :=
  let padded := pad message
  let s := (chunks 64 (padded.length / 64) padded).foldl compress {}
  [s.a, s.b, s.c, s.d, s.e, s.f, s.g, s.h].flatMap fun w => bytesBE w.toNat 4

end Sigil.Library.Sha256
