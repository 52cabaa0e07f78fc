import Mathlib.Data.Vector.Defs

/-!
# SHA-256

The hash as a function of bytes: the message is padded to blocks of 64 bytes, each block
is spread to 64 words, and the words are folded into the eight words of the state.
Concrete runs of the modeled program take it for the hash they are given.
-/

namespace SyncPlus

namespace Sha256Digest

def roundConstants : List UInt32 := [
  0x428a2f98, 0x71374491, 0xb5c0fbcf, 0xe9b5dba5, 0x3956c25b, 0x59f111f1, 0x923f82a4, 0xab1c5ed5,
  0xd807aa98, 0x12835b01, 0x243185be, 0x550c7dc3, 0x72be5d74, 0x80deb1fe, 0x9bdc06a7, 0xc19bf174,
  0xe49b69c1, 0xefbe4786, 0x0fc19dc6, 0x240ca1cc, 0x2de92c6f, 0x4a7484aa, 0x5cb0a9dc, 0x76f988da,
  0x983e5152, 0xa831c66d, 0xb00327c8, 0xbf597fc7, 0xc6e00bf3, 0xd5a79147, 0x06ca6351, 0x14292967,
  0x27b70a85, 0x2e1b2138, 0x4d2c6dfc, 0x53380d13, 0x650a7354, 0x766a0abb, 0x81c2c92e, 0x92722c85,
  0xa2bfe8a1, 0xa81a664b, 0xc24b8b70, 0xc76c51a3, 0xd192e819, 0xd6990624, 0xf40e3585, 0x106aa070,
  0x19a4c116, 0x1e376c08, 0x2748774c, 0x34b0bcb5, 0x391c0cb3, 0x4ed8aa4a, 0x5b9cca4f, 0x682e6ff3,
  0x748f82ee, 0x78a5636f, 0x84c87814, 0x8cc70208, 0x90befffa, 0xa4506ceb, 0xbef9a3f7, 0xc67178f2]

structure Words where
  a : UInt32
  b : UInt32
  c : UInt32
  d : UInt32
  e : UInt32
  f : UInt32
  g : UInt32
  h : UInt32

def initial : Words where
  a := 0x6a09e667
  b := 0xbb67ae85
  c := 0x3c6ef372
  d := 0xa54ff53a
  e := 0x510e527f
  f := 0x9b05688c
  g := 0x1f83d9ab
  h := 0x5be0cd19

def rotate (x : UInt32) (n : UInt32) : UInt32 := (x >>> n) ||| (x <<< (32 - n))

def step (s : Words) (word : UInt32 × UInt32) : Words :=
  let s1 := rotate s.e 6 ^^^ rotate s.e 11 ^^^ rotate s.e 25
  let choice := (s.e &&& s.f) ^^^ (~~~s.e &&& s.g)
  let t1 := s.h + s1 + choice + word.1 + word.2
  let s0 := rotate s.a 2 ^^^ rotate s.a 13 ^^^ rotate s.a 22
  let majority := (s.a &&& s.b) ^^^ (s.a &&& s.c) ^^^ (s.b &&& s.c)
  { a := t1 + (s0 + majority), b := s.a, c := s.b, d := s.c, e := s.d + t1, f := s.e, g := s.f
    h := s.g }

/-- The next word of the schedule, from those before it, the last first. -/
def nextWord (words : List UInt32) : UInt32 :=
  let w15 := words.getD 14 0
  let w2 := words.getD 1 0
  let s0 := rotate w15 7 ^^^ rotate w15 18 ^^^ (w15 >>> 3)
  let s1 := rotate w2 17 ^^^ rotate w2 19 ^^^ (w2 >>> 10)
  words.getD 15 0 + s0 + words.getD 6 0 + s1

def extend : Nat → List UInt32 → List UInt32
  | 0, words => words
  | n + 1, words => extend n (nextWord words :: words)

def wordsOf : List UInt8 → List UInt32
  | a :: b :: c :: d :: rest =>
      ((a.toUInt32 <<< 24) ||| (b.toUInt32 <<< 16) ||| (c.toUInt32 <<< 8) ||| d.toUInt32) ::
        wordsOf rest
  | _ => []

def compress (s : Words) (block : List UInt8) : Words :=
  let words := (extend 48 (wordsOf block).reverse).reverse
  let t := (roundConstants.zip words).foldl step s
  { a := s.a + t.a, b := s.b + t.b, c := s.c + t.c, d := s.d + t.d, e := s.e + t.e, f := s.f + t.f
    g := s.g + t.g, h := s.h + t.h }

/-- A number in bytes, the high one first. -/
def bigEndian : Nat → Nat → List UInt8
  | 0, _ => []
  | k + 1, n => bigEndian k (n / 256) ++ [UInt8.ofNat n]

def padded (message : List UInt8) : List UInt8 :=
  message ++ 0x80 :: List.replicate ((119 - message.length % 64) % 64) 0 ++
    bigEndian 8 (8 * message.length)

def compressAll : Nat → Words → List UInt8 → Words
  | 0, s, _ => s
  | blocks + 1, s, message => compressAll blocks (compress s (message.take 64)) (message.drop 64)

def bytes (s : Words) : List UInt8 :=
  [s.a, s.b, s.c, s.d, s.e, s.f, s.g, s.h].flatMap fun word => bigEndian 4 word.toNat

end Sha256Digest

open Sha256Digest in
def sha256Bytes (message : List UInt8) : List UInt8 :=
  bytes (compressAll ((padded message).length / 64) initial (padded message))

theorem length_bigEndian : ∀ k n, (Sha256Digest.bigEndian k n).length = k
  | 0, _ => rfl
  | k + 1, n => by simp [Sha256Digest.bigEndian, length_bigEndian k]

/-- SHA-256. -/
def sha256Of (message : List UInt8) : List.Vector UInt8 32 :=
  ⟨sha256Bytes message, by simp [sha256Bytes, Sha256Digest.bytes, length_bigEndian]⟩

/-- The hash of `abc`. -/
example : sha256Bytes [97, 98, 99] =
    [0xba, 0x78, 0x16, 0xbf, 0x8f, 0x01, 0xcf, 0xea, 0x41, 0x41, 0x40, 0xde, 0x5d, 0xae, 0x22, 0x23,
     0xb0, 0x03, 0x61, 0xa3, 0x96, 0x17, 0x7a, 0x9c, 0xb4, 0x10, 0xff, 0x61, 0xf2, 0x00, 0x15,
     0xad] := by
  decide +kernel

end SyncPlus
