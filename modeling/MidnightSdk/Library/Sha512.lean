import MidnightSdk.Library.Sha256

/-!
# SHA-512

The hash of twice the word size, over blocks of 128 bytes, and the keyed hash made of
it. Words are numbers below `2 ^ 64`.
-/

namespace MidnightSdk.Sha512

open BigEndian

open Sha256 (State)

def modulus : Nat := 0x10000000000000000

def rotateRight (k word : Nat) : Nat := (word >>> k ||| word <<< (64 - k)) % modulus

def roundConstants : List Nat := [
  0x428a2f98d728ae22, 0x7137449123ef65cd, 0xb5c0fbcfec4d3b2f, 0xe9b5dba58189dbbc,
  0x3956c25bf348b538, 0x59f111f1b605d019, 0x923f82a4af194f9b, 0xab1c5ed5da6d8118,
  0xd807aa98a3030242, 0x12835b0145706fbe, 0x243185be4ee4b28c, 0x550c7dc3d5ffb4e2,
  0x72be5d74f27b896f, 0x80deb1fe3b1696b1, 0x9bdc06a725c71235, 0xc19bf174cf692694,
  0xe49b69c19ef14ad2, 0xefbe4786384f25e3, 0x0fc19dc68b8cd5b5, 0x240ca1cc77ac9c65,
  0x2de92c6f592b0275, 0x4a7484aa6ea6e483, 0x5cb0a9dcbd41fbd4, 0x76f988da831153b5,
  0x983e5152ee66dfab, 0xa831c66d2db43210, 0xb00327c898fb213f, 0xbf597fc7beef0ee4,
  0xc6e00bf33da88fc2, 0xd5a79147930aa725, 0x06ca6351e003826f, 0x142929670a0e6e70,
  0x27b70a8546d22ffc, 0x2e1b21385c26c926, 0x4d2c6dfc5ac42aed, 0x53380d139d95b3df,
  0x650a73548baf63de, 0x766a0abb3c77b2a8, 0x81c2c92e47edaee6, 0x92722c851482353b,
  0xa2bfe8a14cf10364, 0xa81a664bbc423001, 0xc24b8b70d0f89791, 0xc76c51a30654be30,
  0xd192e819d6ef5218, 0xd69906245565a910, 0xf40e35855771202a, 0x106aa07032bbd1b8,
  0x19a4c116b8d2d0c8, 0x1e376c085141ab53, 0x2748774cdf8eeb99, 0x34b0bcb5e19b48a8,
  0x391c0cb3c5c95a63, 0x4ed8aa4ae3418acb, 0x5b9cca4f7763e373, 0x682e6ff3d6b2b8a3,
  0x748f82ee5defb2fc, 0x78a5636f43172f60, 0x84c87814a1f0ab72, 0x8cc702081a6439ec,
  0x90befffa23631e28, 0xa4506cebde82bde9, 0xbef9a3f7b2c67915, 0xc67178f2e372532b,
  0xca273eceea26619c, 0xd186b8c721c0c207, 0xeada7dd6cde0eb1e, 0xf57d4f7fee6ed178,
  0x06f067aa72176fba, 0x0a637dc5a2c898a6, 0x113f9804bef90dae, 0x1b710b35131c471b,
  0x28db77f523047d84, 0x32caab7b40c72493, 0x3c9ebe0a15c9bebc, 0x431d67c49c100d4c,
  0x4cc5d4becb3e42b6, 0x597f299cfc657e2a, 0x5fcb6fab3ad6faec, 0x6c44198c4a475817]

def initial : State where
  a := 0x6a09e667f3bcc908
  b := 0xbb67ae8584caa73b
  c := 0x3c6ef372fe94f82b
  d := 0xa54ff53a5f1d36f1
  e := 0x510e527fade682d1
  f := 0x9b05688c2b3e6c1f
  g := 0x1f83d9abfb41bd6b
  h := 0x5be0cd19137e2179

def add (s t : State) : State where
  a := (s.a + t.a) % modulus
  b := (s.b + t.b) % modulus
  c := (s.c + t.c) % modulus
  d := (s.d + t.d) % modulus
  e := (s.e + t.e) % modulus
  f := (s.f + t.f) % modulus
  g := (s.g + t.g) % modulus
  h := (s.h + t.h) % modulus

def round (s : State) (constant word : Nat) : State :=
  let sum₁ := rotateRight 14 s.e ^^^ rotateRight 18 s.e ^^^ rotateRight 41 s.e
  let choice := (s.e &&& s.f) ^^^ ((modulus - 1 - s.e) &&& s.g)
  let temp₁ := s.h + sum₁ + choice + constant + word
  let sum₀ := rotateRight 28 s.a ^^^ rotateRight 34 s.a ^^^ rotateRight 39 s.a
  let majority := (s.a &&& s.b) ^^^ (s.a &&& s.c) ^^^ (s.b &&& s.c)
  { a := (temp₁ + sum₀ + majority) % modulus
    b := s.a
    c := s.b
    d := s.c
    e := (s.d + temp₁) % modulus
    f := s.e
    g := s.f
    h := s.g }

/-- The words of the schedule from the last sixteen. -/
def nextWord (window : List Nat) : Nat :=
  let early := window.getD 1 0
  let late := window.getD 14 0
  (window.getD 0 0 + (rotateRight 1 early ^^^ rotateRight 8 early ^^^ early >>> 7) +
    window.getD 9 0 + (rotateRight 19 late ^^^ rotateRight 61 late ^^^ late >>> 6)) % modulus

def rounds : (constants window : List Nat) → State → State
  | constant :: constants, window, s =>
    rounds constants (window.tail ++ [nextWord window]) (round s constant (window.getD 0 0))
  | [], _, s => s

/-- The words of the first `k` groups of eight bytes. -/
def words : (k : Nat) → List UInt8 → List Nat
  | 0, _ => []
  | k + 1, bytes => beValue (bytes.take 8) :: words k (bytes.drop 8)

def compress : (blocks : Nat) → List UInt8 → State → State
  | 0, _, s => s
  | blocks + 1, bytes, s =>
    compress blocks (bytes.drop 128) (add s (rounds roundConstants (words 16 bytes) s))

def pad (message : List UInt8) : List UInt8 :=
  message ++ [0x80] ++ List.replicate ((239 - message.length % 128) % 128) 0 ++
    beBytes 16 (8 * message.length)

def bytes (s : State) : List UInt8 :=
  beBytes 8 s.a ++ beBytes 8 s.b ++ beBytes 8 s.c ++ beBytes 8 s.d ++
    beBytes 8 s.e ++ beBytes 8 s.f ++ beBytes 8 s.g ++ beBytes 8 s.h

def sha512 (message : List UInt8) : List UInt8 :=
  bytes (compress ((pad message).length / 128) (pad message) initial)

theorem sha512_length (message : List UInt8) : (sha512 message).length = 64 := by
  simp [sha512, bytes]

example : beValue (sha512 [0x61, 0x62, 0x63]) / 2 ^ 256 =
    0xddaf35a193617abacc417349ae20413112e6fa4e89a97ea20a9eeee64b55d39a := by decide +kernel

/-- `HMAC` with this hash. -/
def hmac (key data : List UInt8) : List UInt8 :=
  let short := if key.length ≤ 128 then key else sha512 key
  let block := short ++ List.replicate (128 - short.length) 0
  sha512 (block.map (· ^^^ 0x5C) ++ sha512 (block.map (· ^^^ 0x36) ++ data))

end MidnightSdk.Sha512
