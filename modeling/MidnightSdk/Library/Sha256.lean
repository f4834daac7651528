import MidnightSdk.Library.BigEndian

/-!
# SHA-256

The compression of 64-byte blocks into eight words of 32 bits, and the keyed hash
made of it. Words are numbers below `2 ^ 32`.
-/

namespace MidnightSdk.Sha256

open BigEndian

def modulus : Nat := 0x100000000

def rotateRight (k word : Nat) : Nat := (word >>> k ||| word <<< (32 - k)) % modulus

def roundConstants : List Nat := [
  0x428a2f98, 0x71374491, 0xb5c0fbcf, 0xe9b5dba5, 0x3956c25b, 0x59f111f1, 0x923f82a4, 0xab1c5ed5,
  0xd807aa98, 0x12835b01, 0x243185be, 0x550c7dc3, 0x72be5d74, 0x80deb1fe, 0x9bdc06a7, 0xc19bf174,
  0xe49b69c1, 0xefbe4786, 0x0fc19dc6, 0x240ca1cc, 0x2de92c6f, 0x4a7484aa, 0x5cb0a9dc, 0x76f988da,
  0x983e5152, 0xa831c66d, 0xb00327c8, 0xbf597fc7, 0xc6e00bf3, 0xd5a79147, 0x06ca6351, 0x14292967,
  0x27b70a85, 0x2e1b2138, 0x4d2c6dfc, 0x53380d13, 0x650a7354, 0x766a0abb, 0x81c2c92e, 0x92722c85,
  0xa2bfe8a1, 0xa81a664b, 0xc24b8b70, 0xc76c51a3, 0xd192e819, 0xd6990624, 0xf40e3585, 0x106aa070,
  0x19a4c116, 0x1e376c08, 0x2748774c, 0x34b0bcb5, 0x391c0cb3, 0x4ed8aa4a, 0x5b9cca4f, 0x682e6ff3,
  0x748f82ee, 0x78a5636f, 0x84c87814, 0x8cc70208, 0x90befffa, 0xa4506ceb, 0xbef9a3f7, 0xc67178f2]

structure State where
  a : Nat
  b : Nat
  c : Nat
  d : Nat
  e : Nat
  f : Nat
  g : Nat
  h : Nat

def initial : State where
  a := 0x6a09e667
  b := 0xbb67ae85
  c := 0x3c6ef372
  d := 0xa54ff53a
  e := 0x510e527f
  f := 0x9b05688c
  g := 0x1f83d9ab
  h := 0x5be0cd19

def State.add (s t : State) : State where
  a := (s.a + t.a) % modulus
  b := (s.b + t.b) % modulus
  c := (s.c + t.c) % modulus
  d := (s.d + t.d) % modulus
  e := (s.e + t.e) % modulus
  f := (s.f + t.f) % modulus
  g := (s.g + t.g) % modulus
  h := (s.h + t.h) % modulus

def State.round (s : State) (constant word : Nat) : State :=
  let sum₁ := rotateRight 6 s.e ^^^ rotateRight 11 s.e ^^^ rotateRight 25 s.e
  let choice := (s.e &&& s.f) ^^^ ((modulus - 1 - s.e) &&& s.g)
  let temp₁ := s.h + sum₁ + choice + constant + word
  let sum₀ := rotateRight 2 s.a ^^^ rotateRight 13 s.a ^^^ rotateRight 22 s.a
  let majority := (s.a &&& s.b) ^^^ (s.a &&& s.c) ^^^ (s.b &&& s.c)
  { a := (temp₁ + sum₀ + majority) % modulus
    b := s.a
    c := s.b
    d := s.c
    e := (s.d + temp₁) % modulus
    f := s.e
    g := s.f
    h := s.g }

/-- The words of the schedule from the last sixteen. -/
def nextWord (window : List Nat) : Nat :=
  let early := window.getD 1 0
  let late := window.getD 14 0
  (window.getD 0 0 + (rotateRight 7 early ^^^ rotateRight 18 early ^^^ early >>> 3) +
    window.getD 9 0 + (rotateRight 17 late ^^^ rotateRight 19 late ^^^ late >>> 10)) % modulus

def rounds : (constants window : List Nat) → State → State
  | constant :: constants, window, s =>
    rounds constants (window.tail ++ [nextWord window]) (s.round constant (window.getD 0 0))
  | [], _, s => s

/-- The words of the first `k` groups of four bytes. -/
def words : (k : Nat) → List UInt8 → List Nat
  | 0, _ => []
  | k + 1, bytes => beValue (bytes.take 4) :: words k (bytes.drop 4)

def compress : (blocks : Nat) → List UInt8 → State → State
  | 0, _, s => s
  | blocks + 1, bytes, s =>
    compress blocks (bytes.drop 64) (s.add (rounds roundConstants (words 16 bytes) s))

def pad (message : List UInt8) : List UInt8 :=
  message ++ [0x80] ++ List.replicate ((119 - message.length % 64) % 64) 0 ++
    beBytes 8 (8 * message.length)

def State.bytes (s : State) : List UInt8 :=
  beBytes 4 s.a ++ beBytes 4 s.b ++ beBytes 4 s.c ++ beBytes 4 s.d ++
    beBytes 4 s.e ++ beBytes 4 s.f ++ beBytes 4 s.g ++ beBytes 4 s.h

def sha256 (message : List UInt8) : List UInt8 :=
  (compress ((pad message).length / 64) (pad message) initial).bytes

theorem sha256_length (message : List UInt8) : (sha256 message).length = 32 := by
  simp [sha256, State.bytes]

example : beValue (sha256 [0x61, 0x62, 0x63]) =
    0xba7816bf8f01cfea414140de5dae2223b00361a396177a9cb410ff61f20015ad := by decide +kernel

/-- `HMAC` with this hash. -/
def hmac (key data : List UInt8) : List UInt8 :=
  let short := if key.length ≤ 64 then key else sha256 key
  let block := short ++ List.replicate (64 - short.length) 0
  sha256 (block.map (· ^^^ 0x5C) ++ sha256 (block.map (· ^^^ 0x36) ++ data))

theorem hmac_length (key data : List UInt8) : (hmac key data).length = 32 := sha256_length _

end MidnightSdk.Sha256
