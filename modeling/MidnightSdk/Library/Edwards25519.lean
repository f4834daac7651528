import MidnightSdk.Library.LittleEndian
import MidnightSdk.Library.PrattPrimes

/-!
# Edwards25519

The twisted Edwards curve `y ^ 2 - x ^ 2 = 1 + d x ^ 2 y ^ 2` in extended coordinates, and
two ways of writing its points in 32 bytes: by y and the parity of x, or as elements of
the Ristretto group.
-/

namespace MidnightSdk.Edwards25519

open LittleEndian

/-- The prime of the field. -/
def p : Nat := 0x7fffffffffffffffffffffffffffffffffffffffffffffffffffffffffffffed

def d : Nat := 0x52036cee2b6ffe738cc740797779e89800700a4d4141d8ab75eb4dca135978a3

/-- A square root of `-1`. -/
def sqrtM1 : Nat := 0x2b8324804fc1df0b2b4d00993dfbd7a72f431806ad2fe478c4ee1b274a0ea0b0

/-- The inverse of a square root of `-1 - d`. -/
def invSqrtAMinusD : Nat := 0x786c8905cfaffca216c27b91fe01d8409d2f16175a4172be99c8fdaa805d40ea

/-- The order of the base point. -/
def order : Nat := 0x1000000000000000000000000000000014def9dea2f79cd65812631a5cf5d3ed

def neg (a : Nat) : Nat := p - a % p

def inverse (a : Nat) : Nat := powMod p 255 a (p - 2)

/-- The one of a number and its opposite that is even. -/
def absolute (a : Nat) : Nat := if a % p % 2 = 1 then neg a else a % p

/-- A square root of `u / v`, and whether there is one. -/
def sqrtRatio (u v : Nat) : Bool × Nat :=
  let v3 := v * v % p * v % p
  let v7 := v3 * v3 % p * v % p
  let r := u * v3 % p * powMod p 255 (u * v7 % p) ((p - 5) / 8) % p
  let check := v * r % p * r % p
  if check = u % p then (true, absolute r)
  else if check = neg u then (true, absolute (sqrtM1 * r))
  else if check = neg (u * sqrtM1) then (false, absolute (sqrtM1 * r))
  else (false, absolute r)

structure Point where
  X : Nat
  Y : Nat
  Z : Nat
  T : Nat

def zero : Point := ⟨0, 1, 1, 0⟩

def base : Point where
  X := 0x216936d3cd6e53fec0a4e231fdd6dc5c692cc7609525a7b2c9562d608f25d51a
  Y := 0x6666666666666666666666666666666666666666666666666666666666666658
  Z := 1
  T := 0x67875f0fd78b766566ea4e8e64abe37d20f09f80775152f56dde8ab3a5b7dda3

def add (P Q : Point) : Point :=
  let A := (P.Y + neg P.X) * (Q.Y + neg Q.X) % p
  let B := (P.Y + P.X) * (Q.Y + Q.X) % p
  let C := 2 * P.T * Q.T % p * d % p
  let D := 2 * P.Z * Q.Z % p
  let E := (B + neg A) % p
  let F := (D + neg C) % p
  let G := (D + C) % p
  let H := (B + A) % p
  { X := E * F % p
    Y := G * H % p
    Z := F * G % p
    T := E * H % p }

/-- The multiple by a number of at most `bits` bits. -/
def multiple (P : Point) : (bits k : Nat) → Point
  | 0, _ => zero
  | bits + 1, k =>
    let half := multiple P bits (k / 2)
    let twice := add half half
    if k % 2 = 1 then add twice P else twice

def opposite (P : Point) : Point := { P with X := neg P.X, T := neg P.T }

/-! ## Points as bytes -/

def encode (P : Point) : List UInt8 :=
  let inv := inverse P.Z
  leBytes 32 (P.Y * inv % p + 2 ^ 255 * (P.X * inv % p % 2))

/-- The point of 32 bytes; `y` may be written as `y + p`. -/
def decode (bytes : List UInt8) : Option Point :=
  let y := leValue bytes % 2 ^ 255 % p
  let parity := leValue bytes / 2 ^ 255
  let (found, x) := sqrtRatio (y * y + neg 1) (d * (y * y % p) + 1)
  if found then
    let x := if x % 2 = parity then x else neg x
    some ⟨x, y, 1, x * y % p⟩
  else none

def ristrettoEncode (P : Point) : List UInt8 :=
  let u₁ := (P.Z + P.Y) * (P.Z + neg P.Y) % p
  let u₂ := P.X * P.Y % p
  let inv := (sqrtRatio 1 (u₁ * u₂ % p * u₂ % p)).2
  let den₁ := inv * u₁ % p
  let den₂ := inv * u₂ % p
  let zInv := den₁ * den₂ % p * P.T % p
  let rotate := P.T * zInv % p % 2 = 1
  let x := if rotate then P.Y * sqrtM1 % p else P.X
  let y := if rotate then P.X * sqrtM1 % p else P.Y
  let denInv := if rotate then den₁ * invSqrtAMinusD % p else den₂
  let y := if x * zInv % p % 2 = 1 then neg y else y
  leBytes 32 (absolute (denInv * (P.Z + neg y)))

/-- Whether 32 bytes are what some point is written as in the Ristretto group. -/
def ristrettoValid (bytes : List UInt8) : Bool :=
  let s := leValue bytes
  let u₁ := 1 + neg (s * s)
  let u₂ := 1 + s * s % p
  let v := neg (d * (u₁ * u₁ % p)) + neg (u₂ * u₂)
  let (found, inv) := sqrtRatio 1 (v * (u₂ * u₂ % p))
  let denX := inv * u₂ % p
  let denY := inv * denX % p * v % p
  let x := absolute (2 * s * denX)
  let y := u₁ * denY % p
  s < p && s % 2 == 0 && found && x * y % p % 2 == 0 && y != 0

theorem encode_length (P : Point) : (encode P).length = 32 := leBytes_length 32 _

theorem ristrettoEncode_length (P : Point) : (ristrettoEncode P).length = 32 := leBytes_length 32 _

example : leValue (ristrettoEncode base) =
    0x762d8de04559a6b68ddd82a56a0be3585f5100c561a984a8714ebc6a0aaef2e2 := by decide +kernel

example : ristrettoValid (ristrettoEncode base) = true := by decide +kernel

end MidnightSdk.Edwards25519
