import MidnightSdk.Library.Edwards25519
import MidnightSdk.Library.Sha512

/-!
# Ed25519

Signatures on Edwards25519 as the usual library makes and checks them: a key is a seed
of 32 bytes with its public key behind it, and points of small order are refused.
-/

namespace MidnightSdk.Ed25519

open Edwards25519 LittleEndian

/-- The scalar of a seed, from the first half of its hash. -/
def scalar (seed : List UInt8) : Nat :=
  leValue ((Sha512.sha512 seed).take 32) % 2 ^ 254 / 8 * 8 + 2 ^ 254

def publicKey (seed : List UInt8) : List UInt8 := encode (multiple base 255 (scalar seed))

def challenge (R key message : List UInt8) : Nat :=
  leValue (Sha512.sha512 (R ++ key ++ message)) % order

/-- `crypto_sign_detached` -/
def sign (message secretKey : List UInt8) : List UInt8 :=
  let seed := secretKey.take 32
  let key := secretKey.drop 32
  let nonce := leValue (Sha512.sha512 ((Sha512.sha512 seed).drop 32 ++ message)) % order
  let R := encode (multiple base 253 nonce)
  R ++ leBytes 32 ((nonce + challenge R key message * scalar seed) % order)

/-- A point that eight times itself is zero. -/
def smallOrder (P : Point) : Bool :=
  let P := multiple P 4 8
  P.X % p == 0 && P.Y % p == P.Z % p

/-- `crypto_sign_verify_detached` -/
def verify (signature message key : List UInt8) : Bool :=
  let R := signature.take 32
  let s := leValue (signature.drop 32)
  match decode R, decode key with
  | some nonce, some A =>
    s < order && !smallOrder nonce && !smallOrder A && leValue key % 2 ^ 255 < p &&
      encode (add (multiple base 253 s)
        (multiple (opposite A) 253 (challenge R key message))) == R
  | _, _ => false

theorem publicKey_length (seed : List UInt8) : (publicKey seed).length = 32 := encode_length _

theorem sign_length (message secretKey : List UInt8) : (sign message secretKey).length = 64 := by
  simp [sign, encode_length]

example : leValue (publicKey (leBytes 32
      0x607fae1c03ac3b701969327b69c54944c42cec92f44a84ba605afdef9db1619d)) =
    0x1a5107f7681a02af2523a6daf372e10e3a0764c9d3fe4bd5b70ab18201985ad7 := by decide +kernel

end MidnightSdk.Ed25519
