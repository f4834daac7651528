import MidnightSdk.Crypto.Secp256k1
import MidnightSdk.Library.Sha256
import MidnightSdk.Library.StreamHex
import MidnightSdk.Util.Hex

/-!
# The BIP-340 signer

Schnorr signatures on secp256k1. Points and numbers are those of OpenSSL, the
hashes any functions. A signature is 32 bytes of an x coordinate and 32 bytes of
a scalar, and both it and a key are handed over as hex text.
-/

namespace MidnightSdk.Crypto

open BigEndian Cpp HexText

open Secp256k1

/-- `EC_GROUP` of secp256k1, `EVP_sha256` and `HMAC` with it. -/
structure SignerLibrary where
  curve : CurveGroup fieldPrime order
  sha256 : List UInt8 → Bytes 32
  hmacSha256 : (key data : List UInt8) → Bytes 32

/-- The library on its own curve and with its own hashes. -/
noncomputable def openSsl : SignerLibrary where
  curve := Secp256k1.curve
  sha256 data := ⟨Sha256.sha256 data, Sha256.sha256_length data⟩
  hmacSha256 key data := ⟨Sha256.hmac key data, Sha256.sha256_length _⟩

/-- What is read without having been written: the variables of the hex readers, and the byte
behind the array `V`. -/
structure Unwritten where
  byte : Nat → UInt32
  behindV : UInt8

/-- `BN_mod_sub` -/
def modSub (a b m : ℕ) : ℕ := (((a : ℤ) - b) % m).toNat

/-- `memset` to zero. -/
def memsetZero (size : Nat) : Bytes size := ⟨List.replicate size 0, List.length_replicate⟩

namespace Bip340Signer

def secp256k1N : List UInt8 := [
  0xFF, 0xFF, 0xFF, 0xFF, 0xFF, 0xFF, 0xFF, 0xFF,
  0xFF, 0xFF, 0xFF, 0xFF, 0xFF, 0xFF, 0xFF, 0xFE,
  0xBA, 0xAE, 0xDC, 0xE6, 0xAF, 0x48, 0xA0, 0x3B,
  0xBF, 0xD2, 0x5E, 0x8C, 0xD0, 0x36, 0x41, 0x41]

/-- `bn_to_bytes`; a number that is too long leaves zeros. -/
def bnToBytes (bn size : ℕ) : Bytes size :=
  if bn < 256 ^ size then ⟨beBytes size bn, beBytes_length size bn⟩ else memsetZero size

/-- `if (s.substr(0, 2) == "0x") s = s.substr(2)` -/
def stripPrefix (text : List Char) : List Char :=
  if ['0', 'x'].isPrefixOf text then text.drop 2 else text

/-- `hex_to_bytes` of this file. -/
def hexToBytes (unset : Nat → UInt32) (hex : List Char) (outLen : Nat) : Option (List UInt8) :=
  let clean := stripPrefix hex
  if clean.length ≠ outLen * 2 then none else some (StreamHex.readPairs unset 0 clean)

variable (lib : SignerLibrary)

def taggedHash (msg tag : List UInt8) : Bytes 32 :=
  let tagHash := (lib.sha256 tag).1
  lib.sha256 (tagHash ++ tagHash ++ msg)

/-- `point_mul_base`: both coordinates, and whether the second is odd. -/
def pointMulBase (scalar : ℕ) : Option (Bytes 32 × Bytes 32 × Bool) :=
  (lib.curve.affine (scalar • lib.curve.generator)).map fun (x, y) =>
    (bnToBytes x 32, bnToBytes y 32, decide (y % 2 = 1))

/-- `derive_pubkey_internal`: a point of even parity is negated, and its x read again. -/
def derivePubkeyInternal (privateKey : Bytes 32) : Bytes 32 :=
  match pointMulBase lib (beValue privateKey.1) with
  | none => memsetZero 32
  | some (pk, _, true) => pk
  | some (pk, y, false) =>
    let yBn := modSub fieldPrime (beValue y.1) fieldPrime
    match (lib.curve.ofAffine (beValue pk.1) yBn).bind lib.curve.affine with
    | some (x, _) => bnToBytes x 32
    | none => bnToBytes 0 32

/-- The first byte loses its top bit, the last byte its two low bits. -/
def clamp (scalar : List UInt8) : List UInt8 :=
  (scalar.modify 0 (· &&& 0x7F)).modify 31 (· &&& 0xFC)

def clampBytes (scalar : Bytes 32) : Bytes 32 :=
  ⟨clamp scalar.1, by simp only [clamp, List.length_modify, scalar.2]⟩

/-- The last loop of `nonce_rfc6979`. When all attempts fail the nonce is left as it was. -/
def nonceLoop (behindV : UInt8) : Nat → (K V : Bytes 32) → Bytes 32
  | 0, _, _ => memsetZero 32
  | attempts + 1, K, V =>
    let V := lib.hmacSha256 K.1 V.1
    if V.1.any (· != 0) then clampBytes V
    else nonceLoop behindV attempts (lib.hmacSha256 K.1 (V.1 ++ [behindV])) V

def nonceRfc6979 (behindV : UInt8) (message privateKey xOnlyPubkey : Bytes 32) : Bytes 32 :=
  let V : Bytes 32 := ⟨List.replicate 32 1, List.length_replicate⟩
  let K := lib.hmacSha256 (memsetZero 32).1
    (V.1 ++ [0x00] ++ privateKey.1 ++ xOnlyPubkey.1 ++ message.1)
  let V := lib.hmacSha256 K.1 V.1
  let K := lib.hmacSha256 K.1 (V.1 ++ [0x01] ++ privateKey.1 ++ xOnlyPubkey.1 ++ message.1)
  let V := lib.hmacSha256 K.1 V.1
  nonceLoop lib behindV 100 K V

end Bip340Signer

/-- A signer; the keys of one without a key are not looked at. -/
structure Bip340Signer where
  secretKey : Bytes 32
  publicKey : Bytes 32
  hasKey : Bool
  deriving DecidableEq

namespace Bip340Signer

variable (lib : SignerLibrary)

/-- `set_key`: the signer afterwards. -/
def setKey (secretKey : Bytes 32) : Throws Bip340Signer :=
  let clamped := clampBytes secretKey
  if clamped.1.all (· == 0) then .error (.invalidArgument "BIP-340 private key cannot be zero")
  else .ok {
    secretKey := clamped
    publicKey := derivePubkeyInternal lib clamped
    hasKey := true }

/-- The constructor from hex text. -/
def ofHex (unwritten : Unwritten) (hexSk : List Char) : Throws Bip340Signer :=
  let cleanHex := stripPrefix hexSk
  if h : cleanHex.length ≠ 64 then
    .error (.invalidArgument "BIP-340 private key must be 32 bytes")
  else setKey lib ⟨StreamHex.readPairs unwritten.byte 0 cleanHex, by
    rw [StreamHex.readPairs_length, not_not.mp h]⟩

def derivePublicKey (secretKey : Bytes 32) : Bytes 32 := derivePubkeyInternal lib secretKey

/-- The challenge `e`: a hash of both x coordinates and the hash of the message. -/
def challenge (Rx Px : List UInt8) (message : List UInt8) : ℕ :=
  let msgHash := taggedHash lib message (literal "Midnight/transaction")
  beValue (lib.sha256 (Rx ++ Px ++ msgHash.1)).1 % beValue secp256k1N

def publicKeyToHex (publicKey : Bytes 32) : List Char := Util.bytesToHex publicKey.1

def signMessage (unwritten : Unwritten) (signer : Bip340Signer) (message : List UInt8) :
    Throws (List Char) :=
  if !signer.hasKey then .error (.runtimeError "BIP-340 signer has no key set")
  else
    let msgHash := taggedHash lib message (literal "Midnight/transaction")
    let nonce := nonceRfc6979 lib unwritten.behindV msgHash signer.secretKey signer.publicKey
    let kOrig := beValue nonce.1
    match pointMulBase lib kOrig with
    | none => .error (.runtimeError "Failed to compute R")
    | some (Rx, _, parity) =>
      let n := beValue secp256k1N
      let k := if parity then modSub order kOrig order else kOrig
      let e := challenge lib Rx.1 signer.publicKey.1 message
      let d := beValue signer.secretKey.1
      let s := (k + e * d % n) % n
      .ok (Util.bytesToHex (Rx.1 ++ (bnToBytes s 32).1))

/-- One round of the verifier's loop. The coordinates of the point at infinity are not
written, and the fresh number they are compared through is zero. -/
def acceptsWith (e s Rx Px : ℕ) (parityP : Bool) : Bool :=
  match lib.curve.ofCompressed Px parityP with
  | none => false
  | some P =>
    let R := s • lib.curve.generator + -(e • P)
    let Rx' := ((lib.curve.affine R).map Prod.fst).getD 0
    Rx' == Rx

/-- The parts of a signature text. -/
def readSignature (unset : Nat → UInt32) (signatureHex : List Char) :
    Option (List UInt8 × List UInt8) :=
  let sigHex := stripPrefix signatureHex
  if sigHex.length ≠ 128 then none
  else do
    let RxBytes ← hexToBytes unset (sigHex.take 64) 32
    let sBytes ← hexToBytes (fun i => unset (64 + i)) (sigHex.drop 64) 32
    return (RxBytes, sBytes)

def readPublicKey (unset : Nat → UInt32) (publicKeyHex : List Char) : Option (List UInt8) :=
  let pkHex := stripPrefix publicKeyHex
  if pkHex.length ≠ 64 then none else hexToBytes (fun i => unset (128 + i)) pkHex 32

def verifySignature (unwritten : Unwritten) (message : List UInt8)
    (signatureHex publicKeyHex : List Char) : Bool :=
  match readSignature unwritten.byte signatureHex, readPublicKey unwritten.byte publicKeyHex with
  | some (RxBytes, sBytes), some PxBytes =>
    let e := challenge lib RxBytes PxBytes message
    let s := beValue sBytes
    let Rx := beValue RxBytes
    let Px := beValue PxBytes
    acceptsWith lib e s Rx Px false || acceptsWith lib e s Rx Px true
  | _, _ => false

end Bip340Signer

end MidnightSdk.Crypto
