import MidnightSdk.Crypto.Secp256k1
import MidnightSdk.Library.DerIntegers
import MidnightSdk.Library.Sha256
import MidnightSdk.Library.Cpp

/-!
# The ECDSA signer

Signatures on secp256k1 with a nonce made of a hash, and their verification, both
written out over the numbers and points of OpenSSL. A signature is two numbers of
32 bytes, or their DER.
-/

namespace MidnightSdk.Crypto

open BigEndian Cpp

open Secp256k1

/-- `EC_GROUP` of secp256k1, `SHA256`, and the two directions of `ECDSA_SIG`. Reading gives
the numbers and the bytes behind them. -/
structure EcdsaLibrary where
  curve : CurveGroup fieldPrime order
  sha256 : List UInt8 → Bytes 32
  i2d : (r s : ℕ) → List UInt8
  d2i : List UInt8 → Option ((ℕ × ℕ) × List UInt8)
  d2i_i2d {r s : ℕ} : r < 2 ^ 256 → s < 2 ^ 256 → d2i (i2d r s) = some ((r, s), [])

/-- The library on its own curve and with its own hash. -/
noncomputable def ecdsaOpenSsl : EcdsaLibrary where
  curve := Secp256k1.curve
  sha256 data := ⟨Sha256.sha256 data, Sha256.sha256_length data⟩
  i2d := DerIntegers.pair
  d2i := DerIntegers.readPair
  d2i_i2d := DerIntegers.readPair_pair

/-- `BN_mod_inverse` -/
def modInverse (a m : ℕ) : Option ℕ :=
  if a.Coprime m then some ((a : ZMod m)⁻¹).val else none

/-- A signer; the arrays of one without a key hold anything. -/
structure EcdsaSigner where
  privateKey : Bytes 32
  publicKey : Bytes 33
  hasKey : Bool
  deriving DecidableEq

namespace EcdsaSigner

/-- `bn_to_bytes` of this file. -/
def bnToBytes (bn size : ℕ) : Throws (Bytes size) :=
  if bn < 256 ^ size then .ok ⟨beBytes size bn, beBytes_length size bn⟩
  else .error (.runtimeError "BIGNUM does not fit in destination buffer")

def validScalar (value : ℕ) : Bool := value != 0 && value < order

theorem zeros_length : (List.replicate 32 (0 : UInt8)).length = 32 := List.length_replicate

theorem halves_length (front back : Bytes 32) : (front.1 ++ back.1).length = 64 := by
  rw [List.length_append, front.2, back.2]

variable (lib : EcdsaLibrary)

/-- The loop of `nonce_rfc6979_impl`, with `drawn` what `RAND_bytes` gives when every attempt
has failed; a draw that fails itself leaves the last hash. -/
def nonceLoop (message : List UInt8) (key hash : Bytes 32) (drawn : Option (Bytes 32)) :
    (attempts : ℕ) → Bytes 32 → Bytes 32
  | 0, result => drawn.getD result
  | attempts + 1, _ =>
    let ctr := 1000 - (attempts + 1)
    let result := lib.sha256 (key.1 ++ hash.1 ++ message ++ [UInt8.ofNat ctr])
    if 1 < beValue result.1 && beValue result.1 < order then result
    else nonceLoop message key hash drawn attempts result

def nonceRfc6979Impl (drawn : Option (Bytes 32)) (message : List UInt8) (key hash : Bytes 32) :
    Bytes 32 :=
  nonceLoop lib message key hash drawn 1000 ⟨List.replicate 32 0, zeros_length⟩

def derivePublicKeyImpl (privateKey : Bytes 32) : Throws (Bytes 33) :=
  let priv := beValue privateKey.1
  if !validScalar priv then .error (.runtimeError "Invalid ECDSA private key scalar")
  else
    match lib.curve.affine (priv • lib.curve.generator) with
    | none => .error (.runtimeError "ECDSA public key derivation failed")
    | some (x, y) => do
      let xBytes ← bnToBytes x 32
      let yBytes ← bnToBytes y 32
      let sign : UInt8 := if yBytes.1.getD 31 0 &&& 1 ≠ 0 then 0x03 else 0x02
      return ⟨sign :: xBytes.1, by rw [List.length_cons, xBytes.2]⟩

def signHashManual (hash privateKey nonce : Bytes 32) : Throws (Bytes 64) :=
  let d := beValue privateKey.1
  let e := beValue hash.1 % order
  let k := beValue nonce.1 % order
  if !validScalar d then .error (.runtimeError "Invalid ECDSA private key scalar")
  else if !validScalar k then .error (.runtimeError "Invalid ECDSA nonce scalar")
  else
    match lib.curve.affine (k • lib.curve.generator) with
    | none => .error (.runtimeError "Failed to compute ECDSA nonce point")
    | some (x, _) =>
      let r := x % order
      if !validScalar r then .error (.runtimeError "Invalid ECDSA r value")
      else
        match modInverse k order with
        | none => .error (.runtimeError "Failed to compute ECDSA s value")
        | some kinv =>
          let rd := r * d % order
          let sum := (e + rd) % order
          let s := kinv * sum % order
          if !validScalar s then .error (.runtimeError "Failed to compute ECDSA s value")
          else do
            let halfN := order >>> 1
            let s := if s > halfN then order - s else s
            let front ← bnToBytes r 32
            let back ← bnToBytes s 32
            return ⟨front.1 ++ back.1, halves_length front back⟩

def rawSignatureToDer (signature : Bytes 64) : List UInt8 :=
  lib.i2d (beValue (signature.1.take 32)) (beValue (signature.1.drop 32))

def verifyHashManual (hash : Bytes 32) (signature : Bytes 64) (pubKey : Bytes 33) : Bool :=
  let r := beValue (signature.1.take 32)
  let s := beValue (signature.1.drop 32)
  let e := beValue hash.1 % order
  if !validScalar r || !validScalar s then false
  else
    let x := beValue (pubKey.1.drop 1)
    let sign := pubKey.1.getD 0 0
    let yParity := sign == 0x03
    if sign != 0x02 && sign != 0x03 then false
    else
      match lib.curve.ofCompressed x yParity, modInverse s order with
      | some q, some w =>
        let u1 := e * w % order
        let u2 := r * w % order
        match lib.curve.affine (u1 • lib.curve.generator + u2 • q) with
        | some (rx, _) => rx % order == r
        | none => false
      | _, _ => false

/-- `set_private_key`: the signer afterwards, and how the call ended. The private key is stored
before its public key is derived. -/
def setPrivateKey (signer : EcdsaSigner) (privateKey : Bytes 32) : EcdsaSigner × Throws Unit :=
  match derivePublicKeyImpl lib privateKey with
  | .ok publicKey => (⟨privateKey, publicKey, true⟩, .ok ())
  | .error e => ({ signer with privateKey }, .error e)

def getPublicKey (signer : EcdsaSigner) : Bytes 33 := signer.publicKey

def signDeterministic (drawn : Option (Bytes 32)) (signer : EcdsaSigner) (message : List UInt8) :
    Throws (Bytes 64) :=
  if !signer.hasKey then .error (.runtimeError "ECDSA signer has no private key")
  else
    let hash := lib.sha256 message
    let nonce := nonceRfc6979Impl lib drawn message signer.privateKey hash
    signHashManual lib hash signer.privateKey nonce

def signRaw (drawn : Option (Bytes 32)) (signer : EcdsaSigner) (message : List UInt8) :
    Throws (Bytes 64) :=
  signDeterministic lib drawn signer message

def signDer (drawn : Option (Bytes 32)) (signer : EcdsaSigner) (message : List UInt8) :
    Throws (List UInt8) :=
  return rawSignatureToDer lib (← signRaw lib drawn signer message)

/-- `verify_raw`; the sizes it checks first are those of its arrays. -/
def verifyRaw (message : List UInt8) (signature : Bytes 64) (pubKey : Bytes 33) : Bool :=
  verifyHashManual lib (lib.sha256 message) signature pubKey

def verifyDer (message derSig : List UInt8) (pubKey : Bytes 33) : Throws Bool :=
  match lib.d2i derSig with
  | none => .ok false
  | some ((r, s), behind) =>
    if behind ≠ [] then .ok false
    else if 256 ^ 32 ≤ r ∨ 256 ^ 32 ≤ s then .ok false
    else do
      let front ← bnToBytes r 32
      let back ← bnToBytes s 32
      return verifyRaw lib message
        ⟨front.1 ++ back.1, halves_length front back⟩ pubKey

end EcdsaSigner

end MidnightSdk.Crypto
