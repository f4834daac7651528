import MidnightSdk.Crypto.EncryptedKey
import MidnightSdk.Library.Cpp
import MidnightSdk.Library.Handle

/-!
# Encryption of a private key

A key is encrypted with AES-256-GCM under a key derived from a password. The
cipher is driven through the calls on an EVP context, each with a result code of
its own that is compared by hand.
-/

namespace MidnightSdk.Crypto

open Cpp Handle

structure KeyEncryptionConfig where
  argon2Opslimit : UInt32 := 3
  argon2Memlimit : UInt64 := 64 * 1024 * 1024
  deriving DecidableEq, Repr

/-- `static_cast<int>` of a size. -/
def toInt (size : Nat) : Int := Int.bmod size (2 ^ 32)

/-- The calls on a cipher context; a pointer is the bytes behind it, and a length is
what the call is told of them. -/
inductive EvpCall
  | encryptInitCipher
  | encryptInitKey (key iv : List UInt8)
  | encryptUpdate (input : List UInt8) (length : Int)
  | encryptFinal
  | decryptInitCipher
  | decryptInitKey (key iv : List UInt8)
  | decryptUpdate (input : List UInt8) (length : Int)
  | decryptFinal
  | setIvLen (length : Int)
  | getTag (length : Int)
  | setTag (tag : List UInt8) (length : Int)
  deriving DecidableEq, Repr

/-- The libraries the module is built with, `hasArgon2` being `MIDNIGHT_HAS_ARGON2`. A
derivation answers with its code and what it leaves in the buffer of the key. -/
structure CryptoLibraries where
  hasArgon2 : Bool
  argon2Hash : (opslimit : UInt32) → (memlimit : UInt64) → (password salt : List UInt8) →
    Answer (Bytes KeyEncryptionConfig.keySize)
  sha256 : Bool
  pbkdf2 : (password : List UInt8) → (passwordLength : Int) → (salt : List UInt8) →
    (saltLength : Int) → (iterations : Nat) → Answer (Bytes KeyEncryptionConfig.keySize)
  contextNew : Bool
  evp : List EvpCall → EvpCall → Answer (List UInt8)

/-- What `RAND_bytes` answers to one request. -/
abbrev RandBytes (count : Nat) : Type := Answer (Bytes count)

/-- Bytes a call writes into a buffer. -/
def writeAt (buffer : List UInt8) (offset : Nat) (bytes : List UInt8) : List UInt8 :=
  buffer.take offset ++ (bytes ++ buffer.drop (offset + bytes.length))

/-- `std::vector::resize` -/
def resize (bytes : List UInt8) (size : Nat) : List UInt8 :=
  bytes.take size ++ List.replicate (size - bytes.length) 0

def zeroBytes (size : Nat) : List UInt8 := List.replicate size 0

namespace KeyEncryption

def generateRandomBytes {count : Nat} (random : RandBytes count) : Throws (List UInt8) :=
  if random.code ≠ 1 then
    .error (.runtimeError "RAND_bytes failed while generating cryptographic random bytes")
  else .ok random.out.1

variable (lib : CryptoLibraries)

/-- Without Argon2 the configuration is not looked at. -/
def deriveKeyArgon2id (password salt : List UInt8) (config : KeyEncryptionConfig) :
    Option (List UInt8) :=
  if lib.hasArgon2 then
    let result := lib.argon2Hash config.argon2Opslimit config.argon2Memlimit password salt
    if result.code ≠ 0 then none else some result.out.1
  else if !lib.sha256 then none
  else
    let result := lib.pbkdf2 password (toInt password.length) salt (toInt salt.length) 100000
    if result.code ≠ 1 then none else some result.out.1

/-- `EVP_CIPHER_CTX_new`; a fresh context has no calls behind it. -/
def newContext : Option (List EvpCall) := if lib.contextNew then some [] else none

/-- What is drawn for one encryption, the salt first. -/
structure Drawn where
  salt : RandBytes KeyEncryptionConfig.saltSize
  nonce : RandBytes KeyEncryptionConfig.nonceSize

def encryptKey (random : Drawn) (keyBytes password : List UInt8) (config : KeyEncryptionConfig) :
    Option EncryptedKey :=
  if password.isEmpty then none
  else do
    let salt ← (generateRandomBytes random.salt).toOption
    let nonce ← (generateRandomBytes random.nonce).toOption
    let derivedKey ← deriveKeyArgon2id lib password salt config
    let ctx ← newContext lib
    let (_, ctx) ← require lib.evp 1 ctx .encryptInitCipher
    let (_, ctx) ← require lib.evp 1 ctx (.setIvLen KeyEncryptionConfig.nonceSize)
    let (_, ctx) ← require lib.evp 1 ctx (.encryptInitKey derivedKey nonce)
    -- what these two write goes to the local `ciphertext`, which is not used again
    let (written, ctx) ← require lib.evp 1 ctx (.encryptUpdate keyBytes (toInt keyBytes.length))
    let (last, ctx) ← require lib.evp 1 ctx .encryptFinal
    let (tag, _) ← require lib.evp 1 ctx (.getTag KeyEncryptionConfig.tagSize)
    return {
      salt, nonce
      ciphertext := resize [] (written.length + last.length)
      tag := writeAt (zeroBytes KeyEncryptionConfig.tagSize) 0 tag }

def decryptKey (encrypted : EncryptedKey) (password : List UInt8) : Option (List UInt8) :=
  if encrypted.version ≠ KeyEncryptionConfig.currentVersion then none
  else if encrypted.ciphertext.isEmpty then none
  else do
    let derivedKey ← deriveKeyArgon2id lib password encrypted.salt {}
    let ctx ← newContext lib
    let (_, ctx) ← require lib.evp 1 ctx .decryptInitCipher
    let (_, ctx) ← require lib.evp 1 ctx (.setIvLen (toInt encrypted.nonce.length))
    let (_, ctx) ← require lib.evp 1 ctx (.decryptInitKey derivedKey encrypted.nonce)
    let (_, ctx) ← require lib.evp 1 ctx (.setTag encrypted.tag (toInt encrypted.tag.length))
    let (written, ctx) ← require lib.evp 1 ctx
      (.decryptUpdate encrypted.ciphertext (toInt encrypted.ciphertext.length))
    -- the last call's code is compared with 0 where all others are with 1
    let final := lib.evp ctx .decryptFinal
    if final.code < 0 then none
    else
      let plaintext := writeAt (zeroBytes encrypted.ciphertext.length) 0 written
      return resize (writeAt plaintext written.length final.out) (written.length + final.out.length)

def verifyPassword (encrypted : EncryptedKey) (password : List UInt8) : Bool :=
  (decryptKey lib encrypted password).isSome

def decryptHexKey (encrypted : EncryptedKey) (password : List UInt8) : Option (List Char) :=
  (decryptKey lib encrypted password).map fun decrypted => "0x".toList ++ Util.bytesToHex decrypted

end KeyEncryption

end MidnightSdk.Crypto
