import MidnightSdk.Crypto.KeyEncryption
import MidnightSdk.Util.HexDecoders

/-!
# The key manager

Keys are generated for five schemes, or imported from a phrase, and kept as hex
text. A key file is the JSON object of the encrypted private key, a mark, and a
line for each of the other fields.
-/

namespace MidnightSdk.Signing

open Cpp Crypto TextSearch

/-- A number that is cast to the type need not have a name. -/
inductive KeyType where
  | sr25519
  | ed25519
  | ecdsa
  | bip340
  | bls
  | unnamed (value : Int)
  deriving DecidableEq, Repr

namespace KeyType

def toInt : KeyType → Int
  | sr25519 => 0
  | ed25519 => 1
  | ecdsa => 2
  | bip340 => 3
  | bls => 4
  | unnamed value => value

/-- `static_cast<KeyType>` -/
def ofInt : Int → KeyType
  | 0 => sr25519
  | 1 => ed25519
  | 2 => ecdsa
  | 3 => bip340
  | 4 => bls
  | value => unnamed value

/-- The enumerators. -/
def named : List KeyType := [sr25519, ed25519, ecdsa, bip340, bls]

end KeyType

structure Keypair where
  type : KeyType
  publicKey : List Char
  privateKey : List Char
  seed : List UInt8
  deriving DecidableEq, Repr

/-- `"0x"` and the digits of the bytes, as all keys are kept. -/
def prefixedHex (bytes : List UInt8) : List Char := ['0', 'x'] ++ Util.bytesToHex bytes

namespace KeyManager

/-! ## Making keys -/

def keypair (type : KeyType) (publicKey privateKey : List UInt8) (seed : List UInt8) : Keypair where
  type
  publicKey := prefixedHex publicKey
  privateKey := prefixedHex privateKey
  seed

/-- A generator whose exceptions are caught; the signer answers with the private key first. -/
def caught (type : KeyType) {priv pub : Nat} (answer : Throws (Bytes priv × Bytes pub)) :
    Option Keypair :=
  match answer with
  | .ok (privateKey, publicKey) => some (keypair type publicKey.1 privateKey.1 [])
  | .error _ => none

variable (hasSodium : Bool)

def generateSr25519Key (generateKeypair : Throws (Bytes 64 × Bytes 32)) :
    Throws (Option Keypair) :=
  if !hasSodium then
    .error (.runtimeError "Cannot generate sr25519 key: libsodium crypto is unavailable")
  else .ok (caught .sr25519 generateKeypair)

/-- This one catches nothing, and its signer answers with the public key first. -/
def generateEd25519Key (generateKeypair : Throws (Bytes 32 × Bytes 64)) :
    Throws (Option Keypair) :=
  if !hasSodium then
    .error (.runtimeError "Cannot generate ed25519 key: libsodium crypto is unavailable")
  else do
    let (publicKey, privateKey) ← generateKeypair
    return some (keypair .ed25519 publicKey.1 privateKey.1 [])

def generateBip340Key (generateKeypair : Throws (Bytes 32 × Bytes 32)) : Option Keypair :=
  caught .bip340 generateKeypair

def generateEcdsaKey (generateKeypair : Throws (Bytes 32 × Bytes 33)) : Option Keypair :=
  caught .ecdsa generateKeypair

def generateBlsKey (generateKeypair : Throws (Bytes 32 × Bytes 48)) : Option Keypair :=
  caught .bls generateKeypair

/-- The two libraries an import uses: `HMAC` with `EVP_sha256`, and `Ed25519Signer`. -/
structure SeedLibraries where
  hmacSha256 : (key data : List UInt8) → Bytes 32
  keypairFromSeed : Bytes 32 → Throws (Bytes 32 × Bytes 64)

def deriveSeedBytesFromPhrase (lib : SeedLibraries) (seedPhrase : List UInt8) : Bytes 32 :=
  lib.hmacSha256 (literal "midnight-seed-derivation") seedPhrase

def importFromSeed (lib : SeedLibraries) (seedPhrase : List UInt8) (type : KeyType) :
    Throws (Option Keypair) :=
  if !hasSodium then
    .error (.runtimeError "Cannot import from seed: libsodium crypto is unavailable")
  else do
    let derivedSeed := deriveSeedBytesFromPhrase lib seedPhrase
    let (publicKey, privateKey) ← lib.keypairFromSeed derivedSeed
    return some (keypair type publicKey.1 privateKey.1 seedPhrase)

/-- The keypairs the manager makes. -/
inductive Produced : Keypair → Prop
  | sr25519 {hasSodium answer k} (h : generateSr25519Key hasSodium answer = .ok (some k)) :
      Produced k
  | ed25519 {hasSodium answer k} (h : generateEd25519Key hasSodium answer = .ok (some k)) :
      Produced k
  | bip340 {answer k} (h : generateBip340Key answer = some k) : Produced k
  | ecdsa {answer k} (h : generateEcdsaKey answer = some k) : Produced k
  | bls {answer k} (h : generateBlsKey answer = some k) : Produced k
  | imported {hasSodium lib seedPhrase type k} (hnamed : type ∈ KeyType.named)
      (h : importFromSeed hasSodium lib seedPhrase type = .ok (some k)) : Produced k

/-! ## Key files -/

/-- `encrypt_key` and `decrypt_key` of `KeyEncryption`, with what the former draws. -/
structure KeyCipher where
  Draw : Type
  encryptKey : Draw → (keyBytes password : List UInt8) → KeyEncryptionConfig → Option EncryptedKey
  decryptKey : EncryptedKey → (password : List UInt8) → Option (List UInt8)

/-- The loop of `hex_to_bytes` in `key_encryption.cpp`. -/
def nibblePairs : List Char → Option (List UInt8)
  | high :: low :: rest =>
    let hi := Zk.hexNibble high
    let lo := Zk.hexNibble low
    if hi < 0 ∨ lo < 0 then none
    else (nibblePairs rest).map (UInt8.ofNat (hi.toNat <<< 4 ||| lo.toNat) :: ·)
  | _ => some []

def hexToBytes (hex : List Char) : Option (List UInt8) :=
  let cleanHex := if ['0', 'x'].isPrefixOf hex then hex.drop 2 else hex
  if cleanHex.length % 2 ≠ 0 then none else nibblePairs cleanHex

variable (cipher : KeyCipher)

def encryptHexKey (draw : cipher.Draw) (hexKey : List Char) (password : List UInt8)
    (config : KeyEncryptionConfig) : Option EncryptedKey := do
  let keyBytes ← hexToBytes hexKey
  cipher.encryptKey draw keyBytes password config

def decryptHexKey (encrypted : EncryptedKey) (password : List UInt8) : Option (List Char) :=
  (cipher.decryptKey encrypted password).map prefixedHex

/-- The file behind a path. What is written to it is not checked to have arrived. -/
structure KeyFile where
  opens : Bool
  kept : Nat

def saveConfig : KeyEncryptionConfig where
  argon2Opslimit := 4
  argon2Memlimit := 128 * 1024 * 1024

/-- `[[KEY_METADATA]]` -/
def metadataMark : List Char := "[[KEY_METADATA]]".toList

/-- What is written. The line of the seed holds the private key's record. -/
def fileText (encrypted : EncryptedKey) (keypair : Keypair) : List Char :=
  encrypted.toJson ++ ['\n'] ++ metadataMark ++ ['\n'] ++
    ("type=".toList ++ keypair.type.toInt.repr.toList ++ ['\n']) ++
    ("public_key=".toList ++ keypair.publicKey ++ ['\n']) ++
    (if keypair.seed.isEmpty then [] else "seed_encrypted=".toList ++ encrypted.toJson ++ ['\n'])

/-- `save_key`: its answer, and what the file holds if it was opened. -/
def saveKey (draw : cipher.Draw) (file : KeyFile) (keypair : Keypair) (password : List UInt8) :
    Bool × Option (List Char) :=
  match encryptHexKey cipher draw keypair.privateKey password saveConfig with
  | none => (false, none)
  | some encrypted =>
    if !file.opens then (false, none)
    else (true, some ((fileText encrypted keypair).take file.kept))

/-- What has been read of the metadata; the seed's record is not used again. -/
structure Metadata where
  keypair : Keypair
  encryptedSeedJson : List Char

def Metadata.empty : Metadata := ⟨⟨.sr25519, [], [], []⟩, []⟩

def readLine (state : Metadata) (line : List Char) : Throws Metadata :=
  match line.idxOf? '=' with
  | none => return state
  | some eqPos =>
    let key := line.take eqPos
    let value := line.drop (eqPos + 1)
    if key = "type".toList then do
      let number ← Stoull.stoi value
      return { state with keypair := { state.keypair with type := .ofInt number } }
    else if key = "public_key".toList then
      return { state with keypair := { state.keypair with publicKey := value } }
    else if key = "seed_encrypted".toList then return { state with encryptedSeedJson := value }
    else return state

/-- The loop over `std::getline`; a last line that is empty has no `=` either. -/
def readMetadata (metaSection : List Char) : Throws Metadata :=
  (metaSection.splitOn '\n').foldlM readLine .empty

/-- `load_key`, of the file's content if it can be opened. -/
def loadKey (content : Option (List Char)) (password : List UInt8) : Option Keypair := do
  let content ← content
  let metaPos ← find metadataMark content
  let encryptedJson := content.take metaPos
  let metaSection := content.drop (metaPos + 16)
  let state ← (readMetadata metaSection).toOption
  let encrypted ← EncryptedKey.fromJson encryptedJson
  let decrypted ← decryptHexKey cipher encrypted password
  return { state.keypair with privateKey := decrypted }

end KeyManager

end MidnightSdk.Signing
