import MidnightSdk.Library.Cpp

/-!
# Encryption of the wallet state

A password is stretched to a key, and the state is sealed under it and put
behind a version, the salt and the nonce. The primitives are those of the
cryptographic library, with what it documents of them.
-/

namespace MidnightSdk.Crypto

open Cpp

def keySize : Nat := 32
def nonceSize : Nat := 24
def tagSize : Nat := 16
def saltSize : Nat := 16
def currentVersion : UInt8 := 1

/-- `crypto_pwhash`, `crypto_secretbox_easy` and `crypto_secretbox_open_easy`;
`none` is a result code other than zero. -/
structure Sodium where
  pwhash : (password salt : List UInt8) → Option (List UInt8)
  secretbox : (plaintext nonce key : List UInt8) → Option (List UInt8)
  secretboxOpen : (ciphertext nonce key : List UInt8) → Option (List UInt8)
  pwhash_length {password salt key} : pwhash password salt = some key → key.length = keySize
  secretbox_length {plaintext nonce key ciphertext} :
    secretbox plaintext nonce key = some ciphertext →
      ciphertext.length = plaintext.length + tagSize
  open_secretbox {plaintext nonce key ciphertext} :
    secretbox plaintext nonce key = some ciphertext →
      secretboxOpen ciphertext nonce key = some plaintext

/-- What `randombytes_buf` fills in for one save. -/
structure Randomness where
  salt : List UInt8
  nonce : List UInt8
  salt_length : salt.length = saltSize
  nonce_length : nonce.length = nonceSize

variable (sodium : Sodium)

def deriveKeyFromPassword (password salt : List UInt8) : Throws (List UInt8) :=
  match sodium.pwhash password salt with
  | some key => .ok key
  | none => .error (.runtimeError "Failed to derive key from password")

theorem deriveKeyFromPassword_eq_ok {password salt key : List UInt8} :
    deriveKeyFromPassword sodium password salt = .ok key ↔
      sodium.pwhash password salt = some key := by
  unfold deriveKeyFromPassword
  cases sodium.pwhash password salt with
  | none => simp
  | some k => simp

namespace StateEncryption

def encrypt (nonce plaintext key : List UInt8) : Throws (List UInt8) :=
  if key.length ≠ keySize then .error (.invalidArgument "Invalid key size for encryption")
  else
    match sodium.secretbox plaintext nonce key with
    | some ciphertext => .ok (nonce ++ ciphertext)
    | none => .error (.runtimeError "Encryption failed")

def decrypt (ciphertext key : List UInt8) : Option (List UInt8) :=
  if key.length ≠ keySize then none
  else if ciphertext.length < nonceSize + tagSize then none
  else sodium.secretboxOpen (ciphertext.drop nonceSize) (ciphertext.take nonceSize) key

end StateEncryption

namespace EncryptedState

def create (random : Randomness) (plaintext password : List UInt8) : Throws (List UInt8) := do
  let key ← deriveKeyFromPassword sodium password random.salt
  let encrypted ← StateEncryption.encrypt sodium random.nonce plaintext key
  return currentVersion :: random.salt ++ encrypted

def isEncrypted (data : List UInt8) : Bool :=
  if data.length < 1 + saltSize + nonceSize + tagSize then false
  else data.head? == some currentVersion

def decrypt (encrypted password : List UInt8) : Throws (Option (List UInt8)) :=
  if !isEncrypted encrypted then .ok none
  else do
    let salt := (encrypted.drop 1).take saltSize
    let ciphertext := encrypted.drop (1 + saltSize)
    let key ← deriveKeyFromPassword sodium password salt
    return StateEncryption.decrypt sodium ciphertext key

/-! ## What was created can be decrypted -/

variable {sodium} {random : Randomness} {plaintext password created : List UInt8}

/-- The layout of what is created. -/
theorem create_eq_ok (h : create sodium random plaintext password = .ok created) :
    ∃ key sealed', sodium.pwhash password random.salt = some key ∧
      sodium.secretbox plaintext random.nonce key = some sealed' ∧
      created = currentVersion :: random.salt ++ (random.nonce ++ sealed') := by
  obtain ⟨key, hkey, h⟩ := bind_eq_ok.mp h
  obtain ⟨encrypted, hencrypted, hcreated⟩ := bind_eq_ok.mp h
  have derived := (deriveKeyFromPassword_eq_ok sodium).mp hkey
  have size : ¬key.length ≠ keySize := by simp [sodium.pwhash_length derived]
  unfold StateEncryption.encrypt at hencrypted
  rw [if_neg size] at hencrypted
  cases hsealed : sodium.secretbox plaintext random.nonce key with
  | none =>
    rw [hsealed] at hencrypted
    cases hencrypted
  | some sealed' =>
    rw [hsealed] at hencrypted
    cases hencrypted
    cases hcreated
    exact ⟨key, sealed', derived, hsealed, rfl⟩

theorem create_length (h : create sodium random plaintext password = .ok created) :
    created.length = plaintext.length + 57 := by
  obtain ⟨key, sealed', -, hsealed, rfl⟩ := create_eq_ok h
  have box := sodium.secretbox_length hsealed
  simp only [List.length_append, List.length_cons, random.salt_length, random.nonce_length, box,
    saltSize, nonceSize, tagSize]
  omega

/-- Behind an intact version, salt and nonce, decryption opens the box. -/
theorem decrypt_layout {salt nonce body key : List UInt8} (hsalt : salt.length = saltSize)
    (hnonce : nonce.length = nonceSize) (hbody : tagSize ≤ body.length)
    (hkey : sodium.pwhash password salt = some key) :
    decrypt sodium (currentVersion :: salt ++ (nonce ++ body)) password =
      .ok (sodium.secretboxOpen body nonce key) := by
  have encrypted : isEncrypted (currentVersion :: salt ++ (nonce ++ body)) = true := by
    have long : ¬(currentVersion :: salt ++ (nonce ++ body)).length <
        1 + saltSize + nonceSize + tagSize := by
      simp only [List.length_append, List.length_cons, hsalt, hnonce]
      omega
    unfold isEncrypted
    rw [if_neg long]
    rfl
  have saltPart : ((currentVersion :: salt ++ (nonce ++ body)).drop 1).take saltSize = salt := by
    rw [List.cons_append, List.drop_one, List.tail_cons, ← hsalt, List.take_left]
  have boxPart : (currentVersion :: salt ++ (nonce ++ body)).drop (1 + saltSize) = nonce ++ body := by
    rw [List.cons_append, Nat.add_comm, List.drop_succ_cons, ← hsalt, List.drop_left]
  have opened : StateEncryption.decrypt sodium (nonce ++ body) key =
      sodium.secretboxOpen body nonce key := by
    have size : ¬key.length ≠ keySize := by simp [sodium.pwhash_length hkey]
    have long : ¬(nonce ++ body).length < nonceSize + tagSize := by
      rw [List.length_append, hnonce]
      omega
    unfold StateEncryption.decrypt
    rw [if_neg size, if_neg long, ← hnonce, List.drop_left, List.take_left]
  have derived := (deriveKeyFromPassword_eq_ok sodium).mpr hkey
  unfold decrypt
  rw [encrypted, saltPart, boxPart]
  dsimp only
  rw [derived]
  exact congrArg Except.ok opened

theorem decrypt_create (h : create sodium random plaintext password = .ok created) :
    decrypt sodium created password = .ok (some plaintext) := by
  obtain ⟨key, sealed', hkey, hsealed, rfl⟩ := create_eq_ok h
  have box := sodium.secretbox_length hsealed
  rw [decrypt_layout random.salt_length random.nonce_length (by omega) hkey,
    sodium.open_secretbox hsealed]

end EncryptedState

end MidnightSdk.Crypto
