import MidnightSdk.Crypto.KeyEncryption

/-!
# Which records are opened

The call that checks the tag answers 1 or 0, and the caller refuses what is below
0. So the tag decides nothing: a record is opened whenever the calls before that
one succeed.
-/

namespace MidnightSdk.Crypto

open Cpp Handle

/-- AES-256-GCM: encryption keeps the length and is undone by decryption, either way
round, and each ciphertext has a tag. -/
structure Gcm where
  encrypt : (key nonce plaintext : List UInt8) → List UInt8
  decrypt : (key nonce ciphertext : List UInt8) → List UInt8
  tag : (key nonce ciphertext : List UInt8) → List UInt8
  encrypt_length (key nonce plaintext) : (encrypt key nonce plaintext).length = plaintext.length
  decrypt_length (key nonce ciphertext) : (decrypt key nonce ciphertext).length = ciphertext.length
  decrypt_encrypt (key nonce plaintext) :
    decrypt key nonce (encrypt key nonce plaintext) = plaintext
  encrypt_decrypt (key nonce ciphertext) :
    encrypt key nonce (decrypt key nonce ciphertext) = ciphertext

/-- A tag, which may have been shortened, is right for a ciphertext. -/
def Gcm.authentic (gcm : Gcm) (key nonce ciphertext tag : List UInt8) : Bool :=
  !tag.isEmpty && tag.isPrefixOf (gcm.tag key nonce ciphertext)

/-- The bytes a call takes in that is told the length in 32 bits. -/
def handed (bytes : List UInt8) : List UInt8 := bytes.take (toInt bytes.length).toNat

/-- The calls that set a context up for opening a record, and all before the last one. -/
def setUpCalls (key nonce tag : List UInt8) : List EvpCall := [
  .decryptInitCipher,
  .setIvLen (toInt nonce.length),
  .decryptInitKey key nonce,
  .setTag tag (toInt tag.length)]

def updateCall (ciphertext : List UInt8) : EvpCall :=
  .decryptUpdate ciphertext (toInt ciphertext.length)

def decryptionCalls (key nonce ciphertext tag : List UInt8) : List EvpCall :=
  setUpCalls key nonce tag ++ [updateCall ciphertext]

/-- `EVP_DecryptFinal_ex` returns 1 exactly when the tag is right and 0 otherwise. -/
def CryptoLibraries.FinalChecksTag (lib : CryptoLibraries) (gcm : Gcm) : Prop :=
  ∀ key nonce ciphertext tag : List UInt8,
    (lib.evp (decryptionCalls key nonce ciphertext tag) .decryptFinal).code =
      if gcm.authentic key (handed nonce) (handed ciphertext) (handed tag) then 1 else 0

namespace KeyEncryption

variable (lib : CryptoLibraries)

/-- The tag of a record authenticates its ciphertext under the derived key. -/
def TagAuthenticates (gcm : Gcm) (e : EncryptedKey) (password : List UInt8) : Prop :=
  ∃ key, deriveKeyArgon2id lib password e.salt {} = some key ∧
    gcm.authentic key e.nonce e.ciphertext e.tag = true

/-- Nothing before the check of the tag refuses the record: it has the current version
and a ciphertext, a key is derived, and each call returns 1. -/
def ReachesTag (e : EncryptedKey) (password : List UInt8) : Prop :=
  e.version = KeyEncryptionConfig.currentVersion ∧ e.ciphertext ≠ [] ∧
    ∃ key, deriveKeyArgon2id lib password e.salt {} = some key ∧ lib.contextNew = true ∧
      AllReturn lib.evp 1 [] (decryptionCalls key e.nonce e.ciphertext e.tag)

/-- What each of the three accepts is authentic. -/
def AcceptsOnlyAuthentic (gcm : Gcm) (e : EncryptedKey) (password : List UInt8) : Prop :=
  ((decryptKey lib e password).isSome = true → TagAuthenticates lib gcm e password) ∧
  (verifyPassword lib e password = true → TagAuthenticates lib gcm e password) ∧
  ((decryptHexKey lib e password).isSome = true → TagAuthenticates lib gcm e password)

/-! ## What a decryption returns -/

variable {lib} {gcm : Gcm} {e : EncryptedKey} {password : List UInt8}

theorem newContext_eq_some {ctx : List EvpCall} :
    newContext lib = some ctx ↔ lib.contextNew = true ∧ ctx = [] := by
  unfold newContext
  cases lib.contextNew with
  | false => simp
  | true => simp [eq_comm]

/-- The bytes that were written are what is left of the buffer. -/
theorem resize_written (buffer written last : List UInt8) :
    resize (writeAt (writeAt buffer 0 written) written.length last)
      (written.length + last.length) = written ++ last := by
  have first : writeAt buffer 0 written = written ++ buffer.drop written.length := by
    simp [writeAt]
  have size : (written ++ last).length = written.length + last.length := List.length_append
  rw [first, writeAt, List.take_left, ← List.append_assoc, resize, ← size, List.take_left]
  simp

/-- What the last two calls write out of a record. -/
def written (lib : CryptoLibraries) (key : List UInt8) (e : EncryptedKey) : List UInt8 :=
  (lib.evp (setUpCalls key e.nonce e.tag) (updateCall e.ciphertext)).out ++
    (lib.evp (decryptionCalls key e.nonce e.ciphertext e.tag) .decryptFinal).out

/-- **What a decryption returns**, and when. -/
theorem decryptKey_eq_some {plaintext : List UInt8} :
    decryptKey lib e password = some plaintext ↔
      e.version = KeyEncryptionConfig.currentVersion ∧ e.ciphertext ≠ [] ∧
        ∃ key, deriveKeyArgon2id lib password e.salt {} = some key ∧ lib.contextNew = true ∧
          AllReturn lib.evp 1 [] (decryptionCalls key e.nonce e.ciphertext e.tag) ∧
          0 ≤ (lib.evp (decryptionCalls key e.nonce e.ciphertext e.tag) .decryptFinal).code ∧
          written lib key e = plaintext := by
  unfold decryptKey
  by_cases version : e.version = KeyEncryptionConfig.currentVersion
  · by_cases empty : e.ciphertext = []
    · simp [version, empty]
    · have filled : e.ciphertext.isEmpty = false := by simpa using empty
      rw [if_neg (not_not.mpr version), filled, if_neg Bool.false_ne_true]
      simp only [Option.bind_eq_bind, Option.bind_eq_some_iff, newContext_eq_some,
        require_eq_some, and_assoc, exists_and_left, exists_eq_left, resize_written,
        Option.ite_none_left_eq_some, Option.pure_def, Option.some.injEq, Int.not_lt]
      simp only [version, ne_eq, empty, not_false_eq_true, true_and, decryptionCalls, setUpCalls,
        updateCall, written, List.cons_append, List.nil_append, AllReturn, and_true, and_assoc]
  · simp [version]

/-- A record is opened whenever its tag is reached, right or wrong. -/
theorem isSome_decryptKey_iff (hfinal : lib.FinalChecksTag gcm) :
    (decryptKey lib e password).isSome = true ↔ ReachesTag lib e password := by
  have passes (key : List UInt8) :
      0 ≤ (lib.evp (decryptionCalls key e.nonce e.ciphertext e.tag) .decryptFinal).code := by
    rw [hfinal]
    split <;> decide
  rw [Option.isSome_iff_exists]
  constructor
  · rintro ⟨plaintext, h⟩
    obtain ⟨version, filled, key, derived, context, calls, -, -⟩ := decryptKey_eq_some.mp h
    exact ⟨version, filled, key, derived, context, calls⟩
  · rintro ⟨version, filled, key, derived, context, calls⟩
    exact ⟨_, decryptKey_eq_some.mpr ⟨version, filled, key, derived, context, calls, passes key,
      rfl⟩⟩

/-- **What is accepted is authentic** exactly when the tag is right, or something refuses
the record before its tag is reached. -/
theorem acceptsOnlyAuthentic_iff (hfinal : lib.FinalChecksTag gcm) (e : EncryptedKey)
    (password : List UInt8) :
    AcceptsOnlyAuthentic lib gcm e password ↔
      TagAuthenticates lib gcm e password ∨ ¬ReachesTag lib e password := by
  have opened := @isSome_decryptKey_iff lib gcm e password hfinal
  have hex : (decryptHexKey lib e password).isSome = (decryptKey lib e password).isSome :=
    Option.isSome_map
  constructor
  · intro h
    by_cases reached : ReachesTag lib e password
    · exact .inl (h.1 (opened.mpr reached))
    · exact .inr reached
  · rintro (authentic | stopped)
    · exact ⟨fun _ => authentic, fun _ => authentic, fun _ => authentic⟩
    · have closed : ¬(decryptKey lib e password).isSome = true := fun h => stopped (opened.mp h)
      refine ⟨fun h => absurd h closed, fun h => absurd h closed, fun h => ?_⟩
      rw [hex] at h
      exact absurd h closed

end KeyEncryption

/-! ## A library for one password -/

/-- Counter mode: a byte is combined with the byte of the key stream at its place. -/
def combined (stream : Nat → UInt8) (text : List UInt8) : List UInt8 :=
  text.mapIdx fun i b => b ^^^ stream i

theorem combined_combined (stream : Nat → UInt8) (text : List UInt8) :
    combined stream (combined stream text) = text := by
  apply List.ext_getElem
  · simp [combined]
  · intro i _ _
    simp only [combined, List.getElem_mapIdx]
    rw [UInt8.xor_assoc, UInt8.xor_self, UInt8.xor_zero]

def Gcm.counterMode (stream : (key nonce : List UInt8) → Nat → UInt8)
    (tag : (key nonce ciphertext : List UInt8) → List UInt8) : Gcm where
  encrypt key nonce := combined (stream key nonce)
  decrypt key nonce := combined (stream key nonce)
  tag := tag
  encrypt_length _ _ _ := List.length_mapIdx
  decrypt_length _ _ _ := List.length_mapIdx
  decrypt_encrypt _ _ := combined_combined _
  encrypt_decrypt _ _ := combined_combined _

/-- What the calls answer when they are made in the order the code makes them. -/
def Gcm.evp (gcm : Gcm) : List EvpCall → EvpCall → Answer (List UInt8)
  | [.encryptInitCipher, .setIvLen _, .encryptInitKey key iv], .encryptUpdate input length =>
    if length < 0 then ⟨0, []⟩ else ⟨1, gcm.encrypt key iv (input.take length.toNat)⟩
  | [.encryptInitCipher, .setIvLen _, .encryptInitKey key iv, .encryptUpdate input length,
      .encryptFinal], .getTag _ =>
    ⟨1, gcm.tag key iv (gcm.encrypt key iv (input.take length.toNat))⟩
  | [.decryptInitCipher, .setIvLen _, .decryptInitKey key iv, .setTag _ _],
      .decryptUpdate input length =>
    if length < 0 then ⟨0, []⟩ else ⟨1, gcm.decrypt key iv (input.take length.toNat)⟩
  | [.decryptInitCipher, .setIvLen ivLength, .decryptInitKey key iv, .setTag tag tagLength,
      .decryptUpdate input length], .decryptFinal =>
    ⟨if gcm.authentic key (iv.take ivLength.toNat) (input.take length.toNat)
      (tag.take tagLength.toNat) then 1 else 0, []⟩
  | _, .setIvLen length => ⟨if 0 < length then 1 else 0, []⟩
  | _, .setTag _ length => ⟨if 0 < length ∧ length ≤ 16 then 1 else 0, []⟩
  | _, _ => ⟨1, []⟩

theorem Gcm.evp_finalChecksTag (gcm : Gcm) {lib : CryptoLibraries} (h : lib.evp = gcm.evp) :
    lib.FinalChecksTag gcm := by
  intro key nonce ciphertext tag
  simp only [h, decryptionCalls, setUpCalls, updateCall, List.cons_append, List.nil_append,
    Gcm.evp, handed]
  congr

/-- `password` and `guess`, derived over a salt of zeros. -/
def passwordKey : List UInt8 := [183, 125, 0, 125, 26, 97, 53, 81, 90, 30, 185, 129, 22, 57, 228,
  169, 107, 31, 212, 186, 43, 43, 142, 211, 137, 56, 63, 129, 151, 154, 66, 210]

def guessKey : List UInt8 := [73, 208, 5, 159, 112, 199, 229, 207, 219, 249, 79, 64, 237, 233, 75,
  198, 226, 137, 94, 141, 126, 94, 15, 64, 50, 9, 77, 198, 174, 72, 124, 228]

/-- The first bytes of the key streams for a nonce of zeros. -/
def keyStreams : List (List UInt8 × List UInt8) :=
  [(passwordKey, [174, 182, 164, 150]), (guessKey, [121, 162, 42, 127])]

/-- The tags of single bytes for a nonce of zeros. -/
def tags : List ((List UInt8 × List UInt8) × List UInt8) := [
  ((passwordKey, [132]), [13, 127, 86, 80, 92, 252, 189, 70, 80, 32, 113, 41, 115, 255, 64, 102]),
  ((passwordKey, [0]), [190, 182, 146, 142, 111, 97, 6, 95, 251, 37, 147, 76, 141, 100, 245, 234]),
  ((guessKey, [132]), [119, 243, 41, 217, 249, 1, 117, 123, 3, 199, 150, 31, 160, 83, 248, 140])]

def tabulated : Gcm :=
  .counterMode (fun key _ i => ((keyStreams.lookup key).getD []).getD i 0)
    fun key _ ciphertext => (tags.lookup (key, ciphertext)).getD (zeroBytes 16)

theorem zeroBytes_length (size : Nat) : (zeroBytes size).length = size := List.length_replicate

def zeroed (size : Nat) : Bytes size := ⟨zeroBytes size, zeroBytes_length size⟩

def withoutArgon2 : CryptoLibraries where
  hasArgon2 := false
  argon2Hash _ _ _ _ := ⟨-1, zeroed _⟩
  sha256 := true
  pbkdf2 password _ _ _ _ := ⟨1, if password = literal "password" then ⟨passwordKey, rfl⟩
    else if password = literal "guess" then ⟨guessKey, rfl⟩ else zeroed _⟩
  contextNew := true
  evp := tabulated.evp

/-- The byte 42, encrypted under `password`. -/
def sealedByte : EncryptedKey where
  salt := zeroBytes 32
  nonce := zeroBytes 12
  ciphertext := [132]
  tag := [13, 127, 86, 80, 92, 252, 189, 70, 80, 32, 113, 41, 115, 255, 64, 102]

namespace KeyEncryption

theorem withoutArgon2_finalChecksTag : withoutArgon2.FinalChecksTag tabulated :=
  tabulated.evp_finalChecksTag rfl

theorem acceptsOnlyAuthentic_iff_password :
    TagAuthenticates withoutArgon2 tabulated sealedByte (literal "password") ∧
      AcceptsOnlyAuthentic withoutArgon2 tabulated sealedByte (literal "password") := by
  have authentic : TagAuthenticates withoutArgon2 tabulated sealedByte (literal "password") :=
    ⟨passwordKey, by decide, by decide⟩
  exact ⟨authentic, (acceptsOnlyAuthentic_iff withoutArgon2_finalChecksTag sealedByte
    (literal "password")).mpr (.inl authentic)⟩

/-- The wrong password opens the record. -/
theorem not_acceptsOnlyAuthentic_guess :
    withoutArgon2.FinalChecksTag tabulated ∧
      verifyPassword withoutArgon2 sealedByte (literal "guess") = true ∧
      ¬AcceptsOnlyAuthentic withoutArgon2 tabulated sealedByte (literal "guess") := by
  have accepted : verifyPassword withoutArgon2 sealedByte (literal "guess") = true := by
    decide
  have derived : deriveKeyArgon2id withoutArgon2 (literal "guess") sealedByte.salt {} =
      some guessKey := by decide
  refine ⟨withoutArgon2_finalChecksTag, accepted, fun h => ?_⟩
  obtain ⟨key, hkey, authentic⟩ := h.2.1 accepted
  rw [derived, Option.some.injEq] at hkey
  subst hkey
  revert authentic
  decide

end KeyEncryption

end MidnightSdk.Crypto
