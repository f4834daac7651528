import MidnightSdk.Crypto.TagChecks

/-!
# Which keys come back

What the cipher writes is not what is stored: the stored ciphertext has its
length and is all zeros, and it is opened under the default parameters whatever
those it was made under. The key comes back only where zeros are its ciphertext.
-/

namespace MidnightSdk.Crypto

open Cpp Handle

/-- The calls before the text is encrypted. -/
def encryptSetUpCalls (key nonce : List UInt8) : List EvpCall := [
  .encryptInitCipher,
  .setIvLen KeyEncryptionConfig.nonceSize,
  .encryptInitKey key nonce]

/-- What the library documents of the calls with a key, a nonce and a tag of their sizes. A
text is handed over with a length, and a negative one is refused. -/
structure CryptoLibraries.Documented (lib : CryptoLibraries) (gcm : Gcm) : Prop where
  encryptUpdate {key nonce : List UInt8} (input : List UInt8) (length : Int)
    (hkey : key.length = KeyEncryptionConfig.keySize)
    (hnonce : nonce.length = KeyEncryptionConfig.nonceSize)
    (h : (lib.evp (encryptSetUpCalls key nonce) (.encryptUpdate input length)).code = 1) :
    0 ≤ length ∧ (lib.evp (encryptSetUpCalls key nonce) (.encryptUpdate input length)).out =
      gcm.encrypt key nonce (input.take length.toNat)
  encryptFinal (key nonce input : List UInt8) (length : Int) :
    (lib.evp (encryptSetUpCalls key nonce ++ [.encryptUpdate input length]) .encryptFinal).out = []
  getTag (key nonce input : List UInt8) (length : Int) :
    (lib.evp (encryptSetUpCalls key nonce ++ [.encryptUpdate input length, .encryptFinal])
      (.getTag KeyEncryptionConfig.tagSize)).out.length = KeyEncryptionConfig.tagSize
  setUp {key nonce tag : List UInt8} (hkey : key.length = KeyEncryptionConfig.keySize)
    (hnonce : nonce.length = KeyEncryptionConfig.nonceSize)
    (htag : tag.length = KeyEncryptionConfig.tagSize) :
    AllReturn lib.evp 1 [] (setUpCalls key nonce tag)
  decryptUpdate {key nonce tag : List UInt8} (input : List UInt8) {length : Int}
    (hkey : key.length = KeyEncryptionConfig.keySize)
    (hnonce : nonce.length = KeyEncryptionConfig.nonceSize)
    (htag : tag.length = KeyEncryptionConfig.tagSize) (h : 0 ≤ length) :
    lib.evp (setUpCalls key nonce tag) (.decryptUpdate input length) =
      ⟨1, gcm.decrypt key nonce (input.take length.toNat)⟩
  decryptFinal (key nonce ciphertext tag : List UInt8) :
    (lib.evp (decryptionCalls key nonce ciphertext tag) .decryptFinal).out = []
  checksTag : lib.FinalChecksTag gcm

/-! ## Lengths of 32 bits -/

theorem toInt_toNat_le (size : Nat) : (toInt size).toNat ≤ size := by
  unfold toInt
  rw [Int.bmod]
  split <;> omega

theorem toInt_of_lt {size : Nat} (h : size < 2 ^ 31) : toInt size = size := by
  unfold toInt
  rw [Int.bmod]
  split <;> omega

theorem toInt_toNat_lt (size : Nat) : (toInt size).toNat < 2 ^ 31 := by
  unfold toInt
  rw [Int.bmod]
  split <;> omega

namespace KeyEncryption

/-- The key bytes are given back, also from the text of the record. -/
def Recovers (lib : CryptoLibraries) (e : EncryptedKey) (keyBytes password : List UInt8) : Prop :=
  decryptKey lib e password = some keyBytes ∧
    (EncryptedKey.fromJson e.toJson).bind (fun stored => decryptKey lib stored password) =
      some keyBytes

variable {lib : CryptoLibraries} {gcm : Gcm} {random : Drawn} {keyBytes password : List UInt8}
  {config : KeyEncryptionConfig} {e : EncryptedKey}

theorem recovers_iff_decryptKey :
    Recovers lib e keyBytes password ↔ decryptKey lib e password = some keyBytes := by
  rw [Recovers, EncryptedKey.fromJson_toJson]
  exact and_self_iff

theorem resize_nil (size : Nat) : resize [] size = zeroBytes size := by
  simp [resize, zeroBytes]

/-- What fills a buffer is as long as it. -/
theorem writeAt_length {size : Nat} {bytes : List UInt8} (h : bytes.length = size) :
    (writeAt (zeroBytes size) 0 bytes).length = size := by
  simp [writeAt, zeroBytes, h]

theorem deriveKey_length {salt key : List UInt8}
    (h : deriveKeyArgon2id lib password salt config = some key) :
    key.length = KeyEncryptionConfig.keySize := by
  unfold deriveKeyArgon2id at h
  split at h
  · simp only [Option.ite_none_left_eq_some, Option.some.injEq] at h
    obtain ⟨-, rfl⟩ := h
    exact (lib.argon2Hash _ _ _ _).out.2
  · simp only [Option.ite_none_left_eq_some, Option.some.injEq] at h
    obtain ⟨-, -, rfl⟩ := h
    exact (lib.pbkdf2 _ _ _ _ _).out.2

theorem generateRandomBytes_eq_some {count : Nat} {drawn : RandBytes count} {bytes : List UInt8} :
    (generateRandomBytes drawn).toOption = some bytes ↔ drawn.code = 1 ∧ drawn.out.1 = bytes := by
  unfold generateRandomBytes
  by_cases h : drawn.code = 1
  · simp [h, Except.toOption]
  · simp [h, Except.toOption]

/-- What was drawn, a tag, and zeros. -/
def stored (random : Drawn) (size : Nat) (tag : List UInt8) : EncryptedKey where
  salt := random.salt.out.1
  nonce := random.nonce.out.1
  ciphertext := zeroBytes size
  tag := tag

/-- **What is stored**: zeros, as many as the cipher wrote. -/
theorem encryptKey_eq_some (doc : lib.Documented gcm)
    (h : encryptKey lib random keyBytes password config = some e) :
    lib.contextNew = true ∧ 0 ≤ toInt keyBytes.length ∧
      ∃ tag, tag.length = KeyEncryptionConfig.tagSize ∧
        e = stored random (toInt keyBytes.length).toNat tag := by
  unfold encryptKey at h
  by_cases empty : password.isEmpty = true
  · rw [if_pos empty] at h
    cases h
  rw [if_neg empty] at h
  simp only [Option.bind_eq_bind, Option.bind_eq_some_iff, newContext_eq_some,
    require_eq_some, generateRandomBytes_eq_some, and_assoc, exists_and_left, exists_eq_left,
    exists_eq_left', Option.pure_def, Option.some.injEq, List.nil_append, List.cons_append] at h
  obtain ⟨-, -, key, derived, context, -, -, -, update, -, -, record⟩ := h
  obtain ⟨nonnegative, enciphered⟩ :=
    doc.encryptUpdate keyBytes _ (deriveKey_length derived) random.nonce.out.2 update
  have last := doc.encryptFinal key random.nonce.out.1 keyBytes (toInt keyBytes.length)
  have tag := doc.getTag key random.nonce.out.1 keyBytes (toInt keyBytes.length)
  simp only [encryptSetUpCalls, List.cons_append, List.nil_append] at enciphered last tag
  rw [enciphered, last, gcm.encrypt_length, List.length_take,
    Nat.min_eq_left (toInt_toNat_le keyBytes.length), List.length_nil, Nat.add_zero,
    resize_nil] at record
  exact ⟨context, nonnegative, _, writeAt_length tag, record.symm⟩

/-- Under a key of its size the calls on a stored record succeed, and write out what its
zeros decipher to. -/
theorem calls_stored (doc : lib.Documented gcm) {tag key : List UInt8} {size : Nat}
    (htag : tag.length = KeyEncryptionConfig.tagSize) (hsize : size < 2 ^ 31)
    (hkey : key.length = KeyEncryptionConfig.keySize) :
    AllReturn lib.evp 1 [] (decryptionCalls key random.nonce.out.1 (zeroBytes size) tag) ∧
      0 ≤ (lib.evp (decryptionCalls key random.nonce.out.1 (zeroBytes size) tag)
        .decryptFinal).code ∧
      written lib key (stored random size tag) =
        gcm.decrypt key random.nonce.out.1 (zeroBytes size) := by
  have length : toInt (zeroBytes size).length = size := by
    rw [zeroBytes, List.length_replicate, toInt_of_lt hsize]
  have whole : (zeroBytes size).take (size : Int).toNat = zeroBytes size := by simp [zeroBytes]
  have update := doc.decryptUpdate (zeroBytes size) hkey random.nonce.out.2 htag
    (Int.natCast_nonneg size)
  rw [whole, ← length] at update
  refine ⟨?_, ?_, ?_⟩
  · rw [decryptionCalls, allReturn_append, allReturn_singleton, List.nil_append]
    exact ⟨doc.setUp hkey random.nonce.out.2 htag, congrArg Answer.code update⟩
  · rw [doc.checksTag]
    split <;> decide
  · have last := doc.decryptFinal key random.nonce.out.1 (zeroBytes size) tag
    have deciphered := congrArg Answer.out update
    change (lib.evp (setUpCalls key random.nonce.out.1 tag) (updateCall (zeroBytes size))).out ++
      (lib.evp (decryptionCalls key random.nonce.out.1 (zeroBytes size) tag) .decryptFinal).out = _
    rw [last, List.append_nil]
    exact deciphered

/-- A stored record is opened to what its zeros decipher to. -/
theorem decryptKey_stored (doc : lib.Documented gcm) (context : lib.contextNew = true)
    {tag plaintext : List UInt8} {size : Nat} (htag : tag.length = KeyEncryptionConfig.tagSize)
    (hsize : size < 2 ^ 31) :
    decryptKey lib (stored random size tag) password = some plaintext ↔
      size ≠ 0 ∧ ∃ key, deriveKeyArgon2id lib password random.salt.out.1 {} = some key ∧
        gcm.decrypt key random.nonce.out.1 (zeroBytes size) = plaintext := by
  have filled : zeroBytes size ≠ [] ↔ size ≠ 0 := by simp [zeroBytes]
  rw [decryptKey_eq_some]
  constructor
  · rintro ⟨-, some, key, derived, -, -, -, plain⟩
    obtain ⟨-, -, deciphered⟩ := @calls_stored _ _ random doc _ key _ htag hsize
      (deriveKey_length derived)
    exact ⟨filled.mp some, key, derived, deciphered.symm.trans plain⟩
  · rintro ⟨some, key, derived, plain⟩
    obtain ⟨calls, passes, deciphered⟩ := @calls_stored _ _ random doc _ key _ htag hsize
      (deriveKey_length derived)
    exact ⟨rfl, filled.mpr some, key, derived, context, calls, passes, deciphered.trans plain⟩

/-- **Which keys come back.** Those below 2 GiB whose ciphertext, under the key that the
default parameters derive, is all zeros. -/
theorem recovers_iff (doc : lib.Documented gcm) (filled : keyBytes ≠ [])
    (h : encryptKey lib random keyBytes password config = some e) :
    Recovers lib e keyBytes password ↔
      keyBytes.length < 2 ^ 31 ∧
        ∃ key, deriveKeyArgon2id lib password random.salt.out.1 {} = some key ∧
          gcm.encrypt key random.nonce.out.1 keyBytes = zeroBytes keyBytes.length := by
  obtain ⟨context, nonnegative, tag, htag, rfl⟩ := encryptKey_eq_some doc h
  rw [recovers_iff_decryptKey, decryptKey_stored doc context htag (toInt_toNat_lt _)]
  constructor
  · rintro ⟨-, key, derived, plain⟩
    have size : (toInt keyBytes.length).toNat = keyBytes.length := by
      have length := congrArg List.length plain
      rwa [gcm.decrypt_length, zeroBytes, List.length_replicate] at length
    refine ⟨size ▸ toInt_toNat_lt keyBytes.length, key, derived, ?_⟩
    rw [size] at plain
    rw [← gcm.encrypt_decrypt key random.nonce.out.1 (zeroBytes keyBytes.length), plain]
  · rintro ⟨short, key, derived, zero⟩
    have size : (toInt keyBytes.length).toNat = keyBytes.length := by
      rw [toInt_of_lt short, Int.toNat_natCast]
    refine ⟨?_, key, derived, ?_⟩
    · rw [size]
      exact mt List.length_eq_zero_iff.mp filled
    · rw [size, ← zero, gcm.decrypt_encrypt]

end KeyEncryption

/-! ## A library for one password -/

theorem Gcm.evp_documented (gcm : Gcm) {lib : CryptoLibraries} (h : lib.evp = gcm.evp)
    (htag : ∀ key nonce ciphertext,
      (gcm.tag key nonce ciphertext).length = KeyEncryptionConfig.tagSize) :
    lib.Documented gcm where
  encryptUpdate {key nonce} input length _ _ accepted := by
    simp only [h, encryptSetUpCalls, Gcm.evp] at accepted ⊢
    split at accepted
    · cases accepted
    · rename_i nonnegative
      rw [if_neg nonnegative]
      exact ⟨Int.not_lt.mp nonnegative, rfl⟩
  encryptFinal key nonce input length := by
    rw [h]
    rfl
  getTag key nonce input length := by
    rw [h]
    exact htag ..
  setUp hkey hnonce htag := by
    have iv : toInt KeyEncryptionConfig.nonceSize = 12 := by decide
    have size : toInt KeyEncryptionConfig.tagSize = 16 := by decide
    simp [h, setUpCalls, AllReturn, Gcm.evp, hnonce, htag, iv, size]
  decryptUpdate {key nonce tag} input length _ _ _ nonnegative := by
    simp only [h, setUpCalls, Gcm.evp]
    rw [if_neg (Int.not_lt.mpr nonnegative)]
  decryptFinal key nonce ciphertext tag := by
    rw [h]
    rfl
  checksTag := gcm.evp_finalChecksTag h

theorem tabulated_tag_length (key nonce ciphertext : List UInt8) :
    (tabulated.tag key nonce ciphertext).length = KeyEncryptionConfig.tagSize := by
  change ((tags.lookup (key, ciphertext)).getD (zeroBytes 16)).length = _
  cases found : tags.lookup (key, ciphertext) with
  | none => rfl
  | some tag =>
    obtain ⟨before, after, layout, -⟩ := List.lookup_eq_some_iff.mp found
    have all : tags.Forall fun entry => entry.2.length = KeyEncryptionConfig.tagSize := by decide
    have here : ((key, ciphertext), tag) ∈ tags := by
      rw [layout]
      exact List.mem_append_right _ List.mem_cons_self
    exact List.forall_iff_forall_mem.mp all _ here

namespace KeyEncryption

theorem withoutArgon2_documented : withoutArgon2.Documented tabulated :=
  tabulated.evp_documented rfl tabulated_tag_length

def drawnZeros : Drawn where
  salt := ⟨1, zeroed _⟩
  nonce := ⟨1, zeroed _⟩

/-- The first byte of the key stream is a key that comes back. -/
theorem recovers_keyStream : ∃ e,
    encryptKey withoutArgon2 drawnZeros [174] (literal "password") {} = some e ∧
      Recovers withoutArgon2 e [174] (literal "password") := by
  have encrypted : encryptKey withoutArgon2 drawnZeros [174] (literal "password") {} =
      some (stored drawnZeros 1 (tabulated.tag passwordKey (zeroBytes 12) [0])) := by decide
  refine ⟨_, encrypted, (recovers_iff withoutArgon2_documented (by decide) encrypted).mpr ?_⟩
  exact ⟨by decide, passwordKey, by decide, by decide⟩

/-- The byte 42 comes back as 174. -/
theorem not_recovers_byte : withoutArgon2.Documented tabulated ∧ ∃ e,
    encryptKey withoutArgon2 drawnZeros [42] (literal "password") {} = some e ∧
      decryptKey withoutArgon2 e (literal "password") = some [174] ∧
      ¬Recovers withoutArgon2 e [42] (literal "password") := by
  refine ⟨withoutArgon2_documented,
    stored drawnZeros 1 (tabulated.tag passwordKey (zeroBytes 12) [132]), by decide,
    by decide, fun h => ?_⟩
  have found := h.1
  revert found
  decide

end KeyEncryption

end MidnightSdk.Crypto
