import MidnightSdk.Crypto.StateEncryption
import MidnightSdk.Library.Sha256

/-!
# What decryption accepts

With a box that opens only to what was sealed in it, an encrypted state is accepted
exactly when it was put together the way a save is. The ranges it is taken apart by
never leave it.
-/

namespace MidnightSdk.Crypto

open Cpp

/-- The password hash is a function, and a box opens only to what sealing gives it for. -/
structure Sodium.Ideal (sodium : Sodium) : Prop where
  pwhash_total {salt : List UInt8} (password : List UInt8) (hsalt : salt.length = saltSize) :
    ∃ key, sodium.pwhash password salt = some key
  secretbox_total {nonce key : List UInt8} (plaintext : List UInt8)
    (hnonce : nonce.length = nonceSize) (hkey : key.length = keySize) :
    ∃ box, sodium.secretbox plaintext nonce key = some box
  secretbox_of_open {box nonce key plaintext : List UInt8} :
    sodium.secretboxOpen box nonce key = some plaintext →
      sodium.secretbox plaintext nonce key = some box

/-! ## Reading inside a vector -/

/-- The bytes between two places, or nothing when they are not all there. -/
def readRange (data : List UInt8) (start stop : Nat) : Option (List UInt8) :=
  if start ≤ stop ∧ stop ≤ data.length then some ((data.take stop).drop start) else none

theorem readRange_eq {data : List UInt8} {start stop : Nat} (h : start ≤ stop)
    (hstop : stop ≤ data.length) :
    readRange data start stop = some ((data.drop start).take (stop - start)) := by
  rw [readRange, if_pos ⟨h, hstop⟩, List.drop_take]

/-- From a place to the end. -/
theorem readRange_rest {data : List UInt8} {start : Nat} (h : start ≤ data.length) :
    readRange data start data.length = some (data.drop start) := by
  rw [readRange, if_pos ⟨h, Nat.le_refl _⟩, List.take_length]

variable (sodium : Sodium)

/-- `StateEncryption::decrypt` with its ranges checked; the last is the room for the plaintext,
whose size must not wrap round. -/
def StateEncryption.decryptReading (ciphertext key : List UInt8) : Option (Option (List UInt8)) :=
  if key.length ≠ keySize then some none
  else if ciphertext.length < nonceSize + tagSize then some none
  else do
    let nonce ← readRange ciphertext 0 nonceSize
    let encrypted ← readRange ciphertext nonceSize ciphertext.length
    let _plaintext ← readRange encrypted tagSize encrypted.length
    return sodium.secretboxOpen encrypted nonce key

namespace EncryptedState

def isEncryptedReading (data : List UInt8) : Option Bool :=
  if data.length < 1 + saltSize + nonceSize + tagSize then some false
  else data[0]?.map (· == currentVersion)

/-- `EncryptedState::decrypt` with its ranges checked. -/
def decryptReading (encrypted password : List UInt8) : Option (Throws (Option (List UInt8))) := do
  let marked ← isEncryptedReading encrypted
  if !marked then return .ok none
  else
    let salt ← readRange encrypted 1 (1 + saltSize)
    let ciphertext ← readRange encrypted (1 + saltSize) encrypted.length
    match deriveKeyFromPassword sodium password salt with
    | .error e => return .error e
    | .ok key => (StateEncryption.decryptReading sodium ciphertext key).map .ok

variable {sodium} {x password plaintext : List UInt8}

theorem decryptReading_box (ciphertext key : List UInt8) :
    StateEncryption.decryptReading sodium ciphertext key =
      some (StateEncryption.decrypt sodium ciphertext key) := by
  rw [StateEncryption.decryptReading, StateEncryption.decrypt]
  split
  · rfl
  · split
    · rfl
    · rename_i long
      have room : tagSize ≤ (ciphertext.drop nonceSize).length := by
        rw [List.length_drop]
        omega
      rw [readRange_eq (Nat.zero_le _) (by omega), readRange_rest (by omega)]
      simp only [Option.bind_eq_bind, Option.bind_some, readRange_rest room]
      rfl

theorem isEncryptedReading_eq (data : List UInt8) :
    isEncryptedReading data = some (isEncrypted data) := by
  rw [isEncryptedReading, isEncrypted]
  split
  · rfl
  · rename_i long
    cases data with
    | nil => exact absurd (by decide) long
    | cons first rest => rfl

theorem isEncrypted_length (h : isEncrypted x = true) :
    1 + saltSize + nonceSize + tagSize ≤ x.length := by
  rw [isEncrypted] at h
  split at h
  · cases h
  · omega

/-- No range leaves the vector, whatever it holds. -/
theorem decryptReading_eq (x password : List UInt8) :
    decryptReading sodium x password = some (decrypt sodium x password) := by
  rw [decryptReading, isEncryptedReading_eq, decrypt]
  cases marked : isEncrypted x with
  | false => rfl
  | true =>
    have long := isEncrypted_length marked
    have salt : readRange x 1 (1 + saltSize) = some ((x.drop 1).take saltSize) := by
      rw [readRange_eq (by omega) (by omega), Nat.add_sub_cancel_left]
    have rest : readRange x (1 + saltSize) x.length = some (x.drop (1 + saltSize)) :=
      readRange_rest (by omega)
    simp only [salt, rest, Option.bind_eq_bind, Option.bind_some, Bool.not_true,
      Bool.false_eq_true, if_false, decryptReading_box]
    cases deriveKeyFromPassword sodium password ((x.drop 1).take saltSize) <;> rfl

/-! ## What is accepted -/

/-- The vector is a version, a salt, a nonce and the box of the plaintext under the key that
the password and the salt give. -/
def IsSealed (sodium : Sodium) (password x plaintext : List UInt8) : Prop :=
  ∃ salt nonce key box, salt.length = saltSize ∧ nonce.length = nonceSize ∧
    sodium.pwhash password salt = some key ∧ sodium.secretbox plaintext nonce key = some box ∧
      x = currentVersion :: salt ++ (nonce ++ box)

theorem exists_layout (h : isEncrypted x = true) :
    ∃ salt nonce body, salt.length = saltSize ∧ nonce.length = nonceSize ∧
      tagSize ≤ body.length ∧ x = currentVersion :: salt ++ (nonce ++ body) := by
  have long := isEncrypted_length h
  rw [isEncrypted, if_neg (by omega), beq_iff_eq] at h
  obtain ⟨rest, rfl⟩ : ∃ rest, x = currentVersion :: rest := by
    cases x with
    | nil => cases h
    | cons first rest =>
      cases h
      exact ⟨rest, rfl⟩
  rw [List.length_cons] at long
  refine ⟨rest.take saltSize, (rest.drop saltSize).take nonceSize,
    (rest.drop saltSize).drop nonceSize, ?_, ?_, ?_, ?_⟩
  · rw [List.length_take]
    omega
  · rw [List.length_take, List.length_drop]
    omega
  · rw [List.length_drop, List.length_drop]
    omega
  · rw [List.take_append_drop, List.cons_append, List.take_append_drop]

/-- A vector is taken apart the way it is put together. -/
theorem decrypt_eq_some_iff (ideal : sodium.Ideal) :
    decrypt sodium x password = .ok (some plaintext) ↔ IsSealed sodium password x plaintext := by
  constructor
  · intro h
    have marked : isEncrypted x = true := by
      cases marked : isEncrypted x with
      | true => rfl
      | false =>
        rw [decrypt, marked] at h
        cases h
    obtain ⟨salt, nonce, body, hsalt, hnonce, hbody, rfl⟩ := exists_layout marked
    obtain ⟨key, hkey⟩ := ideal.pwhash_total password hsalt
    rw [decrypt_layout hsalt hnonce hbody hkey] at h
    exact ⟨salt, nonce, key, body, hsalt, hnonce, hkey,
      ideal.secretbox_of_open (Except.ok.inj h), rfl⟩
  · rintro ⟨salt, nonce, key, box, hsalt, hnonce, hkey, hbox, rfl⟩
    have size := sodium.secretbox_length hbox
    rw [decrypt_layout hsalt hnonce (by omega) hkey, sodium.open_secretbox hbox]

/-- There is always an answer. -/
theorem exists_decrypt (ideal : sodium.Ideal) (x password : List UInt8) :
    ∃ answer, decrypt sodium x password = .ok answer := by
  cases marked : isEncrypted x with
  | false => exact ⟨none, by rw [decrypt, marked]; rfl⟩
  | true =>
    obtain ⟨salt, nonce, body, hsalt, hnonce, hbody, rfl⟩ := exists_layout marked
    obtain ⟨key, hkey⟩ := ideal.pwhash_total password hsalt
    exact ⟨_, decrypt_layout hsalt hnonce hbody hkey⟩

theorem exists_create (ideal : sodium.Ideal) (random : Randomness)
    (plaintext password : List UInt8) :
    ∃ created, create sodium random plaintext password = .ok created := by
  obtain ⟨key, hkey⟩ := ideal.pwhash_total password random.salt_length
  have size := sodium.pwhash_length hkey
  obtain ⟨box, hbox⟩ := ideal.secretbox_total plaintext random.nonce_length size
  rw [create, (deriveKeyFromPassword_eq_ok sodium).mpr hkey, ok_bind, StateEncryption.encrypt,
    if_neg (not_not.mpr size), hbox]
  exact ⟨_, rfl⟩

/-- A sealed vector is known by its plaintext and the bytes in front of the box. -/
theorem IsSealed.eq_of_header {y : List UInt8} (h : IsSealed sodium password x plaintext)
    (h' : IsSealed sodium password y plaintext)
    (header : x.take (1 + saltSize + nonceSize) = y.take (1 + saltSize + nonceSize)) : x = y := by
  obtain ⟨salt, nonce, key, box, hsalt, hnonce, hkey, hbox, rfl⟩ := h
  obtain ⟨salt', nonce', key', box', hsalt', hnonce', hkey', hbox', rfl⟩ := h'
  have front (s m b : List UInt8) (hs : s.length = saltSize) (hm : m.length = nonceSize) :
      (currentVersion :: s ++ (m ++ b)).take (1 + saltSize + nonceSize) =
        currentVersion :: s ++ m := by
    rw [← List.append_assoc]
    apply List.take_left'
    rw [List.length_append, List.length_cons, hs, hm]
    omega
  rw [front _ _ _ hsalt hnonce, front _ _ _ hsalt' hnonce'] at header
  obtain ⟨same_salt, rfl⟩ := List.append_inj header (by simp [hsalt, hsalt'])
  cases same_salt
  cases hkey.symm.trans hkey'
  cases hbox.symm.trans hbox'
  rfl

/-- **Decryption accepts what was sealed, and nothing else**: the round trip, the vectors that
give a plaintext, the answer to all others, the answer to a vector with a changed box, and
that no byte outside the vector is read. -/
theorem decrypt_sealed (ideal : sodium.Ideal) :
    (∀ random plaintext password, ∃ created,
      create sodium random plaintext password = .ok created ∧
        decrypt sodium created password = .ok (some plaintext) ∧
        ∀ x, x ≠ created → x.take (1 + saltSize + nonceSize) =
            created.take (1 + saltSize + nonceSize) →
          decrypt sodium x password ≠ .ok (some plaintext)) ∧
    (∀ x password plaintext, decrypt sodium x password = .ok (some plaintext) ↔
      IsSealed sodium password x plaintext) ∧
    (∀ x password, (∀ plaintext, ¬IsSealed sodium password x plaintext) →
      decrypt sodium x password = .ok none) ∧
    ∀ x password, decryptReading sodium x password = some (decrypt sodium x password) := by
  refine ⟨?_, fun x password plaintext => decrypt_eq_some_iff ideal, ?_, decryptReading_eq⟩
  · intro random plaintext password
    obtain ⟨created, made⟩ := exists_create ideal random plaintext password
    have opened := decrypt_create made
    refine ⟨created, made, opened, ?_⟩
    intro x changed header accepted
    exact changed (((decrypt_eq_some_iff ideal).mp accepted).eq_of_header
      ((decrypt_eq_some_iff ideal).mp opened) header)
  · intro x password unsealed
    obtain ⟨answer, found⟩ := exists_decrypt ideal x password
    cases answer with
    | none => exact found
    | some plaintext => exact absurd ((decrypt_eq_some_iff ideal).mp found) (unsealed plaintext)

/-! ## A box with a keyed hash in front -/

def macTag (plaintext nonce key : List UInt8) : List UInt8 :=
  (Sha256.hmac key (nonce ++ plaintext)).take tagSize

theorem macTag_length (plaintext nonce key : List UInt8) :
    (macTag plaintext nonce key).length = tagSize := by
  rw [macTag, List.length_take, Sha256.hmac, Sha256.sha256_length]
  rfl

def macSealed : Sodium where
  pwhash password salt := some (Sha256.sha256 (salt ++ password))
  secretbox plaintext nonce key := some (macTag plaintext nonce key ++ plaintext)
  secretboxOpen box nonce key :=
    if box.take tagSize = macTag (box.drop tagSize) nonce key then some (box.drop tagSize) else none
  pwhash_length h := by
    cases h
    exact Sha256.sha256_length _
  secretbox_length h := by
    cases h
    rw [List.length_append, macTag_length, Nat.add_comm]
  open_secretbox {plaintext nonce key ciphertext} h := by
    cases h
    have start := macTag_length plaintext nonce key
    rw [List.take_left' start, List.drop_left' start, if_pos rfl]

theorem macSealed_ideal : macSealed.Ideal where
  pwhash_total _ _ := ⟨_, rfl⟩
  secretbox_total _ _ _ := ⟨_, rfl⟩
  secretbox_of_open {box nonce key plaintext} h := by
    change (if _ then _ else _) = _ at h
    split at h
    · rename_i tagged
      cases h
      change some _ = some _
      rw [← tagged, List.take_append_drop]
    · cases h

def zeroRandomness : Randomness where
  salt := List.replicate saltSize 0
  nonce := List.replicate nonceSize 0
  salt_length := List.length_replicate
  nonce_length := List.length_replicate

/-- An empty plaintext comes back, and a vector of 57 zeros gives nothing. -/
theorem decrypt_sealed_empty :
    (∃ created, create macSealed zeroRandomness [] (literal "password") = .ok created ∧
      decrypt macSealed created (literal "password") = .ok (some [])) ∧
    decrypt macSealed (List.replicate 57 0) (literal "password") = .ok none := by
  obtain ⟨roundTrip, -, refused, -⟩ := decrypt_sealed macSealed_ideal
  obtain ⟨created, made, opened, -⟩ := roundTrip zeroRandomness [] (literal "password")
  refine ⟨⟨created, made, opened⟩, refused _ _ ?_⟩
  rintro plaintext ⟨salt, nonce, key, box, -, -, -, -, layout⟩
  cases layout

end EncryptedState

end MidnightSdk.Crypto
