import MidnightSdk.Crypto.StateEncryption
import MidnightSdk.Wallet.Base64
import MidnightSdk.Wallet.Persistence

/-!
# Encrypted saves

A save is encrypted under a password and handed out as base64. The decoder
garbles the bytes behind the last full group, and the box is the last thing
written, so it is the box that a garbled tail breaks.
-/

namespace MidnightSdk.Wallet

open Cpp Crypto

def StoredFacade.serializeEncrypted (sodium : Sodium) (text : JsonText) (random : Randomness)
    (w : StoredFacade) (now : UInt64) (password : List UInt8) : Throws (List UInt8) := do
  let jsonState := w.serialize text now
  let encrypted ← EncryptedState.create sodium random jsonState password
  return base64Encode encrypted

/-- The answer, and the wallet afterwards: every saved member is replaced. -/
def StoredFacade.restoreFromEncrypted (sodium : Sodium) (text : JsonText) (w : StoredFacade)
    (encryptedBase64 password : List UInt8) : Throws (Bool × StoredFacade) :=
  match base64Decode encryptedBase64 with
  | none => .ok (false, w)
  | some encrypted => do
    let jsonState ← EncryptedState.decrypt sodium encrypted password
    match jsonState with
    | none => return (false, w)
    | some jsonState => do
      let restored ← restore text jsonState
      return (true, restored)

/-- A box whose last one or two bytes were altered is not opened. -/
def RefusesAltered (sodium : Sodium) (plaintext nonce key : List UInt8) : Prop :=
  ∀ kept tail altered : List UInt8, sodium.secretbox plaintext nonce key = some (kept ++ tail) →
    altered.length = tail.length → tail.length ≤ 2 → altered ≠ tail →
      sodium.secretboxOpen (kept ++ altered) nonce key = none

section

variable {sodium : Sodium} {text : JsonText} {random : Randomness} {w : StoredFacade} {now : UInt64}
  {password saved : List UInt8}

theorem serializeEncrypted_eq_ok
    (h : w.serializeEncrypted sodium text random now password = .ok saved) :
    ∃ created, EncryptedState.create sodium random (w.serialize text now) password = .ok created ∧
      saved = base64Encode created := by
  obtain ⟨created, hcreated, hsaved⟩ := bind_eq_ok.mp h
  cases hsaved
  exact ⟨created, hcreated, rfl⟩

/-- The groups before a garbled tail are the header and the start of the box. -/
theorem garbled_box {created whole tail : List UInt8}
    (h : EncryptedState.create sodium random (w.serialize text now) password = .ok created)
    (hsplit : created = whole ++ tail) (htail : tail.length ≤ 2) :
    ∃ key kept, sodium.pwhash password random.salt = some key ∧
      sodium.secretbox (w.serialize text now) random.nonce key = some (kept ++ tail) ∧
      whole = currentVersion :: random.salt ++ (random.nonce ++ kept) := by
  obtain ⟨key, box, hkey, hbox, hcreated⟩ := EncryptedState.create_eq_ok h
  have size := sodium.secretbox_length hbox
  have layout : (currentVersion :: random.salt ++ random.nonce) ++ box = whole ++ tail := by
    rw [← hsplit, hcreated, List.append_assoc]
  rw [List.append_eq_append_iff] at layout
  rcases layout with ⟨kept, hwhole, hkept⟩ | ⟨short, -, hshort⟩
  · refine ⟨key, kept, hkey, ?_, ?_⟩
    · rw [← hkept]
      exact hbox
    · rw [hwhole, List.append_assoc]
  · have longer := congrArg List.length hshort
    rw [List.length_append, size, tagSize] at longer
    omega

theorem restoreFromEncrypted_decoded {encrypted : List UInt8} (facade : StoredFacade)
    (hdecoded : base64Decode saved = some encrypted) :
    facade.restoreFromEncrypted sodium text saved password = do
      let jsonState ← EncryptedState.decrypt sodium encrypted password
      match jsonState with
      | none => return (false, facade)
      | some jsonState => do
        let restored ← restore text jsonState
        return (true, restored) := by
  rw [StoredFacade.restoreFromEncrypted, hdecoded]

/-- Nothing behind the last full group: the save is restored. -/
theorem restoreFromEncrypted_whole (facade : StoredFacade)
    (inverse : text.InverseOn (w.toJson now))
    (h : w.serializeEncrypted sodium text random now password = .ok saved)
    (hmod : (w.serialize text now).length % 3 = 0) :
    ∃ w', facade.restoreFromEncrypted sodium text saved password = .ok (true, w') := by
  obtain ⟨created, hcreated, rfl⟩ := serializeEncrypted_eq_ok h
  have size := EncryptedState.create_length hcreated
  have decoded := (base64Decode_encode_iff created).mpr (by omega)
  obtain ⟨balances, -, restored⟩ := restoreJson_toJson w now
  refine ⟨w.restored balances, ?_⟩
  rw [restoreFromEncrypted_decoded facade decoded, EncryptedState.decrypt_create hcreated]
  change (do
    let restored ← restore text (w.serialize text now)
    return (true, restored)) = _
  rw [restore_serialize inverse, restored]
  rfl

/-- A box that refuses what the decoder makes of its end is not opened. -/
theorem restoreFromEncrypted_garbled (facade : StoredFacade)
    (h : w.serializeEncrypted sodium text random now password = .ok saved)
    (refuses : ∀ key, sodium.pwhash password random.salt = some key →
      RefusesAltered sodium (w.serialize text now) random.nonce key)
    (hmod : (w.serialize text now).length % 3 ≠ 0) :
    facade.restoreFromEncrypted sodium text saved password = .ok (false, facade) := by
  obtain ⟨created, hcreated, rfl⟩ := serializeEncrypted_eq_ok h
  have size := EncryptedState.create_length hcreated
  obtain ⟨whole, tail, garbled, hsplit, hdecoded, htail, hgarbled, hne⟩ :=
    decodeLoop_base64Encode created
  obtain ⟨key, kept, hkey, hbox, rfl⟩ := garbled_box hcreated hsplit (by omega)
  have altered : garbled ≠ tail := by
    apply hne
    rintro rfl
    rw [List.length_nil] at htail
    omega
  have closed := refuses key hkey kept tail garbled hbox hgarbled (by omega) altered
  have box := sodium.secretbox_length hbox
  have long : tagSize ≤ (kept ++ garbled).length := by
    rw [List.length_append, hgarbled, ← List.length_append, box]
    omega
  have decoded : base64Decode (base64Encode created) =
      some (currentVersion :: random.salt ++ (random.nonce ++ (kept ++ garbled))) := by
    rw [base64Decode, hdecoded]
    simp only [List.append_assoc]
  rw [restoreFromEncrypted_decoded facade decoded,
    EncryptedState.decrypt_layout random.salt_length random.nonce_length long hkey, closed]
  rfl

end

/-- Base64 gives back exactly the texts without a tail; so a save is accepted
when its JSON has no tail, and otherwise only if an altered box can be opened. -/
theorem base64_roundTrip_iff (sodium : Sodium) (text : JsonText) :
    (∀ x, base64Decode (base64Encode x) = some x ↔ x.length % 3 = 0) ∧
    ∀ (random : Randomness) (w facade : StoredFacade) (now : UInt64) (password saved : List UInt8),
      text.InverseOn (w.toJson now) →
      w.serializeEncrypted sodium text random now password = .ok saved →
      ((w.serialize text now).length % 3 = 0 →
        ∃ w', facade.restoreFromEncrypted sodium text saved password = .ok (true, w')) ∧
      ((∀ key, sodium.pwhash password random.salt = some key →
          RefusesAltered sodium (w.serialize text now) random.nonce key) →
        (∃ w', facade.restoreFromEncrypted sodium text saved password = .ok (true, w')) →
          (w.serialize text now).length % 3 = 0) := by
  refine ⟨base64Decode_encode_iff, fun random w facade now password saved inverse h => ⟨?_, ?_⟩⟩
  · intro hmod
    exact restoreFromEncrypted_whole facade inverse h hmod
  · rintro refuses ⟨w', accepted⟩
    by_contra hmod
    rw [restoreFromEncrypted_garbled facade h refuses hmod] at accepted
    cases accepted

/-- A box that is sealed with the end of its content. -/
def endTag (plaintext : List UInt8) : List UInt8 :=
  (plaintext.reverse ++ List.replicate tagSize 0).take tagSize

theorem endTag_length (plaintext : List UInt8) : (endTag plaintext).length = tagSize := by
  simp [endTag]

def endSealed : Sodium where
  pwhash _ _ := some (List.replicate keySize 0)
  secretbox plaintext _ _ := some (endTag plaintext ++ plaintext)
  secretboxOpen ciphertext _ _ :=
    let plaintext := ciphertext.drop tagSize
    if ciphertext.take tagSize = endTag plaintext then some plaintext else none
  pwhash_length h := by
    cases h
    exact List.length_replicate
  secretbox_length h := by
    cases h
    rw [List.length_append, endTag_length, Nat.add_comm]
  open_secretbox {plaintext nonce key ciphertext} h := by
    cases h
    have start := endTag_length plaintext
    dsimp only
    rw [List.drop_left' start, List.take_left' start, if_pos rfl]

/-- Two ends of one length that are sealed alike are the same. -/
theorem endTag_inj {kept tail altered : List UInt8} (hlen : altered.length = tail.length)
    (hshort : tail.length ≤ tagSize) (h : endTag (kept ++ altered) = endTag (kept ++ tail)) :
    altered = tail := by
  have firsts := congrArg (List.take tail.length) h
  simp only [endTag, List.reverse_append, List.append_assoc, List.take_take] at firsts
  rw [Nat.min_eq_left hshort, List.take_left' (by simpa using hlen), List.take_left' (by simp)]
    at firsts
  exact List.reverse_injective firsts

theorem endSealed_refuses {plaintext : List UInt8} (hlong : 2 ≤ plaintext.length)
    (nonce key : List UInt8) : RefusesAltered endSealed plaintext nonce key := by
  intro kept tail altered hbox hlen hshort hne
  have layout : endTag plaintext ++ plaintext = kept ++ tail := Option.some.inj hbox
  have start := endTag_length plaintext
  obtain ⟨content, rfl, rfl⟩ :
      ∃ content, kept = endTag plaintext ++ content ∧ plaintext = content ++ tail := by
    rw [List.append_eq_append_iff] at layout
    rcases layout with ⟨content, hkept, hplain⟩ | ⟨short, htag, htail⟩
    · exact ⟨content, hkept, hplain⟩
    · have total := congrArg List.length htail
      rw [List.length_append] at total
      obtain rfl : short = [] := List.length_eq_zero_iff.mp (by omega)
      exact ⟨[], by simpa using htag.symm, by simpa using htail.symm⟩
  change (if _ then _ else _) = _
  rw [List.append_assoc, List.take_left' start, List.drop_left' start, if_neg]
  intro heq
  exact hne (endTag_inj hlen (by rw [tagSize]; omega) heq.symm)

def newSave : JsonText := .only (saveText []) (StoredFacade.toJson {} 10)

theorem zeroSalt_length : (List.replicate saltSize (0 : UInt8)).length = saltSize :=
  List.length_replicate

theorem zeroNonce_length : (List.replicate nonceSize (0 : UInt8)).length = nonceSize :=
  List.length_replicate

def noRandomness : Randomness where
  salt := List.replicate saltSize 0
  nonce := List.replicate nonceSize 0
  salt_length := zeroSalt_length
  nonce_length := zeroNonce_length

theorem serializeEncrypted_endSealed (text : JsonText) (w : StoredFacade) (now : UInt64)
    (password : List UInt8) :
    w.serializeEncrypted endSealed text noRandomness now password =
      .ok (base64Encode (currentVersion :: noRandomness.salt ++ (noRandomness.nonce ++
        (endTag (w.serialize text now) ++ w.serialize text now)))) := rfl

theorem serialize_newSave : StoredFacade.serialize newSave {} 10 = saveText [] := rfl

theorem saveText_length : (saveText []).length % 3 = 0 := by decide +kernel

theorem base64_roundTrip_new :
    ∃ saved w', StoredFacade.serializeEncrypted endSealed newSave noRandomness {} 10
        (literal "password") = .ok saved ∧
      StoredFacade.restoreFromEncrypted endSealed newSave {} saved (literal "password") =
        .ok (true, w') ∧ (saveText []).length % 3 = 0 := by
  have written := serializeEncrypted_endSealed newSave {} 10 (literal "password")
  have inverse : newSave.InverseOn (StoredFacade.toJson {} 10) := JsonText.only_inverseOn _ _
  have length := saveText_length
  obtain ⟨accepts, only_then⟩ := (base64_roundTrip_iff endSealed newSave).2 noRandomness {} {} 10
    (literal "password") _ inverse written
  rw [serialize_newSave] at accepts only_then
  obtain ⟨w', accepted⟩ := accepts length
  refine ⟨_, w', written, accepted, only_then ?_ ⟨w', accepted⟩⟩
  intro key _
  exact endSealed_refuses (by decide +kernel) noRandomness.nonce key

theorem base64_garbles : base64Decode (base64Encode [102]) ≠ some [102] := by decide

end MidnightSdk.Wallet
