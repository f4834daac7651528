import Mathlib.Data.FinEnum
import Mathlib.Data.Set.Finite.List
import MidnightSdk.Codec.ScaleEncoder
import MidnightSdk.Library.BigEndian
import MidnightSdk.Signing.SignatureVerifier
import MidnightSdk.Wallet.Addresses

/-!
# The finality vote signer

What is signed is the height in four bytes and the block hash behind it: decoded when
it is hex, and otherwise character by character. So a text that is no hex has the same
signatures as the hex text that spells its characters, and no other hashes are confused.
-/

namespace MidnightSdk.Crypto.Ed25519Signer

open Cpp

def signMessage (hasSodium : Bool) (sodium : SodiumSign) (message : List UInt8)
    (privateKey : Bytes 64) : Throws (Bytes 64) :=
  if hasSodium then
    if sodium.initialises then
      match sodium.signDetached message privateKey with
      | none => .error (.runtimeError "Failed to sign message")
      | some sig =>
        if h : sig.length = 64 then .ok ⟨sig, h⟩
        else .error (.runtimeError
          ("Signature size mismatch: expected 64 got " ++ toString sig.length))
    else .error (.runtimeError "libsodium initialization failed")
  else .error (.runtimeError "libsodium is required for Ed25519 signing")

end MidnightSdk.Crypto.Ed25519Signer

namespace MidnightSdk.Signing

open Cpp Crypto HexText SignatureVerifier

namespace KeyManager

/-- `public_key.substr(2, 40)` -/
def addressDigits (publicKey : List Char) : Throws (List Char) :=
  if publicKey.length < 2 then .error (.outOfRange "basic_string::substr")
  else .ok ((publicKey.drop 2).take 40)

def deriveAddressSr25519 (hasSodium : Bool) (publicKey : List Char) : Throws (List Char) := do
  if !hasSodium then
    throw (.runtimeError "Cannot derive address: libsodium crypto is unavailable")
  let digits ← addressDigits publicKey
  return '5' :: digits

def deriveAddressEd25519 (hasSodium : Bool) (publicKey : List Char) : Throws (List Char) := do
  if !hasSodium then
    throw (.runtimeError "Cannot derive address: libsodium crypto is unavailable")
  let digits ← addressDigits publicKey
  return 'e' :: digits

def deriveAddress (hasSodium : Bool) (keypair : Keypair) : Throws (List Char) :=
  match keypair.type with
  | .sr25519 => deriveAddressSr25519 hasSodium keypair.publicKey
  | .ed25519 => deriveAddressEd25519 hasSodium keypair.publicKey
  | .ecdsa => do
    let digits ← addressDigits keypair.publicKey
    return ['0', 'x'] ++ digits
  | .bip340 => do
    let hexPk := Util.stripHexPrefix keypair.publicKey
    let pkBytes ← Util.hexToBytes hexPk
    let address ← Wallet.Address.encodeUnshielded pkBytes .preProd
    return textOf address
  | .bls => do
    let pkBytes ← Util.hexToBytes (Util.stripHexPrefix keypair.publicKey)
    let address ← Wallet.Address.encodeDustFromPubkey pkBytes .preProd
    return textOf address
  | .unnamed _ => return []

end KeyManager

structure FinalityVote where
  targetBlockHeight : UInt32
  targetBlockHash : List UInt8
  voterAddress : List Char
  signature : List Char
  timestamp : UInt64

def appendHashPayload (target hash : List UInt8) : Throws (List UInt8) := do
  let normalized := Util.stripHexPrefix (textOf hash)
  if Util.isHexString normalized then
    let bytes ← stoulPairs normalized
    return target ++ bytes
  else return target ++ hash

structure FinalityVoteSigner where
  keypair : Keypair
  voterAddress : List Char

namespace FinalityVoteSigner

/-- The height as it is pushed, the high byte first. -/
def heightBytes (blockHeight : UInt32) : List UInt8 :=
  [((blockHeight >>> 24) &&& 0xFF).toUInt8, ((blockHeight >>> 16) &&& 0xFF).toUInt8,
    ((blockHeight >>> 8) &&& 0xFF).toUInt8, (blockHeight &&& 0xFF).toUInt8]

def voteMessage (blockHeight : UInt32) (blockHash : List UInt8) : Throws (List UInt8) :=
  appendHashPayload (heightBytes blockHeight) blockHash

variable (build : Build) (sodium : SodiumSign)

/-- The constructor. -/
def new (voterKeypair : Keypair) : Throws FinalityVoteSigner := do
  let voterAddress ← KeyManager.deriveAddress build.enabled voterKeypair
  return ⟨voterKeypair, voterAddress⟩

def ed25519Sign (self : FinalityVoteSigner) (message : List UInt8) : Throws (List Char) :=
  match hexToFixedBytes self.keypair.privateKey 64 with
  | none => .error (.invalidArgument "Cannot sign: private key hex is invalid")
  | some privateKey => do
    let signature ←
      Ed25519Signer.signMessage (build.enabled && build.header) sodium message privateKey
    return prefixedHex signature.1

def signVote (self : FinalityVoteSigner) (blockHeight : UInt32) (blockHash : List UInt8) :
    Throws (List Char) := do
  let message ← voteMessage blockHeight blockHash
  ed25519Sign build sodium self message

/-- `create_vote`, at the time `now`. -/
def createVote (self : FinalityVoteSigner) (now : UInt64) (blockHeight : UInt32)
    (blockHash : List UInt8) : Throws FinalityVote := do
  let signature ← signVote build sodium self blockHeight blockHash
  return {
    targetBlockHeight := blockHeight
    targetBlockHash := blockHash
    voterAddress := self.voterAddress
    signature
    timestamp := now }

/-- Only the library's exceptions are caught. -/
def verifyVote (self : FinalityVoteSigner) (vote : FinalityVote) : Throws Bool :=
  if vote.signature.isEmpty then .ok false
  else
    match hexToFixedBytes self.keypair.publicKey 32, hexToFixedBytes vote.signature 64 with
    | some publicKey, some signature => do
      let message ← voteMessage vote.targetBlockHeight vote.targetBlockHash
      match Ed25519Signer.verifySignature (build.enabled && build.header) sodium message signature
          publicKey with
      | .ok valid => return valid
      | .error _ => return false
    | _, _ => .ok false

/-! ## What is signed -/

/-- The hash is hex, behind a prefix or none, and spells these bytes. -/
def HexOf (hash bytes : List UInt8) : Prop :=
  bytes ≠ [] ∧ Spelled ([] :: prefixes) (textOf hash) bytes

/-- What stands for a hash in a message. -/
inductive Payload (hash : List UInt8) : List UInt8 → Prop
  | decoded {bytes : List UInt8} (h : HexOf hash bytes) : Payload hash bytes
  | verbatim (h : ∀ bytes, ¬HexOf hash bytes) : Payload hash hash

/-- Equal up to a prefix and the case of letters. -/
def SameHash (a b : List UInt8) : Prop :=
  (Util.stripHexPrefix (textOf a)).map Char.toLower =
    (Util.stripHexPrefix (textOf b)).map Char.toLower

/-- One hash is no hex, and the other spells its characters. -/
def Quotes (raw hex : List UInt8) : Prop := (∀ bytes, ¬HexOf raw bytes) ∧ HexOf hex raw

theorem isHexString_strip_iff {hash : List UInt8} :
    Util.isHexString (Util.stripHexPrefix (textOf hash)) = true ↔ ∃ bytes, HexOf hash bytes := by
  have filled {text : List Char} {bytes : List UInt8} (h : Spells text bytes) :
      text ≠ [] ↔ bytes ≠ [] := by
    have length := h.length
    rw [← List.length_pos_iff, ← List.length_pos_iff]
    omega
  rw [Util.isHexString_iff]
  constructor
  · rintro ⟨hne, bytes, h⟩
    exact ⟨bytes, (filled h).mp hne, spelled_strip.mp h⟩
  · rintro ⟨bytes, hne, h⟩
    have spelled := spelled_strip.mpr h
    exact ⟨(filled spelled).mpr hne, bytes, spelled⟩

/-- The loop never throws, since it is entered with hex only. -/
theorem appendHashPayload_eq (hash : List UInt8) :
    ∃ payload, Payload hash payload ∧
      ∀ target, appendHashPayload target hash = .ok (target ++ payload) := by
  by_cases hex : ∃ bytes, HexOf hash bytes
  · have entered := isHexString_strip_iff.mpr hex
    obtain ⟨bytes, h⟩ := hex
    refine ⟨bytes, .decoded h, fun target => ?_⟩
    rw [appendHashPayload, if_pos entered, stoulPairs_spells (spelled_strip.mpr h.2)]
    rfl
  · refine ⟨hash, .verbatim (not_exists.mp hex), fun target => ?_⟩
    exact if_neg (mt isHexString_strip_iff.mp hex)

/-- The bytes that the codec writes, last first. -/
theorem heightBytes_eq (blockHeight : UInt32) :
    heightBytes blockHeight = BigEndian.beBytes 4 blockHeight.toNat := by
  have written := Codec.ScaleEncoder.encodeU32Le_buffer ⟨[]⟩ blockHeight
  rw [List.nil_append] at written
  rw [BigEndian.beBytes, ← written]
  rfl

theorem heightBytes_inj {h h' : UInt32} (same : heightBytes h = heightBytes h') : h = h' := by
  have value (h : UInt32) : BigEndian.beValue (heightBytes h) = h.toNat := by
    rw [heightBytes_eq]
    exact BigEndian.beValue_beBytes_of_lt h.toNat_lt
  apply UInt32.toNat_inj.mp
  rw [← value h, same, value]

theorem voteMessage_eq (blockHeight : UInt32) (blockHash : List UInt8) :
    ∃ payload, Payload blockHash payload ∧
      voteMessage blockHeight blockHash = .ok (heightBytes blockHeight ++ payload) := by
  obtain ⟨payload, stands, appended⟩ := appendHashPayload_eq blockHash
  exact ⟨payload, stands, appended _⟩

/-! ## Which hashes are confused -/

/-- **Hashes with one payload** are the same up to prefix and case, or one quotes the other. -/
theorem confused_of_payload {a b payload : List UInt8} (ha : Payload a payload)
    (hb : Payload b payload) : SameHash a b ∨ Quotes a b ∨ Quotes b a := by
  cases ha with
  | decoded ha =>
    cases hb with
    | decoded hb =>
      exact .inl (Util.toLower_of_spells (spelled_strip.mpr ha.2) (spelled_strip.mpr hb.2))
    | verbatim raw => exact .inr (.inr ⟨raw, ha⟩)
  | verbatim raw =>
    cases hb with
    | decoded hb => exact .inr (.inl ⟨raw, hb⟩)
    | verbatim _ => exact .inl rfl

theorem confused_of_voteMessage {h h' : UInt32} {a b message : List UInt8}
    (ha : voteMessage h a = .ok message) (hb : voteMessage h' b = .ok message) :
    h = h' ∧ (SameHash a b ∨ Quotes a b ∨ Quotes b a) := by
  obtain ⟨payload, stands, made⟩ := voteMessage_eq h a
  obtain ⟨payload', stands', made'⟩ := voteMessage_eq h' b
  have same : heightBytes h ++ payload = heightBytes h' ++ payload' := by
    rw [← Except.ok.inj (ha.symm.trans made), ← Except.ok.inj (hb.symm.trans made')]
  obtain ⟨heights, rfl⟩ := List.append_inj same (by simp [heightBytes])
  exact ⟨heightBytes_inj heights, confused_of_payload stands stands'⟩

/-! ## Votes -/

/-- A pair of keys as it is kept. -/
structure Kept (keypair : Keypair) (publicKey : Bytes 32) (privateKey : Bytes 64) : Prop where
  type : keypair.type = .ed25519
  spelledPublic : Spelled ([] :: prefixes) keypair.publicKey publicKey.1
  spelledPrivate : Spelled ([] :: prefixes) keypair.privateKey privateKey.1

/-- The library is there, and accepts under the one key what it signs under the other. -/
structure Correct (build : Build) (sodium : SodiumSign) (publicKey : Bytes 32)
    (privateKey : Bytes 64) : Prop where
  present : build.enabled = true ∧ build.header = true ∧ sodium.initialises = true
  verify_sign (message : List UInt8) : ∃ signature : Bytes 64,
    sodium.signDetached message privateKey = some signature.1 ∧
      sodium.verifyDetached signature message publicKey = true

/-- No signature is accepted for two of the messages. -/
def Binding (sodium : SodiumSign) (publicKey : Bytes 32) (messages : Set (List UInt8)) : Prop :=
  ∀ (signature : Bytes 64), ∀ m ∈ messages, ∀ m' ∈ messages,
    sodium.verifyDetached signature m publicKey = true →
      sodium.verifyDetached signature m' publicKey = true → m = m'

/-- There are more messages than signatures, so that not all of them are told apart. -/
theorem not_binding_univ {build : Build} {sodium : SodiumSign} {publicKey : Bytes 32}
    {privateKey : Bytes 64} (correct : Correct build sodium publicKey privateKey) :
    ¬Binding sodium publicKey Set.univ := by
  intro binding
  choose sign signed accepted using correct.verify_sign
  have finite : Finite (Bytes 64) := (List.finite_length_eq UInt8 64).to_subtype
  obtain ⟨m, m', differ, same⟩ := Finite.exists_ne_map_eq_of_infinite sign
  have accepted' := accepted m'
  rw [← same] at accepted'
  exact differ (binding (sign m) m trivial m' trivial (accepted m) accepted')

/-- The messages of some votes. -/
def messagesOf (votes : Set FinalityVote) : Set (List UInt8) :=
  {message | ∃ vote ∈ votes,
    voteMessage vote.targetBlockHeight vote.targetBlockHash = .ok message}

section Signer
variable {build : Build} {sodium : SodiumSign} {self : FinalityVoteSigner} {vote : FinalityVote}
  {publicKey : Bytes 32} {privateKey : Bytes 64}

theorem new_eq {keypair : Keypair} (kept : Kept keypair publicKey privateKey)
    (enabled : build.enabled = true) :
    new build keypair = .ok ⟨keypair, 'e' :: (keypair.publicKey.drop 2).take 40⟩ := by
  obtain ⟨lead, -, behind, whole, spelled⟩ := kept.spelledPublic
  have long : ¬keypair.publicKey.length < 2 := by
    have length := spelled.length
    rw [publicKey.2] at length
    rw [whole, List.length_append]
    omega
  simp only [new, KeyManager.deriveAddress, kept.type, KeyManager.deriveAddressEd25519, enabled,
    KeyManager.addressDigits, if_neg long]
  rfl

/-- The answer about a vote that can be read. -/
theorem verifyVote_eq {signature : Bytes 64} {message : List UInt8}
    (present : build.enabled = true ∧ build.header = true ∧ sodium.initialises = true)
    (hkey : Spelled ([] :: prefixes) self.keypair.publicKey publicKey.1)
    (hsig : hexToFixedBytes vote.signature 64 = some signature)
    (hmessage : voteMessage vote.targetBlockHeight vote.targetBlockHash = .ok message) :
    verifyVote build sodium self vote =
      .ok (sodium.verifyDetached signature message publicKey) := by
  obtain ⟨enabled, header, started⟩ := present
  have filled : vote.signature.isEmpty = false := by
    rw [List.isEmpty_eq_false_iff]
    intro empty
    rw [empty] at hsig
    cases hsig
  simp only [verifyVote, filled, hexToFixedBytes_eq_some.mpr hkey, hsig, hmessage, ok_bind,
    Ed25519Signer.verifySignature, enabled, header, started]
  rfl

theorem reads_of_accepted
    (present : build.enabled = true ∧ build.header = true ∧ sodium.initialises = true)
    (hkey : Spelled ([] :: prefixes) self.keypair.publicKey publicKey.1)
    (h : verifyVote build sodium self vote = .ok true) :
    ∃ signature message, hexToFixedBytes vote.signature 64 = some signature ∧
      voteMessage vote.targetBlockHeight vote.targetBlockHash = .ok message ∧
      sodium.verifyDetached signature message publicKey = true := by
  obtain ⟨payload, -, made⟩ := voteMessage_eq vote.targetBlockHeight vote.targetBlockHash
  cases hsig : hexToFixedBytes vote.signature 64 with
  | none =>
    simp only [verifyVote, hexToFixedBytes_eq_some.mpr hkey, hsig] at h
    split at h <;> cases h
  | some signature =>
    rw [verifyVote_eq present hkey hsig made] at h
    exact ⟨signature, _, rfl, made, Except.ok.inj h⟩

/-- The vote for a message that is signed. -/
theorem createVote_eq {blockHeight : UInt32} {blockHash message : List UInt8} {signature : Bytes 64}
    (present : build.enabled = true ∧ build.header = true ∧ sodium.initialises = true)
    (hkey : Spelled ([] :: prefixes) self.keypair.privateKey privateKey.1)
    (hmessage : voteMessage blockHeight blockHash = .ok message)
    (signed : sodium.signDetached message privateKey = some signature.1) (now : UInt64) :
    createVote build sodium self now blockHeight blockHash =
      .ok ⟨blockHeight, blockHash, self.voterAddress, prefixedHex signature.1, now⟩ := by
  obtain ⟨enabled, header, started⟩ := present
  simp only [createVote, signVote, hmessage, ok_bind, ed25519Sign,
    hexToFixedBytes_eq_some.mpr hkey, Ed25519Signer.signMessage, enabled, header, started, signed,
    signature.2]
  rfl

theorem read_prefixedHex (signature : Bytes 64) :
    hexToFixedBytes (prefixedHex signature.1) 64 = some signature :=
  hexToFixedBytes_eq_some.mpr ((spelled_prefixedHex signature.1).mono marked_subset)

/-- A signer accepts its votes. -/
theorem verifyVote_createVote (kept : Kept self.keypair publicKey privateKey)
    (correct : Correct build sodium publicKey privateKey) (now : UInt64) (blockHeight : UInt32)
    (blockHash : List UInt8) :
    ∃ vote, createVote build sodium self now blockHeight blockHash = .ok vote ∧
      verifyVote build sodium self vote = .ok true := by
  obtain ⟨payload, -, made⟩ := voteMessage_eq blockHeight blockHash
  obtain ⟨signature, signed, accepted⟩ :=
    correct.verify_sign (heightBytes blockHeight ++ payload)
  let vote : FinalityVote :=
    ⟨blockHeight, blockHash, self.voterAddress, prefixedHex signature.1, now⟩
  have read : hexToFixedBytes vote.signature 64 = some signature := read_prefixedHex signature
  have verified : verifyVote build sodium self vote = .ok (sodium.verifyDetached signature
      (heightBytes blockHeight ++ payload) publicKey) :=
    verifyVote_eq correct.present kept.spelledPublic read made
  refine ⟨vote, createVote_eq correct.present kept.spelledPrivate made signed now, ?_⟩
  rw [verified, accepted]

end Signer

/-- **What a vote binds.** A signer accepts its votes; and of the votes among which no
signature passes for two messages, those accepted with one signature have one height, and
hashes that are the same up to prefix and case or of which one quotes the other. -/
theorem votes_bind (build : Build) (sodium : SodiumSign) (keypair : Keypair)
    (publicKey : Bytes 32) (privateKey : Bytes 64) (kept : Kept keypair publicKey privateKey)
    (correct : Correct build sodium publicKey privateKey) (votes : Set FinalityVote)
    (binding : Binding sodium publicKey (messagesOf votes)) :
    ∃ signer, new build keypair = .ok signer ∧
      (∀ now blockHeight blockHash,
        ∃ vote, createVote build sodium signer now blockHeight blockHash = .ok vote ∧
          verifyVote build sodium signer vote = .ok true) ∧
      ∀ vote ∈ votes, ∀ vote' ∈ votes, verifyVote build sodium signer vote = .ok true →
        verifyVote build sodium signer vote' = .ok true → vote.signature = vote'.signature →
        vote.targetBlockHeight = vote'.targetBlockHeight ∧
          (SameHash vote.targetBlockHash vote'.targetBlockHash ∨
            Quotes vote.targetBlockHash vote'.targetBlockHash ∨
            Quotes vote'.targetBlockHash vote.targetBlockHash) := by
  refine ⟨_, new_eq kept correct.present.1, verifyVote_createVote kept correct, ?_⟩
  intro vote hvote vote' hvote' haccepted haccepted' same
  obtain ⟨signature, message, hsig, hmessage, accepted⟩ :=
    reads_of_accepted correct.present kept.spelledPublic haccepted
  obtain ⟨signature', message', hsig', hmessage', accepted'⟩ :=
    reads_of_accepted correct.present kept.spelledPublic haccepted'
  rw [same, hsig'] at hsig
  obtain rfl := Option.some.inj hsig
  obtain rfl := binding _ message ⟨vote, hvote, hmessage⟩ message' ⟨vote', hvote', hmessage'⟩
    accepted accepted'
  exact confused_of_voteMessage hmessage hmessage'

/-! ## Two hashes with one vote -/

def sampleSecret : Bytes 64 := join sampleSeed sampleKey

def sampleKeypair : Keypair where
  type := .ed25519
  publicKey := keyText
  privateKey := prefixedHex sampleSecret.1
  seed := []

theorem kept_sample : Kept sampleKeypair sampleKey sampleSecret where
  type := rfl
  spelledPublic := spelled_keyText.mono prefixes_subset
  spelledPrivate := (spelled_prefixedHex sampleSecret.1).mono marked_subset

/-- Height five and two letters. -/
def lettersMessage : List UInt8 := [0, 0, 0, 5, 0x7a, 0x7a]

theorem voteMessage_letters :
    [literal "zz", literal "7a7a", literal "0x7A7A"].Forall fun blockHash =>
      voteMessage 5 blockHash = .ok lettersMessage := by
  decide

theorem signed_letters : ∃ signature : Bytes 64,
    libsodium.signDetached lettersMessage sampleSecret = some signature.1 ∧
      libsodium.verifyDetached signature lettersMessage sampleKey = true := by
  refine ⟨⟨Ed25519.sign lettersMessage sampleSecret.1, Ed25519.sign_length _ _⟩, rfl, ?_⟩
  decide +kernel

def sampleSigner : FinalityVoteSigner := ⟨sampleKeypair, 'e' :: (keyText.drop 2).take 40⟩

theorem new_sample : new ⟨true, true⟩ sampleKeypair = .ok sampleSigner := new_eq kept_sample rfl

/-- The vote of the sample key, with a signature. -/
def sampleVote (signature : Bytes 64) (blockHash : List UInt8) : FinalityVote :=
  ⟨5, blockHash, sampleSigner.voterAddress, prefixedHex signature.1, 0⟩

theorem verifyVote_sample {sodium : SodiumSign} {signature : Bytes 64} {blockHash : List UInt8}
    (started : sodium.initialises = true)
    (hmessage : voteMessage 5 blockHash = .ok lettersMessage)
    (accepted : sodium.verifyDetached signature lettersMessage sampleKey = true) :
    verifyVote ⟨true, true⟩ sodium sampleSigner (sampleVote signature blockHash) = .ok true := by
  have hkey : Spelled ([] :: prefixes) sampleSigner.keypair.publicKey sampleKey.1 :=
    kept_sample.spelledPublic
  have read : hexToFixedBytes (sampleVote signature blockHash).signature 64 = some signature :=
    read_prefixedHex signature
  have answer := @verifyVote_eq ⟨true, true⟩ sodium sampleSigner (sampleVote signature blockHash)
    sampleKey signature lettersMessage ⟨rfl, rfl, started⟩ hkey read hmessage
  rw [answer, accepted]

/-- A vote for the two letters is accepted for the digits that spell them as well. -/
theorem letters_confused : ∃ vote,
    new ⟨true, true⟩ sampleKeypair = .ok sampleSigner ∧
      createVote ⟨true, true⟩ libsodium sampleSigner 0 5 (literal "zz") = .ok vote ∧
      verifyVote ⟨true, true⟩ libsodium sampleSigner vote = .ok true ∧
      verifyVote ⟨true, true⟩ libsodium sampleSigner
        { vote with targetBlockHash := literal "7a7a" } = .ok true ∧
      ¬SameHash (literal "zz") (literal "7a7a") := by
  obtain ⟨signature, signed, accepted⟩ := signed_letters
  obtain ⟨letters, spelled, -⟩ := voteMessage_letters
  have hkey : Spelled ([] :: prefixes) sampleSigner.keypair.privateKey sampleSecret.1 :=
    kept_sample.spelledPrivate
  have made : createVote ⟨true, true⟩ libsodium sampleSigner 0 5 (literal "zz") =
      .ok (sampleVote signature (literal "zz")) :=
    createVote_eq ⟨rfl, rfl, rfl⟩ hkey letters signed 0
  refine ⟨_, new_sample, made, verifyVote_sample rfl letters accepted,
    verifyVote_sample rfl spelled accepted, ?_⟩
  unfold SameHash
  decide

/-- The library, accepting what the sample key signs and nothing else. -/
def exactLibrary : SodiumSign :=
  { libsodium with
    verifyDetached := fun signature message publicKey =>
      decide (publicKey = sampleKey) && signature.1 == Ed25519.sign message sampleSecret.1 }

theorem exactLibrary_correct : Correct ⟨true, true⟩ exactLibrary sampleKey sampleSecret where
  present := ⟨rfl, rfl, rfl⟩
  verify_sign message := by
    refine ⟨⟨Ed25519.sign message sampleSecret.1, Ed25519.sign_length _ _⟩, rfl, ?_⟩
    simp [exactLibrary]

theorem votes_bind_letters : ∃ signature : Bytes 64,
    exactLibrary.verifyDetached signature lettersMessage sampleKey =
        libsodium.verifyDetached signature lettersMessage sampleKey ∧
      (∃ vote, createVote ⟨true, true⟩ exactLibrary sampleSigner 0 5 (literal "zz") = .ok vote ∧
        verifyVote ⟨true, true⟩ exactLibrary sampleSigner vote = .ok true) ∧
      (SameHash (literal "7a7a") (literal "0x7A7A") ∨ Quotes (literal "7a7a") (literal "0x7A7A") ∨
        Quotes (literal "0x7A7A") (literal "7a7a")) := by
  obtain ⟨signature, signed, accepted⟩ := signed_letters
  obtain ⟨-, spelled, marked⟩ := voteMessage_letters
  have exact : exactLibrary.verifyDetached signature lettersMessage sampleKey = true := by
    have same := Option.some.inj signed
    simp [exactLibrary, ← same]
  -- both votes have one message, and there are no others
  have binding : Binding exactLibrary sampleKey (messagesOf
      {sampleVote signature (literal "7a7a"), sampleVote signature (literal "0x7A7A")}) := by
    have only {m : List UInt8} (hm : m ∈ messagesOf
        {sampleVote signature (literal "7a7a"), sampleVote signature (literal "0x7A7A")}) :
        m = lettersMessage := by
      obtain ⟨vote, rfl | rfl, made⟩ := hm
      · exact Except.ok.inj (made.symm.trans spelled)
      · exact Except.ok.inj (made.symm.trans marked)
    intro _ m hm m' hm' _ _
    rw [only hm, only hm']
  obtain ⟨signer, made, own, bound⟩ := votes_bind ⟨true, true⟩ exactLibrary sampleKeypair sampleKey
    sampleSecret kept_sample exactLibrary_correct _ binding
  cases made.symm.trans new_sample
  exact ⟨signature, exact.trans accepted.symm, own 0 5 (literal "zz"),
    (bound _ (.inl rfl) _ (.inr rfl) (verifyVote_sample rfl spelled exact)
      (verifyVote_sample rfl marked exact) rfl).2⟩

end FinalityVoteSigner

end MidnightSdk.Signing
