import MidnightSdk.Crypto.Sr25519Signer
import MidnightSdk.Signing.KeyManager

/-!
# The signature verifier

Signatures and keys are handed over as hex text. For SR25519 the answer of the point
check is read the wrong way round; for Ed25519 a library that is missing, or does not
start, leaves only a check of the format.
-/

namespace MidnightSdk.Crypto.Ed25519Signer

open Cpp

/-- `Ed25519Signer::verify_signature`; `hasSodium` is whether this file was built with the
library. -/
def verifySignature (hasSodium : Bool) (sodium : SodiumSign) (message : List UInt8)
    (signature : Bytes 64) (publicKey : Bytes 32) : Throws Bool :=
  if hasSodium then
    if sodium.initialises then .ok (sodium.verifyDetached signature message publicKey)
    else .error (.runtimeError "libsodium initialization failed")
  else .error (.runtimeError "libsodium is required for Ed25519 verification")

end MidnightSdk.Crypto.Ed25519Signer

namespace MidnightSdk.Signing

open Cpp Crypto HexText

/-- How the program was built: the macro that stands for the library, and whether its header
was found. -/
structure Build where
  enabled : Bool
  header : Bool

namespace SignatureVerifier

def isPrefixedHexSignature (signature : List Char) : Bool :=
  if signature.length ≠ 130 || !(['0', 'x'].isPrefixOf signature) then false
  else Util.isHexString (signature.drop 2)

/-- The loop is that of the shared reader, and a bad digit ends it with `false`. -/
def hexToFixedBytes (hexInput : List Char) (outSize : Nat) : Option (Bytes outSize) :=
  let normalized := Util.stripHexPrefix hexInput
  if normalized.length ≠ outSize * 2 then none
  else
    match Util.hexPairs normalized with
    | .ok out => if h : out.length = outSize then some ⟨out, h⟩ else none
    | .error _ => none

/-- `crypto_core_ristretto255_is_valid_point` -/
def isValidPoint (sodium : SodiumSign) (point : Bytes 32) : Int :=
  if sodium.validRistretto point then 1 else 0

variable (build : Build) (sodium : SodiumSign)

def verifySr25519 (message : List UInt8) (signature publicKey : List Char) : Bool :=
  if !isPrefixedHexSignature signature then false
  else if publicKey.length ≠ 66 then false
  else if build.enabled then
    match Sr25519Signer.initializeSodium sodium with
    | .error _ => false
    | .ok () =>
      match hexToFixedBytes publicKey 32, hexToFixedBytes signature 64 with
      | some parsedPublicKey, some parsedSignature =>
        if isValidPoint sodium parsedPublicKey == 0 then
          match Sr25519Signer.verify sodium message parsedSignature parsedPublicKey with
          | .ok result => result
          | .error _ => false
        else false
      | _, _ => false
  else false

def verifyEd25519 (message : List UInt8) (signature publicKey : List Char) : Bool :=
  if !build.enabled then isPrefixedHexSignature signature && !publicKey.isEmpty
  else
    match hexToFixedBytes publicKey 32, hexToFixedBytes signature 64 with
    | some parsedPublicKey, some parsedSignature =>
      match Ed25519Signer.verifySignature (build.enabled && build.header) sodium message
          parsedSignature parsedPublicKey with
      | .ok valid => valid
      | .error _ => isPrefixedHexSignature signature
    | _, _ => false

/-! ## Texts -/

/-- The text is one of the leads and the digits of the bytes. -/
def Spelled (leads : List (List Char)) (text : List Char) (bytes : List UInt8) : Prop :=
  ∃ lead ∈ leads, ∃ behind, text = lead ++ behind ∧ Spells behind bytes

/-- The leads that are taken off. -/
def prefixes : List (List Char) := [['0', 'x'], ['0', 'X']]

theorem spelled_strip {text : List Char} {bytes : List UInt8} :
    Spells (Util.stripHexPrefix text) bytes ↔ Spelled ([] :: prefixes) text bytes := by
  constructor
  · intro h
    rw [Util.stripHexPrefix] at h
    split at h
    · rename_i marked
      rw [Util.hasHexPrefix, Bool.or_eq_true, List.isPrefixOf_iff_prefix,
        List.isPrefixOf_iff_prefix] at marked
      rcases marked with ⟨behind, rfl⟩ | ⟨behind, rfl⟩
      · exact ⟨['0', 'x'], by simp [prefixes], behind, rfl, h⟩
      · exact ⟨['0', 'X'], by simp [prefixes], behind, rfl, h⟩
    · exact ⟨[], by simp, text, rfl, h⟩
  · rintro ⟨lead, hlead, behind, rfl, h⟩
    rw [Util.stripHexPrefix_digits hlead h.mem_digits]
    exact h

theorem hexToFixedBytes_eq_some {text : List Char} {n : Nat} {bytes : Bytes n} :
    hexToFixedBytes text n = some bytes ↔ Spelled ([] :: prefixes) text bytes.1 := by
  rw [← spelled_strip, hexToFixedBytes]
  by_cases size : (Util.stripHexPrefix text).length = n * 2
  · rw [if_neg (not_not.mpr size)]
    constructor
    · intro h
      split at h
      · rename_i out read
        obtain ⟨out', spelled⟩ := exists_spells (hexPairs_isOk (by omega) read) (by omega)
        cases read.symm.trans (Util.hexPairs_spells spelled)
        split at h
        · cases h
          exact spelled
        · cases h
      · cases h
    · intro spelled
      rw [Util.hexPairs_spells spelled]
      exact dif_pos bytes.2
  · rw [if_pos size]
    constructor
    · intro h
      cases h
    · intro spelled
      have length := spelled.length
      rw [bytes.2] at length
      omega

/-- The format check accepts what spells a signature behind a small `0x`. -/
theorem isPrefixedHexSignature_iff {signature : List Char} :
    isPrefixedHexSignature signature = true ↔
      ∃ bytes : Bytes 64, Spelled [['0', 'x']] signature bytes.1 := by
  rw [isPrefixedHexSignature]
  constructor
  · intro h
    split at h
    · cases h
    · rename_i shape
      simp only [Bool.or_eq_true, decide_eq_true_eq, Bool.not_eq_true', not_or, not_not,
        Bool.not_eq_false, List.isPrefixOf_iff_prefix] at shape
      obtain ⟨size, behind, rfl⟩ := shape
      rw [List.length_append, List.length_cons, List.length_singleton] at size
      have all : ∀ c ∈ behind, c ∈ digits := by
        rw [Util.isHexString] at h
        split at h
        · cases h
        · simpa [Util.isXDigit] using h
      obtain ⟨bytes, spelled⟩ := exists_spells all (by omega)
      have length := spelled.length
      exact ⟨⟨bytes, by omega⟩, ['0', 'x'], by simp, behind, rfl, spelled⟩
  · rintro ⟨bytes, lead, hlead, behind, rfl, spelled⟩
    rw [List.mem_singleton.mp hlead]
    have length := spelled.length
    rw [bytes.2] at length
    have filled : behind ≠ [] := by
      rintro rfl
      cases length
    have all := spelled.mem_digits
    rw [if_neg (by simp [length]), Util.isHexString, if_neg (by simp [filled, length])]
    simpa [Util.isXDigit] using all

/-- A key of 66 characters has one of the two prefixes. -/
theorem spelled_prefixes {text : List Char} {bytes : Bytes 32} :
    text.length = 66 ∧ Spelled ([] :: prefixes) text bytes.1 ↔ Spelled prefixes text bytes.1 := by
  constructor
  · rintro ⟨size, lead, hlead, behind, rfl, spelled⟩
    refine ⟨lead, ?_, behind, rfl, spelled⟩
    rcases List.mem_cons.mp hlead with rfl | found
    · have length := spelled.length
      rw [bytes.2] at length
      rw [List.nil_append] at size
      omega
    · exact found
  · rintro ⟨lead, hlead, behind, rfl, spelled⟩
    refine ⟨?_, lead, List.mem_cons_of_mem _ hlead, behind, rfl, spelled⟩
    have length := spelled.length
    rw [bytes.2] at length
    have two : lead.length = 2 := by
      revert hlead
      simp [prefixes]
      rintro (rfl | rfl) <;> rfl
    rw [List.length_append]
    omega

/-! ## What the checks come to -/

variable {build : Build} {sodium : SodiumSign} {message : List UInt8}
  {signature publicKey : List Char}

/-- The texts are a signature and a key of the form that is asked for, and the library accepts
the one under the other. -/
def SpelledAndVerified (sodium : SodiumSign) (message : List UInt8)
    (leads keyLeads : List (List Char)) (signature publicKey : List Char)
    (allowed : Bytes 32 → Prop) : Prop :=
  ∃ (sig : Bytes 64) (key : Bytes 32), Spelled leads signature sig.1 ∧
    Spelled keyLeads publicKey key.1 ∧ allowed key ∧
      sodium.verifyDetached sig message key = true

/-- What is promised of an SR25519 signature: the library is there and has started, both texts
are marked as hex, and the key is a point. -/
def Sr25519Valid (build : Build) (sodium : SodiumSign) (message : List UInt8)
    (signature publicKey : List Char) : Prop :=
  (build.enabled = true ∧ sodium.initialises = true) ∧
    SpelledAndVerified sodium message [['0', 'x']] prefixes signature publicKey
      fun key => sodium.validRistretto key = true

/-- What is promised of an Ed25519 signature; a mark may be missing. -/
def Ed25519Valid (build : Build) (sodium : SodiumSign) (message : List UInt8)
    (signature publicKey : List Char) : Prop :=
  (build.enabled = true ∧ build.header = true ∧ sodium.initialises = true) ∧
    SpelledAndVerified sodium message ([] :: prefixes) ([] :: prefixes) signature publicKey
      fun _ => True

theorem Spelled.mono {leads leads' : List (List Char)} {text : List Char} {bytes : List UInt8}
    (h : Spelled leads text bytes) (hsub : leads ⊆ leads') : Spelled leads' text bytes := by
  obtain ⟨lead, hlead, behind, rfl, spelled⟩ := h
  exact ⟨lead, hsub hlead, behind, rfl, spelled⟩

/-- Texts that are of the form are of it for one signature and one key only. -/
theorem spelledAndVerified_iff {leads keyLeads : List (List Char)} {allowed : Bytes 32 → Prop}
    {sig : Bytes 64} {key : Bytes 32} (hleads : leads ⊆ [] :: prefixes)
    (hkeyLeads : keyLeads ⊆ [] :: prefixes) (hsig : Spelled leads signature sig.1)
    (hkey : Spelled keyLeads publicKey key.1) :
    SpelledAndVerified sodium message leads keyLeads signature publicKey allowed ↔
      allowed key ∧ sodium.verifyDetached sig message key = true := by
  constructor
  · rintro ⟨sig', key', hsig', hkey', accepted⟩
    have same_sig := (hexToFixedBytes_eq_some.mpr (hsig.mono hleads)).symm.trans
      (hexToFixedBytes_eq_some.mpr (hsig'.mono hleads))
    have same_key := (hexToFixedBytes_eq_some.mpr (hkey.mono hkeyLeads)).symm.trans
      (hexToFixedBytes_eq_some.mpr (hkey'.mono hkeyLeads))
    cases same_sig
    cases same_key
    exact accepted
  · intro accepted
    exact ⟨sig, key, hsig, hkey, accepted⟩

theorem SpelledAndVerified.mono {leads keyLeads : List (List Char)} {allowed : Bytes 32 → Prop}
    (h : SpelledAndVerified sodium message leads keyLeads signature publicKey allowed) :
    SpelledAndVerified sodium message leads keyLeads signature publicKey fun _ => True := by
  obtain ⟨sig, key, hsig, hkey, -, accepted⟩ := h
  exact ⟨sig, key, hsig, hkey, trivial, accepted⟩

theorem marked_subset : [['0', 'x']] ⊆ [] :: prefixes := by simp [prefixes]

theorem prefixes_subset : prefixes ⊆ [] :: prefixes := List.subset_cons_self _ _

/-- The point check is read the wrong way round. -/
theorem verifySr25519_eq_true : verifySr25519 build sodium message signature publicKey = true ↔
    (build.enabled = true ∧ sodium.initialises = true) ∧
      SpelledAndVerified sodium message [['0', 'x']] prefixes signature publicKey
        fun key => sodium.validRistretto key = false := by
  constructor
  · intro h
    rw [verifySr25519] at h
    split at h
    · cases h
    · rename_i marked
      split at h
      · cases h
      · rename_i size
        split at h
        · rename_i enabled
          split at h
          · cases h
          · rename_i started
            split at h
            · rename_i key sig readKey read
              have ready := Sr25519Signer.initializeSodium_eq_ok.mp started
              obtain ⟨sig', hsig⟩ := isPrefixedHexSignature_iff.mp (by simpa using marked)
              have hkey := spelled_prefixes.mp
                ⟨not_not.mp size, hexToFixedBytes_eq_some.mp readKey⟩
              cases read.symm.trans (hexToFixedBytes_eq_some.mpr (hsig.mono marked_subset))
              rw [isValidPoint, Sr25519Signer.verify, started, ok_bind] at h
              cases valid : sodium.validRistretto key with
              | true => simp [valid] at h
              | false =>
                simp only [valid, Bool.false_eq_true, if_false, BEq.rfl, if_true] at h
                exact ⟨⟨enabled, ready⟩, sig, key, hsig, hkey, valid, h⟩
            · cases h
        · cases h
  · rintro ⟨⟨enabled, ready⟩, sig, key, hsig, hkey, valid, accepted⟩
    have started := Sr25519Signer.initializeSodium_eq_ok.mpr ready
    have marked := isPrefixedHexSignature_iff.mpr ⟨sig, hsig⟩
    have size := (spelled_prefixes.mpr hkey).1
    have read := hexToFixedBytes_eq_some.mpr (hsig.mono marked_subset)
    have readKey := hexToFixedBytes_eq_some.mpr (hkey.mono prefixes_subset)
    simp only [verifySr25519, marked, size, enabled, started, read, readKey, isValidPoint, valid,
      Sr25519Signer.verify, ok_bind]
    exact accepted

/-- The format check of a build, which decides once there is no library to ask. -/
def FormatAccepted (build : Build) (signature publicKey : List Char) : Prop :=
  (∃ sig : Bytes 64, Spelled [['0', 'x']] signature sig.1) ∧
    if build.enabled then ∃ key : Bytes 32, Spelled ([] :: prefixes) publicKey key.1
    else publicKey ≠ []

/-- Without a library that has started, the format is enough. -/
theorem verifyEd25519_eq_true : verifyEd25519 build sodium message signature publicKey = true ↔
    Ed25519Valid build sodium message signature publicKey ∨
      ¬(build.enabled = true ∧ build.header = true ∧ sodium.initialises = true) ∧
        FormatAccepted build signature publicKey := by
  cases enabled : build.enabled with
  | false =>
    simp [verifyEd25519, Ed25519Valid, FormatAccepted, enabled, isPrefixedHexSignature_iff]
  | true =>
    cases readKey : hexToFixedBytes publicKey 32 with
    | none =>
      have unread (key : Bytes 32) : ¬Spelled ([] :: prefixes) publicKey key.1 := by
        rw [← hexToFixedBytes_eq_some, readKey]
        simp
      simp [verifyEd25519, Ed25519Valid, SpelledAndVerified, FormatAccepted, enabled, readKey,
        unread]
    | some key =>
      have hkey := hexToFixedBytes_eq_some.mp readKey
      cases read : hexToFixedBytes signature 64 with
      | none =>
        have unread (sig : Bytes 64) : ¬Spelled ([] :: prefixes) signature sig.1 := by
          rw [← hexToFixedBytes_eq_some, read]
          simp
        have unmarked (sig : Bytes 64) : ¬Spelled [['0', 'x']] signature sig.1 :=
          fun hsig => unread sig (hsig.mono marked_subset)
        simp [verifyEd25519, Ed25519Valid, SpelledAndVerified, FormatAccepted, enabled, readKey,
          read, unread, unmarked]
      | some sig =>
        have hsig := hexToFixedBytes_eq_some.mp read
        have parsed := @spelledAndVerified_iff sodium message signature publicKey _ _
          (fun _ => True) sig key (List.Subset.refl _) (List.Subset.refl _) hsig hkey
        have some_key : ∃ key : Bytes 32, Spelled ([] :: prefixes) publicKey key.1 := ⟨key, hkey⟩
        simp only [verifyEd25519, Ed25519Valid, FormatAccepted, Ed25519Signer.verifySignature,
          enabled, readKey, read, parsed, some_key, ← isPrefixedHexSignature_iff]
        cases build.header <;> cases sodium.initialises <;> simp

/-- **When the verifiers keep what is promised.** An SR25519 answer is right only where it is a
refusal anyway, the point check having its answers exchanged; an Ed25519 answer wherever the
library has been asked, or the format was refused. -/
theorem verifiers_iff (build : Build) (sodium : SodiumSign) (message : List UInt8)
    (signature publicKey : List Char) :
    ((verifySr25519 build sodium message signature publicKey = true ↔
        Sr25519Valid build sodium message signature publicKey) ↔
      ¬((build.enabled = true ∧ sodium.initialises = true) ∧
        SpelledAndVerified sodium message [['0', 'x']] prefixes signature publicKey
          fun _ => True)) ∧
    ((verifyEd25519 build sodium message signature publicKey = true ↔
        Ed25519Valid build sodium message signature publicKey) ↔
      (build.enabled = true ∧ build.header = true ∧ sodium.initialises = true) ∨
        ¬FormatAccepted build signature publicKey) := by
  constructor
  · rw [verifySr25519_eq_true, Sr25519Valid]
    constructor
    · rintro agree ⟨ready, sig, key, hsig, hkey, -, accepted⟩
      rw [spelledAndVerified_iff marked_subset prefixes_subset hsig hkey,
        spelledAndVerified_iff marked_subset prefixes_subset hsig hkey] at agree
      cases valid : sodium.validRistretto key <;> simp [valid, ready, accepted] at agree
    · intro refused
      constructor
      · rintro ⟨ready, accepted⟩
        exact absurd ⟨ready, accepted.mono⟩ refused
      · rintro ⟨ready, accepted⟩
        exact absurd ⟨ready, accepted.mono⟩ refused
  · rw [verifyEd25519_eq_true]
    by_cases ready : build.enabled = true ∧ build.header = true ∧ sodium.initialises = true
    · simp [ready]
    · simp [Ed25519Valid, ready]

/-! ## A good signature and a forged one -/

/-- A seed whose public key is a point of the Ristretto group as well. -/
def sampleSeed : Bytes 32 := ⟨18 :: List.replicate 31 0, rfl⟩

def sampleKey : Bytes 32 := libsodium.ed25519Public sampleSeed

/-- The signature of the empty message under that seed. -/
def sampleSignature : Bytes 64 :=
  ⟨Ed25519.sign [] (sampleSeed.1 ++ sampleKey.1), Ed25519.sign_length _ _⟩

def zeroSignature : Bytes 64 := ⟨List.replicate 64 0, List.length_replicate⟩

def keyText : List Char := prefixedHex sampleKey.1

/-- The library when `sodium_init` fails. -/
def notStarted : SodiumSign := { libsodium with initialises := false }

theorem spelled_prefixedHex (bytes : List UInt8) :
    Spelled [['0', 'x']] (prefixedHex bytes) bytes :=
  ⟨['0', 'x'], by simp, _, rfl, Util.bytesToHex_spells bytes⟩

theorem spelled_keyText : Spelled prefixes keyText sampleKey.1 :=
  (spelled_prefixedHex sampleKey.1).mono (by simp [prefixes])

/-- A good signature under a key that is a point is refused as SR25519, and zeros are taken for
an Ed25519 signature when the library does not start. -/
theorem not_valid_sample :
    (verifySr25519 ⟨true, true⟩ libsodium [] (prefixedHex sampleSignature.1) keyText = false ∧
      Sr25519Valid ⟨true, true⟩ libsodium [] (prefixedHex sampleSignature.1) keyText) ∧
    verifyEd25519 ⟨true, true⟩ notStarted [] (prefixedHex zeroSignature.1) keyText = true ∧
      ¬Ed25519Valid ⟨true, true⟩ notStarted [] (prefixedHex zeroSignature.1) keyText := by
  have point : libsodium.validRistretto sampleKey = true := by decide +kernel
  have accepted : libsodium.verifyDetached sampleSignature [] sampleKey = true := by
    decide +kernel
  have hsig := spelled_prefixedHex sampleSignature.1
  refine ⟨⟨?_, ⟨rfl, rfl⟩, sampleSignature, sampleKey, hsig, spelled_keyText, point, accepted⟩,
    ?_, ?_⟩
  · rw [← Bool.not_eq_true, verifySr25519_eq_true,
      spelledAndVerified_iff marked_subset prefixes_subset hsig spelled_keyText, point]
    simp
  · rw [verifyEd25519_eq_true]
    exact Or.inr ⟨by simp [notStarted], ⟨zeroSignature, spelled_prefixedHex _⟩,
      sampleKey, spelled_keyText.mono prefixes_subset⟩
  · rintro ⟨⟨-, -, started⟩, -⟩
    cases started

end SignatureVerifier

end MidnightSdk.Signing
