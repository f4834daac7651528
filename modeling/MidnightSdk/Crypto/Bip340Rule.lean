import MidnightSdk.Crypto.Bip340Signatures

/-!
# The rule of the standard

BIP-340 lets one signature text and one key text stand for one point each: numbers
are below their moduli, the key's point and the nonce's have an even y. The verifier
matches x coordinates only, under either point of the key.
-/

namespace MidnightSdk.Crypto.Bip340Signer

open BigEndian Cpp HexText Secp256k1

/-- The equation of the standard with its bounds and its parities. -/
def Standard (lib : SignerLibrary) (e s Rx Px : ℕ) : Prop :=
  Rx < fieldPrime ∧ s < order ∧ ∃ P y, lib.curve.affine P = some (Px, y) ∧ y % 2 = 0 ∧
    ∃ y', lib.curve.affine (s • lib.curve.generator + -(e • P)) = some (Rx, y') ∧ y' % 2 = 0

/-- What the standard accepts, with the challenge of this program. -/
def RuleAccepts (lib : SignerLibrary) (message : List UInt8)
    (signatureHex publicKeyHex : List Char) : Prop :=
  ∃ Rx s Px : Bytes 32, Spells (stripPrefix signatureHex) (Rx.1 ++ s.1) ∧
    Spells (stripPrefix publicKeyHex) Px.1 ∧
    Standard lib (challenge lib Rx.1 Px.1 message) (beValue s.1) (beValue Rx.1) (beValue Px.1)

/-- Both texts are digits only. -/
def BothHex (signatureHex publicKeyHex : List Char) : Prop :=
  (∀ c ∈ stripPrefix signatureHex, c ∈ digits) ∧ ∀ c ∈ stripPrefix publicKeyHex, c ∈ digits

/-- The ways to be accepted that the standard closes, for the numbers that were read. -/
inductive Loophole (lib : SignerLibrary) (e s Rx Px : ℕ) : Prop
  | key (parity : Bool) (accepts : acceptsWith lib e s Rx Px parity = true) (h : fieldPrime ≤ Px)
  | scalar (parity : Bool) (accepts : acceptsWith lib e s Rx Px parity = true) (h : order ≤ s)
  | otherPoint (accepts : acceptsWith lib e s Rx Px true = true)
      (h : acceptsWith lib e s Rx Px false = false)
  | infinity {P : lib.curve.Point} (found : lib.curve.ofCompressed Px false = some P)
      (h : s • lib.curve.generator = e • P) (zero : Rx = 0)
  | oddNonce {P : lib.curve.Point} {y : ℕ} (found : lib.curve.ofCompressed Px false = some P)
      (h : lib.curve.affine (s • lib.curve.generator + -(e • P)) = some (Rx, y)) (odd : y % 2 = 1)

variable {lib : SignerLibrary} {e s Rx Px : ℕ}

/-! ## Numbers -/

/-- The point of a key below the prime that the standard takes. -/
theorem ofCompressed_even {P : lib.curve.Point} (h : Px < fieldPrime) :
    lib.curve.ofCompressed Px false = some P ↔
      ∃ y, lib.curve.affine P = some (Px, y) ∧ y % 2 = 0 := by
  rw [lib.curve.ofCompressed_eq_some, Nat.mod_eq_of_lt h]
  simp only [decide_eq_false_iff_not, Nat.mod_two_not_eq_one]

theorem standard_iff : Standard lib e s Rx Px ↔ Px < fieldPrime ∧ s < order ∧
    ∃ P, lib.curve.ofCompressed Px false = some P ∧
      ∃ y, lib.curve.affine (s • lib.curve.generator + -(e • P)) = some (Rx, y) ∧ y % 2 = 0 := by
  constructor
  · rintro ⟨-, hs, P, y, hP, even, found⟩
    have below := (lib.curve.affine_lt hP).1
    exact ⟨below, hs, P, (ofCompressed_even below).mpr ⟨y, hP, even⟩, found⟩
  · rintro ⟨below, hs, P, lifted, y', hR, even⟩
    obtain ⟨y, hP, heven⟩ := (ofCompressed_even below).mp lifted
    exact ⟨(lib.curve.affine_lt hR).1, hs, P, y, hP, heven, y', hR, even⟩

theorem Standard.acceptsWith (h : Standard lib e s Rx Px) :
    acceptsWith lib e s Rx Px false = true := by
  obtain ⟨-, -, P, lifted, y, hR, -⟩ := standard_iff.mp h
  exact acceptsWith_iff.mpr ⟨P, lifted, Or.inl ⟨y, hR⟩⟩

/-- A loophole is accepted, though not by the standard. -/
theorem Loophole.accepted (h : Loophole lib e s Rx Px) :
    ∃ parity, Bip340Signer.acceptsWith lib e s Rx Px parity = true := by
  cases h with
  | key parity accepts => exact ⟨parity, accepts⟩
  | scalar parity accepts => exact ⟨parity, accepts⟩
  | otherPoint accepts => exact ⟨true, accepts⟩
  | infinity found same zero =>
    refine ⟨false, acceptsWith_iff.mpr ⟨_, found, Or.inr ⟨?_, zero⟩⟩⟩
    rw [same, add_neg_cancel]
  | oddNonce found hR => exact ⟨false, acceptsWith_iff.mpr ⟨_, found, Or.inl ⟨_, hR⟩⟩⟩

theorem Loophole.not_standard (h : Loophole lib e s Rx Px) : ¬Standard lib e s Rx Px := by
  intro standard
  obtain ⟨hPx, hs, P, lifted, y, hR, even⟩ := standard_iff.mp standard
  cases h with
  | key _ _ above => omega
  | scalar _ _ above => omega
  | otherPoint _ refused =>
    rw [standard.acceptsWith] at refused
    cases refused
  | infinity found same =>
    cases lifted.symm.trans found
    rw [same, add_neg_cancel] at hR
    exact CurveGroup.ne_zero_of_affine hR rfl
  | oddNonce found hR' odd =>
    cases lifted.symm.trans found
    cases hR.symm.trans hR'
    omega

/-- Whatever the verifier accepts is of the standard, or went through a loophole. -/
theorem standard_or_loophole {parity : Bool} (h : acceptsWith lib e s Rx Px parity = true) :
    Standard lib e s Rx Px ∨ Loophole lib e s Rx Px := by
  by_cases hPx : Px < fieldPrime
  · by_cases hs : s < order
    · cases even : acceptsWith lib e s Rx Px false with
      | false =>
        cases parity with
        | false => rw [even] at h; cases h
        | true => exact Or.inr (.otherPoint h even)
      | true =>
        obtain ⟨P, lifted, ⟨y, hR⟩ | ⟨infinite, zero⟩⟩ := acceptsWith_iff.mp even
        · rcases Nat.mod_two_eq_zero_or_one y with hy | hy
          · exact Or.inl (standard_iff.mpr ⟨hPx, hs, P, lifted, y, hR, hy⟩)
          · exact Or.inr (.oddNonce lifted hR hy)
        · exact Or.inr (.infinity lifted (add_neg_eq_zero.mp infinite) zero)
    · exact Or.inr (.scalar parity h (Nat.le_of_not_lt hs))
  · exact Or.inr (.key parity h (Nat.le_of_not_lt hPx))

/-! ## Texts -/

theorem digits_bytesToHex (bytes : List UInt8) :
    ∀ c ∈ stripPrefix (Util.bytesToHex bytes), c ∈ digits := by
  rw [stripPrefix_spells (Util.bytesToHex_spells bytes)]
  exact (Util.bytesToHex_spells bytes).mem_digits

variable {unwritten : Unwritten} {message : List UInt8} {signatureHex publicKeyHex : List Char}

/-- A text of digits that has been read spells what was read. -/
theorem spells_readSignature {unset : Nat → UInt32} {RxBytes sBytes : List UInt8}
    (hdigits : ∀ c ∈ stripPrefix signatureHex, c ∈ digits)
    (h : readSignature unset signatureHex = some (RxBytes, sBytes)) :
    ∃ Rx s : Bytes 32, RxBytes = Rx.1 ∧ sBytes = s.1 ∧
      Spells (stripPrefix signatureHex) (Rx.1 ++ s.1) := by
  have length : (stripPrefix signatureHex).length = 128 := by
    by_contra other
    rw [readSignature, if_pos other] at h
    cases h
  obtain ⟨bytes, spelled⟩ := exists_spells hdigits (by omega)
  have total := spelled.length
  have front : (bytes.take 32).length = 32 := by
    rw [List.length_take]
    omega
  have back : (bytes.drop 32).length = 32 := by
    rw [List.length_drop]
    omega
  rw [← List.take_append_drop 32 bytes] at spelled
  have read := readSignature_spells unset spelled front back
  rw [h, Option.some.injEq, Prod.mk.injEq] at read
  exact ⟨⟨_, front⟩, ⟨_, back⟩, read.1, read.2, spelled⟩

theorem spells_readPublicKey {unset : Nat → UInt32} {PxBytes : List UInt8}
    (hdigits : ∀ c ∈ stripPrefix publicKeyHex, c ∈ digits)
    (h : readPublicKey unset publicKeyHex = some PxBytes) :
    ∃ Px : Bytes 32, PxBytes = Px.1 ∧ Spells (stripPrefix publicKeyHex) Px.1 := by
  have length : (stripPrefix publicKeyHex).length = 64 := by
    by_contra other
    rw [readPublicKey, if_pos other] at h
    cases h
  obtain ⟨bytes, spelled⟩ := exists_spells hdigits (by omega)
  have total := spelled.length
  have size : bytes.length = 32 := by omega
  have read := readPublicKey_spells unset spelled size
  rw [h, Option.some.injEq] at read
  exact ⟨⟨bytes, size⟩, read, spelled⟩

/-- The numbers read from two texts go through a loophole, or are accepted though a text
is not all digits. -/
def Irregular (lib : SignerLibrary) (unwritten : Unwritten) (message : List UInt8)
    (signatureHex publicKeyHex : List Char) : Prop :=
  ∃ Rx s Px, readSignature unwritten.byte signatureHex = some (Rx, s) ∧
    readPublicKey unwritten.byte publicKeyHex = some Px ∧
    let e := challenge lib Rx Px message
    (Loophole lib e (beValue s) (beValue Rx) (beValue Px) ∨ ¬BothHex signatureHex publicKeyHex ∧
      ∃ parity, acceptsWith lib e (beValue s) (beValue Rx) (beValue Px) parity = true)

theorem exists_read (h : verifySignature lib unwritten message signatureHex publicKeyHex = true) :
    ∃ Rx s Px, readSignature unwritten.byte signatureHex = some (Rx, s) ∧
      readPublicKey unwritten.byte publicKeyHex = some Px := by
  rw [verifySignature] at h
  split at h
  · rename_i Rx s Px hsig hkey
    exact ⟨Rx, s, Px, hsig, hkey⟩
  · cases h

/-- The standard's texts are read as what they spell. -/
theorem RuleAccepts.read (h : RuleAccepts lib message signatureHex publicKeyHex)
    (unset : Nat → UInt32) : BothHex signatureHex publicKeyHex ∧ ∃ Rx s Px,
      readSignature unset signatureHex = some (Rx, s) ∧ readPublicKey unset publicKeyHex = some Px ∧
      Standard lib (challenge lib Rx Px message) (beValue s) (beValue Rx) (beValue Px) := by
  obtain ⟨Rx, s, Px, hsig, hkey, standard⟩ := h
  exact ⟨⟨hsig.mem_digits, hkey.mem_digits⟩, Rx.1, s.1, Px.1,
    readSignature_spells _ hsig Rx.2 s.2, readPublicKey_spells _ hkey Px.2, standard⟩

theorem ruleAccepts_iff {unset : Nat → UInt32} {Rx s Px : List UInt8}
    (hhex : BothHex signatureHex publicKeyHex)
    (hsig : readSignature unset signatureHex = some (Rx, s))
    (hkey : readPublicKey unset publicKeyHex = some Px) :
    RuleAccepts lib message signatureHex publicKeyHex ↔
      Standard lib (challenge lib Rx Px message) (beValue s) (beValue Rx) (beValue Px) := by
  constructor
  · intro accepted
    obtain ⟨-, Rx', s', Px', hsig', hkey', standard⟩ := accepted.read unset
    cases hsig.symm.trans hsig'
    cases hkey.symm.trans hkey'
    exact standard
  · intro standard
    obtain ⟨Rx, s, rfl, rfl, spelled⟩ := spells_readSignature hhex.1 hsig
    obtain ⟨Px, rfl, spelled'⟩ := spells_readPublicKey hhex.2 hkey
    exact ⟨Rx, s, Px, spelled, spelled', standard⟩

/-- The verifier and the standard agree exactly on the texts that are not irregular. -/
theorem verifySignature_iff_rule :
    (verifySignature lib unwritten message signatureHex publicKeyHex = true ↔
      RuleAccepts lib message signatureHex publicKeyHex) ↔
      ¬Irregular lib unwritten message signatureHex publicKeyHex := by
  constructor
  · rintro agree ⟨Rx, s, Px, hsig, hkey, irregular⟩
    have accepted : verifySignature lib unwritten message signatureHex publicKeyHex = true := by
      rw [verifySignature_eq hsig hkey]
      rcases irregular with loophole | ⟨-, accepts⟩
      · exact loophole.accepted
      · exact accepts
    have hhex := ((agree.mp accepted).read unwritten.byte).1
    rcases irregular with loophole | ⟨nothex, -⟩
    · exact loophole.not_standard ((ruleAccepts_iff hhex hsig hkey).mp (agree.mp accepted))
    · exact nothex hhex
  · intro regular
    constructor
    · intro accepted
      obtain ⟨Rx, s, Px, hsig, hkey⟩ := exists_read accepted
      obtain ⟨parity, accepts⟩ := (verifySignature_eq hsig hkey).mp accepted
      by_cases hhex : BothHex signatureHex publicKeyHex
      · rcases standard_or_loophole accepts with standard | loophole
        · exact (ruleAccepts_iff hhex hsig hkey).mpr standard
        · exact absurd ⟨Rx, s, Px, hsig, hkey, Or.inl loophole⟩ regular
      · exact absurd ⟨Rx, s, Px, hsig, hkey, Or.inr ⟨hhex, parity, accepts⟩⟩ regular
    · intro accepted
      obtain ⟨-, Rx, s, Px, hsig, hkey, standard⟩ := accepted.read unwritten.byte
      exact (verifySignature_eq hsig hkey).mpr ⟨false, standard.acceptsWith⟩

/-! ## What is signed -/

/-- An answer made with the other point of the key hits the nonce's point only when the
challenge is a multiple of the order. -/
theorem twice_share_eq_zero {d : ℕ} (hd : d • lib.curve.generator ≠ 0) :
    e • d • lib.curve.generator + e • d • lib.curve.generator = 0 ↔ order ∣ e := by
  have odd : ¬order ∣ 2 := by decide
  have key : ¬order ∣ d := mt (lib.curve.smul_generator_eq_zero d).mpr hd
  rw [← two_nsmul, smul_smul, smul_smul, lib.curve.smul_generator_eq_zero,
    lib.curve.prime.dvd_mul, lib.curve.prime.dvd_mul]
  simp only [odd, key, false_or, or_false]

theorem standard_answer_iff {d k x yR xP yP : ℕ}
    (hR : lib.curve.affine (k • lib.curve.generator) = some (x, yR)) (heven : yR % 2 = 0)
    (hP : lib.curve.affine (d • lib.curve.generator) = some (xP, yP)) :
    Standard lib e (answer k e d) x xP ↔ yP % 2 = 0 ∨ order ∣ e := by
  have below := (lib.curve.affine_lt hP).1
  have lifted := CurveGroup.ofCompressed_affine hP
  rw [standard_iff]
  simp only [below, answer_lt, true_and, answer_smul]
  rcases Nat.mod_two_eq_zero_or_one yP with hy | hy
  · rw [hy] at lifted
    simp only [hy, true_or, iff_true]
    refine ⟨_, lifted, yR, ?_, heven⟩
    rw [add_neg_cancel_right, hR]
  · rw [hy] at lifted
    have other := CurveGroup.ofCompressed_neg lifted
    rw [← twice_share_eq_zero (CurveGroup.ne_zero_of_affine hP)]
    simp only [hy, Nat.one_ne_zero, false_or]
    constructor
    · rintro ⟨P, found, y, hsum, hsumeven⟩
      cases other.symm.trans found
      rw [smul_neg, neg_neg, add_assoc] at hsum
      rcases lib.curve.eq_or_eq_neg hR hsum with same | opposite
      · exact left_eq_add.mp same.symm
      · rw [opposite, lib.curve.affine_neg hR, Option.some.injEq, Prod.mk.injEq] at hsum
        have := lib.curve.odd
        have := (lib.curve.affine_lt hR).2
        omega
    · intro zero
      refine ⟨_, other, yR, ?_, heven⟩
      rw [smul_neg, neg_neg, add_assoc, zero, add_zero, hR]

/-- A signature is of the standard exactly when the key's point has an even y, or the
challenge is zero and the key does not matter. -/
theorem ruleAccepts_signatureText {signer : Bip340Signer} {k x yR xP yP : ℕ}
    (hR : lib.curve.affine (k • lib.curve.generator) = some (x, yR)) (heven : yR % 2 = 0)
    (hP : lib.curve.affine (beValue signer.secretKey.1 • lib.curve.generator) = some (xP, yP))
    (hkey : signer.publicKey = bnToBytes xP 32) :
    RuleAccepts lib message (signatureText lib signer message k x)
        (publicKeyToHex signer.publicKey) ↔
      yP % 2 = 0 ∨ challenge lib (bnToBytes x 32).1 signer.publicKey.1 message = 0 := by
  have hhex : BothHex (signatureText lib signer message k x)
      (publicKeyToHex signer.publicKey) :=
    ⟨digits_bytesToHex _, digits_bytesToHex _⟩
  have reduced (e : ℕ) : order ∣ e % order ↔ e % order = 0 := by
    rw [Nat.dvd_iff_mod_eq_zero, Nat.mod_mod]
  rw [ruleAccepts_iff hhex (readSignature_signatureText (fun _ => 0) k x)
      (readPublicKey_publicKeyToHex _ signer.publicKey), hkey,
    value_bnToBytes (affine_fits hR).1, value_bnToBytes (affine_fits hP).1,
    value_bnToBytes (Nat.lt_trans (answer_lt _ _ _) order_lt), standard_answer_iff hR heven hP,
    challenge, value_secp256k1N, reduced]

/-- The point of the stored key has an even y. -/
def EvenKey (lib : SignerLibrary) (signer : Bip340Signer) : Prop :=
  ∃ x y, lib.curve.affine (beValue signer.secretKey.1 • lib.curve.generator) = some (x, y) ∧
    y % 2 = 0

/-- The challenge of the message under its nonce is zero. -/
def ZeroChallenge (lib : SignerLibrary) (unwritten : Unwritten) (signer : Bip340Signer)
    (message : List UInt8) : Prop :=
  ∃ x y, lib.curve.affine (messageNonce lib unwritten signer message • lib.curve.generator) =
      some (x, y) ∧
    challenge lib (bnToBytes x 32).1 signer.publicKey.1 message = 0

/-- **Where the program keeps to the standard**: on the texts that are not irregular,
and with the keys of even y. -/
theorem keeps_to_standard (lib : SignerLibrary) (unwritten : Unwritten) :
    (∀ message signatureHex publicKeyHex,
      (verifySignature lib unwritten message signatureHex publicKeyHex = true ↔
        RuleAccepts lib message signatureHex publicKeyHex) ↔
      ¬Irregular lib unwritten message signatureHex publicKeyHex) ∧
    ∀ secretKey signer message sig, setKey lib secretKey = .ok signer →
      signMessage lib unwritten signer message = .ok sig →
      (RuleAccepts lib message sig (publicKeyToHex signer.publicKey) ↔
        EvenKey lib signer ∨ ZeroChallenge lib unwritten signer message) := by
  refine ⟨fun _ _ _ => verifySignature_iff_rule, ?_⟩
  intro secretKey signer message sig hset hsign
  obtain ⟨xP, yP, hP, hkey⟩ := exists_affine_setKey hset
  obtain ⟨x, y, found, rfl⟩ := signMessage_eq_ok hsign
  obtain ⟨y', hR, heven⟩ := affine_evenNonce (messageNonce_lt unwritten signer message) found
  rw [ruleAccepts_signatureText hR heven hP hkey]
  simp only [EvenKey, ZeroChallenge, hP, found, Option.some.injEq, Prod.mk.injEq, and_assoc,
    exists_and_left, exists_eq_left']

/-- The key 12 has an odd y, so its signature is not of the standard. -/
theorem not_ruleAccepts_sample :
    signMessage openSsl sampleUnwritten twelve (literal "pay 1") =
        .ok (signatureText openSsl twelve (literal "pay 1") sampleNonce sampleX) ∧
      ¬RuleAccepts openSsl (literal "pay 1")
        (signatureText openSsl twelve (literal "pay 1") sampleNonce sampleX)
        (publicKeyToHex twelve.publicKey) := by
  refine ⟨signMessage_sample, ?_⟩
  rw [ruleAccepts_signatureText affine_sample (by decide) affine_twelve rfl]
  decide +kernel

theorem keeps_to_standard_sample :
    RuleAccepts openSsl (literal "pay 1")
        (signatureText openSsl twelve (literal "pay 1") sampleNonce sampleX)
        (publicKeyToHex twelve.publicKey) ↔
      EvenKey openSsl twelve ∨ ZeroChallenge openSsl sampleUnwritten twelve (literal "pay 1") :=
  (keeps_to_standard openSsl sampleUnwritten).2 twelve.secretKey twelve _ _ setKey_twelve
    signMessage_sample

end MidnightSdk.Crypto.Bip340Signer
