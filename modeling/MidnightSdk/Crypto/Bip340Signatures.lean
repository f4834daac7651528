import MidnightSdk.Crypto.Bip340Keys

/-!
# What is signed is accepted

The signer turns its nonce round so that its point has an even y, but takes its key
as it is; the verifier tries both points that have the x coordinate of the key, and
one of them is the signer's.
-/

namespace MidnightSdk.Crypto.Bip340Signer

open BigEndian Cpp HexText Secp256k1

/-! ## Reading what was written -/

theorem stripPrefix_spells {text : List Char} {bytes : List UInt8} (h : Spells text bytes) :
    stripPrefix text = text := by
  have unmarked : ¬['0', 'x'].isPrefixOf text = true := by
    intro hpre
    obtain ⟨rest, rfl⟩ := List.isPrefixOf_iff_prefix.mp hpre
    exact absurd (h.mem_digits 'x' (by simp)) (by decide)
  rw [stripPrefix, if_neg unmarked]

theorem hexToBytes_spells (unset : Nat → UInt32) {text : List Char} {bytes : List UInt8}
    (h : Spells text bytes) : hexToBytes unset text bytes.length = some bytes := by
  have length := h.length
  rw [hexToBytes, stripPrefix_spells h, if_neg (by omega), StreamHex.readPairs_spells unset h]

theorem readPublicKey_spells (unset : Nat → UInt32) {text : List Char} {bytes : List UInt8}
    (h : Spells (stripPrefix text) bytes) (hbytes : bytes.length = 32) :
    readPublicKey unset text = some bytes := by
  have length := h.length
  rw [readPublicKey, if_neg (by omega), ← hbytes, hexToBytes_spells _ h]

/-- A text of digits that spells two parts is the texts of the two. -/
theorem spells_append {text : List Char} {as bs : List UInt8} (h : Spells text (as ++ bs)) :
    Spells (text.take (2 * as.length)) as ∧ Spells (text.drop (2 * as.length)) bs := by
  induction as generalizing text with
  | nil => exact ⟨.nil, h⟩
  | cons a as ih =>
    cases h with
    | byte high low rest =>
      obtain ⟨front, back⟩ := ih rest
      exact ⟨.byte high low front, back⟩

theorem readSignature_spells (unset : Nat → UInt32) {text : List Char} {Rx s : List UInt8}
    (h : Spells (stripPrefix text) (Rx ++ s)) (hRx : Rx.length = 32) (hs : s.length = 32) :
    readSignature unset text = some (Rx, s) := by
  obtain ⟨front, back⟩ := spells_append h
  have length := h.length
  rw [List.length_append, hRx, hs] at length
  rw [hRx] at front back
  have first := hexToBytes_spells unset front
  have second := hexToBytes_spells (fun i => unset (64 + i)) back
  rw [hRx] at first
  rw [hs] at second
  rw [readSignature, if_neg (by omega)]
  simp only [Nat.reduceMul] at first second
  simp only [first, second]
  rfl

/-- A text of the key makes the signer that the key makes. -/
theorem ofHex_spells {lib : SignerLibrary} {secretKey : Bytes 32} {unwritten : Unwritten}
    {text : List Char} (h : Spells (stripPrefix text) secretKey.1) :
    ofHex lib unwritten text = setKey lib secretKey := by
  have length := h.length
  rw [secretKey.2] at length
  rw [ofHex, dif_neg (by omega)]
  congr 1
  exact Subtype.ext (StreamHex.readPairs_spells _ h 0)

/-! ## The verifier's rounds -/

variable {lib : SignerLibrary}

/-- The x coordinate of a point, zero standing for that of the point at infinity. -/
def ComparedAs (lib : SignerLibrary) (R : lib.curve.Point) (x : ℕ) : Prop :=
  (∃ y, lib.curve.affine R = some (x, y)) ∨ R = 0 ∧ x = 0

theorem acceptsWith_iff {e s Rx Px : ℕ} {parity : Bool} :
    acceptsWith lib e s Rx Px parity = true ↔ ∃ P, lib.curve.ofCompressed Px parity = some P ∧
      ComparedAs lib (s • lib.curve.generator + -(e • P)) Rx := by
  rw [acceptsWith]
  cases lib.curve.ofCompressed Px parity with
  | none => simp
  | some P =>
    simp only [Option.some.injEq, exists_eq_left', beq_iff_eq, ComparedAs]
    cases found : lib.curve.affine (s • lib.curve.generator + -(e • P)) with
    | none => simp [lib.curve.affine_eq_none.mp found, eq_comm]
    | some xy =>
      have nonzero := CurveGroup.ne_zero_of_affine (x := xy.1) (y := xy.2) found
      simp [nonzero, Prod.ext_iff]

/-- A round that compares another x coordinate, all points being multiples of the generator. -/
theorem acceptsWith_eq_false {e s Rx Px d m x y : ℕ} {parity : Bool}
    (lifted : lib.curve.ofCompressed Px parity = some (d • lib.curve.generator))
    (hm : s % order = (m + e * d) % order)
    (hR : lib.curve.affine (m • lib.curve.generator) = some (x, y)) (hx : x ≠ Rx) :
    acceptsWith lib e s Rx Px parity = false := by
  rw [← Bool.not_eq_true, acceptsWith_iff]
  rintro ⟨P, found, compared⟩
  cases lifted.symm.trans found
  have multiple : s • lib.curve.generator + -(e • d • lib.curve.generator) =
      m • lib.curve.generator := by
    rw [← lib.curve.smul_mod s, hm, lib.curve.smul_mod, add_smul, mul_smul, add_neg_cancel_right]
  rw [multiple] at compared
  rcases compared with ⟨y', hR'⟩ | ⟨zero, -⟩
  · cases hR.symm.trans hR'
    exact hx rfl
  · exact CurveGroup.ne_zero_of_affine hR zero

/-- A verification is a round for either parity. -/
theorem verifySignature_eq {unwritten : Unwritten} {message Rx s Px : List UInt8}
    {signatureHex publicKeyHex : List Char}
    (hsig : readSignature unwritten.byte signatureHex = some (Rx, s))
    (hkey : readPublicKey unwritten.byte publicKeyHex = some Px) :
    verifySignature lib unwritten message signatureHex publicKeyHex = true ↔ ∃ parity,
      acceptsWith lib (challenge lib Rx Px message) (beValue s) (beValue Rx) (beValue Px) parity =
        true := by
  rw [verifySignature, hsig, hkey]
  simp only [Bool.or_eq_true, Bool.exists_bool]

/-! ## Signatures -/

theorem nonceLoop_lt (behindV : UInt8) (attempts : Nat) (K V : Bytes 32) :
    beValue (nonceLoop lib behindV attempts K V).1 < order := by
  induction attempts generalizing K V with
  | zero =>
    rw [nonceLoop]
    decide
  | succ attempts ih =>
    rw [nonceLoop]
    split
    · exact value_clampBytes_lt _
    · exact ih _ _

/-- The second part of a signature. -/
def answer (k e d : ℕ) : ℕ := (k + e * d % order) % order

theorem answer_lt (k e d : ℕ) : answer k e d < order := Nat.mod_lt _ (by decide)

/-- The answer takes the key's share away from the nonce's point. -/
theorem answer_smul (curve : CurveGroup fieldPrime order) (k e d : ℕ) :
    answer k e d • curve.generator = k • curve.generator + e • d • curve.generator := by
  rw [answer, Nat.add_mod_mod, curve.smul_mod, add_smul, mul_smul]

/-- A signature made with a nonce whose point has an even y. -/
def signatureText (lib : SignerLibrary) (signer : Bip340Signer) (message : List UInt8)
    (k x : ℕ) : List Char :=
  let Rx := (bnToBytes x 32).1
  let e := challenge lib Rx signer.publicKey.1 message
  Util.bytesToHex (Rx ++ (bnToBytes (answer k e (beValue signer.secretKey.1)) 32).1)

/-- The nonce, turned round when its point has an odd y. -/
def evenNonce (k y : ℕ) : ℕ := if y % 2 = 1 then modSub order k order else k

theorem affine_evenNonce {k x y : ℕ} (hk : k < order)
    (h : lib.curve.affine (k • lib.curve.generator) = some (x, y)) :
    ∃ y', lib.curve.affine (evenNonce k y • lib.curve.generator) = some (x, y') ∧ y' % 2 = 0 := by
  rw [evenNonce]
  split
  · rename_i hodd
    have opposite : modSub order k order • lib.curve.generator = -(k • lib.curve.generator) := by
      rw [lib.curve.neg_smul_generator, modSub_of_le (Nat.le_of_lt hk), ZMod.natCast_mod,
        Nat.cast_sub (Nat.le_of_lt hk), ZMod.natCast_self, zero_sub]
    have parity := CurveGroup.parity_neg h
    simp only [hodd, decide_true, Bool.not_true, decide_eq_false_iff_not] at parity
    exact ⟨fieldPrime - y, by rw [opposite, lib.curve.affine_neg h], by omega⟩
  · rename_i heven
    exact ⟨y, h, by omega⟩

/-- The nonce that is used for a message, before it is turned round. -/
def messageNonce (lib : SignerLibrary) (unwritten : Unwritten) (signer : Bip340Signer)
    (message : List UInt8) : ℕ :=
  beValue (nonceRfc6979 lib unwritten.behindV
    (taggedHash lib message (literal "Midnight/transaction")) signer.secretKey signer.publicKey).1

theorem messageNonce_lt (unwritten : Unwritten) (signer : Bip340Signer) (message : List UInt8) :
    messageNonce lib unwritten signer message < order :=
  nonceLoop_lt _ _ _ _

theorem signMessage_eq {unwritten : Unwritten} {signer : Bip340Signer} {message : List UInt8}
    {x y : ℕ} (hkey : signer.hasKey = true)
    (hR : lib.curve.affine (messageNonce lib unwritten signer message • lib.curve.generator) =
      some (x, y)) :
    signMessage lib unwritten signer message = .ok (signatureText lib signer message
      (evenNonce (messageNonce lib unwritten signer message) y) x) := by
  have found := pointMulBase_eq_some.mpr ⟨x, y, hR, rfl, rfl, rfl⟩
  rw [messageNonce] at found
  rw [signMessage, if_neg (by simp [hkey])]
  simp only [found, value_secp256k1N, decide_eq_true_eq]
  rfl

/-- What is signed, whenever something is. -/
theorem signMessage_eq_ok {unwritten : Unwritten} {signer : Bip340Signer} {message : List UInt8}
    {sig : List Char} (h : signMessage lib unwritten signer message = .ok sig) :
    ∃ x y, lib.curve.affine (messageNonce lib unwritten signer message • lib.curve.generator) =
        some (x, y) ∧
      sig = signatureText lib signer message
        (evenNonce (messageNonce lib unwritten signer message) y) x := by
  have hkey : signer.hasKey = true := by
    cases has : signer.hasKey with
    | true => rfl
    | false =>
      rw [signMessage, has] at h
      cases h
  cases found : lib.curve.affine
      (messageNonce lib unwritten signer message • lib.curve.generator) with
  | none =>
    have missing : pointMulBase lib (messageNonce lib unwritten signer message) = none := by
      rw [pointMulBase, found, Option.map_none]
    rw [messageNonce] at missing
    rw [signMessage, if_neg (by simp [hkey])] at h
    simp only [missing, reduceCtorEq] at h
  | some xy =>
    obtain ⟨x, y⟩ := xy
    rw [signMessage_eq hkey found] at h
    cases h
    exact ⟨x, y, rfl, rfl⟩

variable {signer : Bip340Signer} {secretKey : Bytes 32} {message : List UInt8}

/-- How a signature is read. -/
theorem readSignature_signatureText (unset : Nat → UInt32) (k x : ℕ) :
    readSignature unset (signatureText lib signer message k x) =
      some ((bnToBytes x 32).1, (bnToBytes (answer k
        (challenge lib (bnToBytes x 32).1 signer.publicKey.1 message)
        (beValue signer.secretKey.1)) 32).1) := by
  have text := Util.bytesToHex_spells ((bnToBytes x 32).1 ++ (bnToBytes (answer k
    (challenge lib (bnToBytes x 32).1 signer.publicKey.1 message)
    (beValue signer.secretKey.1)) 32).1)
  rw [← stripPrefix_spells text] at text
  exact readSignature_spells unset text (bnToBytes x 32).2 (bnToBytes _ 32).2

theorem readPublicKey_publicKeyToHex (unset : Nat → UInt32) (publicKey : Bytes 32) :
    readPublicKey unset (publicKeyToHex publicKey) = some publicKey.1 := by
  have text := Util.bytesToHex_spells publicKey.1
  rw [← stripPrefix_spells text] at text
  exact readPublicKey_spells unset text publicKey.2

theorem derivePublicKey_setKey (hset : setKey lib secretKey = .ok signer) :
    derivePublicKey lib signer.secretKey = signer.publicKey := by
  obtain ⟨-, rfl⟩ := setKey_eq_ok.mp hset
  rfl

theorem verifySignature_publicKey {unwritten unwritten' : Unwritten} {sig : List Char}
    (hset : setKey lib secretKey = .ok signer)
    (hsign : signMessage lib unwritten signer message = .ok sig) :
    verifySignature lib unwritten' message sig (publicKeyToHex signer.publicKey) = true := by
  obtain ⟨xP, yP, hP, hkey⟩ := exists_affine_setKey hset
  obtain ⟨x, y, found, rfl⟩ := signMessage_eq_ok hsign
  obtain ⟨y', hR, -⟩ := affine_evenNonce (messageNonce_lt unwritten signer message) found
  rw [verifySignature_eq (readSignature_signatureText _ _ x)
    (readPublicKey_publicKeyToHex _ signer.publicKey)]
  rw [value_bnToBytes (affine_fits hR).1, value_bnToBytes (Nat.lt_trans (answer_lt _ _ _) order_lt),
    hkey, value_bnToBytes (affine_fits hP).1]
  -- the round that finds the signer's own point
  refine ⟨decide (yP % 2 = 1), acceptsWith_iff.mpr ⟨_, CurveGroup.ofCompressed_affine hP, ?_⟩⟩
  rw [answer_smul, add_neg_cancel_right]
  exact Or.inl ⟨y', hR⟩

/-- **What is signed is accepted** under the public key of the stored key. -/
theorem verifySignature_signMessage {unwritten unwritten' : Unwritten} {sig : List Char}
    (hset : setKey lib secretKey = .ok signer)
    (hsign : signMessage lib unwritten signer message = .ok sig) :
    verifySignature lib unwritten' message sig
      (publicKeyToHex (derivePublicKey lib signer.secretKey)) = true := by
  rw [derivePublicKey_setKey hset]
  exact verifySignature_publicKey hset hsign

/-! ## A signature on the curve itself -/

/-- The key 12, whose point has an odd y. -/
def twelve : Bip340Signer where
  secretKey := bnToBytes 12 32
  publicKey := bnToBytes 0xd01115d548e7561b15c38f004d734633687cf4419620095bc5b0f47070afe85a 32
  hasKey := true

theorem value_twelve : beValue twelve.secretKey.1 = 12 := by decide

theorem affine_twelve :
    openSsl.curve.affine (beValue twelve.secretKey.1 • openSsl.curve.generator) =
      some (0xd01115d548e7561b15c38f004d734633687cf4419620095bc5b0f47070afe85a,
        0xa9f34ffdc815e0d7a8b64537e17bd81579238c5dd9a86d526b051b13f4062327) := by
  rw [value_twelve]
  exact Secp256k1.affine_smul (by decide)

theorem setKey_twelve : setKey openSsl twelve.secretKey = .ok twelve := by
  have kept : clampBytes twelve.secretKey = twelve.secretKey := by decide
  rw [setKey_eq_ok, kept, derivePubkeyInternal_eq affine_twelve, value_twelve]
  exact ⟨by decide, rfl⟩

def sampleUnwritten : Unwritten := ⟨fun _ => 0, 0⟩

def sampleNonce : ℕ := 0x5e5dcdf618bd923392894b6c75deab4aaf1e658d855486c3bf8bbccfefb1c398

def sampleX : ℕ := 0xb6ef26e3e3151c93d431fed1fa5f7be568653e19e6d520bd575bd33aea181422

theorem messageNonce_sample :
    messageNonce openSsl sampleUnwritten twelve (literal "pay 1") = sampleNonce := by
  decide +kernel

theorem affine_sample : openSsl.curve.affine (sampleNonce • openSsl.curve.generator) = some (sampleX,
    0x5d6486fe73ae57b22d70f8a6c4ba87e12e5abc0516ee88abce5b0a681af652c) :=
  Secp256k1.affine_smul (by decide +kernel)

theorem signMessage_sample : signMessage openSsl sampleUnwritten twelve (literal "pay 1") =
    .ok (signatureText openSsl twelve (literal "pay 1") sampleNonce sampleX) := by
  have hR := affine_sample
  rw [← messageNonce_sample] at hR
  rw [signMessage_eq rfl hR, messageNonce_sample]
  rfl

theorem verifySignature_signMessage_sample :
    verifySignature openSsl sampleUnwritten (literal "pay 1")
      (signatureText openSsl twelve (literal "pay 1") sampleNonce sampleX)
      (publicKeyToHex (derivePublicKey openSsl twelve.secretKey)) = true :=
  verifySignature_signMessage setKey_twelve signMessage_sample

end MidnightSdk.Crypto.Bip340Signer
