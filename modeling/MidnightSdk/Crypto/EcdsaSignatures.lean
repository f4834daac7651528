import Mathlib.Tactic.LinearCombination
import MidnightSdk.Crypto.EcdsaSigner

/-!
# What ECDSA signs is accepted

The verifier finds the nonce's point again, or its opposite when the second number
was brought below half the order, and either has the x coordinate that was signed.
-/

namespace MidnightSdk.Crypto

open BigEndian Cpp Secp256k1

instance : Fact order.Prime := ⟨order_prime⟩

/-! ## The equation of a signature -/

/-- The nonce's point, or its opposite, from the two numbers of a signature and the key's
point, `w` being the inverse of the second number. -/
theorem signature_point {p n : ℕ} [Fact n.Prime] (curve : CurveGroup p n) {d e r s k w : ℕ}
    (hs : (s : ZMod n) ≠ 0) (hw : (w : ZMod n) = (s : ZMod n)⁻¹)
    (h : (s * k : ZMod n) = e + r * d ∨ (s * k : ZMod n) = -(e + r * d)) :
    let R := (e * w % n) • curve.generator + (r * w % n) • d • curve.generator
    R = k • curve.generator ∨ R = -(k • curve.generator) := by
  intro R
  have multiple : R = (e * w + r * w * d) • curve.generator := by
    simp only [R]
    rw [curve.smul_mod, curve.smul_mod, smul_smul, ← add_smul]
  have cancel : (s : ZMod n) * w = 1 := by rw [hw, mul_inv_cancel₀ hs]
  rw [multiple, curve.smul_generator_inj, curve.neg_smul_generator]
  push_cast
  rcases h with h | h
  · left
    linear_combination (k : ZMod n) * cancel - w * h
  · right
    linear_combination -(k : ZMod n) * cancel + w * h

/-- The inverse that is computed is that of the field. -/
theorem modInverse_eq {a : ℕ} (h : 0 < a) (hlt : a < order) :
    ∃ w, modInverse a order = some w ∧ (w : ZMod order) = (a : ZMod order)⁻¹ := by
  have coprime : a.Coprime order :=
    (Nat.coprime_of_lt_prime (Nat.ne_of_gt h) hlt order_prime).symm
  exact ⟨_, if_pos coprime, ZMod.natCast_zmod_val _⟩

theorem natCast_ne_zero {a : ℕ} (h : 0 < a) (hlt : a < order) : (a : ZMod order) ≠ 0 := by
  rw [ne_eq, ZMod.natCast_eq_zero_iff]
  exact Nat.not_dvd_of_pos_of_lt h hlt

namespace EcdsaSigner

theorem validScalar_iff {value : ℕ} : validScalar value = true ↔ 0 < value ∧ value < order := by
  simp [validScalar, Nat.pos_iff_ne_zero]

theorem bnToBytes_of_lt {bn size : ℕ} (h : bn < 256 ^ size) :
    bnToBytes bn size = .ok ⟨beBytes size bn, beBytes_length size bn⟩ := if_pos h

variable {lib : EcdsaLibrary}

/-! ## Public keys -/

/-- The compressed point. -/
def compressed (x y : ℕ) : Bytes 33 :=
  ⟨(if y % 2 = 1 then 0x03 else 0x02) :: beBytes 32 x, by rw [List.length_cons, beBytes_length]⟩

/-- The parity of a number is in its last byte. -/
theorem odd_last_byte (y : ℕ) : (beBytes 32 y).getD 31 0 &&& 1 ≠ 0 ↔ y % 2 = 1 := by
  have last : (beBytes 32 y).getD 31 0 = UInt8.ofNat y := by
    have bytes : beBytes 32 y = (LittleEndian.leBytes 31 (y / 256)).reverse ++ [UInt8.ofNat y] :=
      List.reverse_cons
    have length : (LittleEndian.leBytes 31 (y / 256)).reverse.length = 31 := by simp
    rw [bytes, List.getD_eq_getElem?_getD, List.getElem?_append_right (Nat.le_of_eq length), length]
    rfl
  have bit : ((UInt8.ofNat y) &&& 1).toNat = y % 2 := by
    rw [UInt8.toNat_and, UInt8.toNat_ofNat', UInt8.toNat_one, Nat.and_one_is_mod]
    omega
  rw [last, ne_eq, ← UInt8.toNat_inj, bit]
  simp

theorem derivePublicKeyImpl_eq {privateKey : Bytes 32} {x y : ℕ}
    (valid : validScalar (beValue privateKey.1) = true)
    (h : lib.curve.affine (beValue privateKey.1 • lib.curve.generator) = some (x, y)) :
    derivePublicKeyImpl lib privateKey = .ok (compressed x y) := by
  obtain ⟨hx, hy⟩ := affine_fits h
  simp only [derivePublicKeyImpl, valid, h, bnToBytes_of_lt hx, bnToBytes_of_lt hy,
    Bool.not_true, Bool.false_eq_true, if_false, ok_bind, odd_last_byte]
  rfl

/-- A key that is accepted has a point, and its public key is that point. -/
theorem derivePublicKeyImpl_eq_ok {privateKey : Bytes 32} {publicKey : Bytes 33}
    (h : derivePublicKeyImpl lib privateKey = .ok publicKey) :
    validScalar (beValue privateKey.1) = true ∧ ∃ x y,
      lib.curve.affine (beValue privateKey.1 • lib.curve.generator) = some (x, y) ∧
        publicKey = compressed x y := by
  cases valid : validScalar (beValue privateKey.1) with
  | false =>
    simp only [derivePublicKeyImpl, valid] at h
    cases h
  | true =>
    obtain ⟨positive, below⟩ := validScalar_iff.mp valid
    obtain ⟨x, y, found⟩ := CurveGroup.exists_affine
      (lib.curve.smul_generator_ne_zero positive below)
    rw [derivePublicKeyImpl_eq valid found] at h
    cases h
    exact ⟨rfl, x, y, found, rfl⟩

/-! ## Signing -/

/-- The smaller of a number and its opposite. -/
def lowS (s : ℕ) : ℕ := if s > order >>> 1 then order - s else s

/-- The two numbers as bytes. -/
def signature (r s : ℕ) : Bytes 64 :=
  ⟨beBytes 32 r ++ beBytes 32 s, by rw [List.length_append, beBytes_length, beBytes_length]⟩

theorem lowS_lt {s : ℕ} (h : 0 < s) (hlt : s < order) :
    1 ≤ lowS s ∧ lowS s ≤ (order - 1) / 2 := by
  have half : order >>> 1 = (order - 1) / 2 := by decide
  have odd : order = 2 * ((order - 1) / 2) + 1 := by decide
  rw [lowS, half]
  split <;> omega

/-- The second number that goes with a nonce's point, before it is made small. -/
def secondNumber (w e r d : ℕ) : ℕ := w * ((e + r * d % order) % order) % order

theorem value_mod_lt (n : ℕ) : n % order < order := Nat.mod_lt _ (by decide)

theorem signHashManual_eq {hash privateKey nonce : Bytes 32} {x y w : ℕ}
    (hd : validScalar (beValue privateKey.1) = true)
    (hk : validScalar (beValue nonce.1 % order) = true)
    (hR : lib.curve.affine ((beValue nonce.1 % order) • lib.curve.generator) = some (x, y))
    (hw : modInverse (beValue nonce.1 % order) order = some w) :
    let s := secondNumber w (beValue hash.1 % order) (x % order) (beValue privateKey.1)
    signHashManual lib hash privateKey nonce =
      if !validScalar (x % order) then .error (.runtimeError "Invalid ECDSA r value")
      else if !validScalar s then .error (.runtimeError "Failed to compute ECDSA s value")
      else .ok (signature (x % order) (lowS s)) := by
  intro s
  simp only [signHashManual, hd, hk, hR, hw, Bool.not_true, Bool.false_eq_true, if_false]
  split
  · rfl
  · change (if !validScalar s then _ else _) = _
    split
    · rfl
    · rename_i hs
      obtain ⟨positive, below⟩ : 0 < s ∧ s < order := by simpa [validScalar_iff] using hs
      have small := (lowS_lt positive below).2
      have fits : lowS s < 256 ^ 32 := by
        have := order_lt
        omega
      have first : x % order < 256 ^ 32 := Nat.lt_trans (value_mod_lt x) order_lt
      change (bnToBytes (x % order) 32 >>= fun front => bnToBytes (lowS s) 32 >>= _) = _
      rw [bnToBytes_of_lt first, bnToBytes_of_lt fits]
      rfl

/-- Two numbers that were made with a nonce: the first is the x coordinate of its point, the
second fulfils the equation, or its opposite does. -/
structure MadeWith (lib : EcdsaLibrary) (d e r s k : ℕ) : Prop where
  positive : 1 ≤ r
  below : r < order
  second_positive : 1 ≤ s
  second_low : s ≤ (order - 1) / 2
  point : ∃ x y, lib.curve.affine (k • lib.curve.generator) = some (x, y) ∧ r = x % order
  equation : (s * k : ZMod order) = e + r * d ∨ (s * k : ZMod order) = -(e + r * d)

/-- The number that is brought below half the order fulfils the equation up to its sign. -/
theorem lowS_equation {d e r k w : ℕ} (hk : (k : ZMod order) ≠ 0)
    (hw : (w : ZMod order) = (k : ZMod order)⁻¹) :
    (lowS (secondNumber w e r d) * k : ZMod order) = e + r * d ∨
      (lowS (secondNumber w e r d) * k : ZMod order) = -(e + r * d) := by
  have cancel : (w : ZMod order) * k = 1 := by rw [hw, inv_mul_cancel₀ hk]
  have second : (secondNumber w e r d : ZMod order) = w * (e + r * d) := by
    simp [secondNumber]
  rw [lowS]
  split
  · right
    have below : secondNumber w e r d ≤ order := Nat.le_of_lt (value_mod_lt _)
    rw [Nat.cast_sub below, ZMod.natCast_self, second]
    linear_combination -(e + r * d : ZMod order) * cancel
  · left
    rw [second]
    linear_combination (e + r * d : ZMod order) * cancel

/-- What is signed with a nonce was made with it. -/
theorem signHashManual_eq_ok {hash privateKey nonce : Bytes 32} {sig : Bytes 64}
    (h : signHashManual lib hash privateKey nonce = .ok sig) :
    ∃ r s, sig = signature r s ∧
      MadeWith lib (beValue privateKey.1) (beValue hash.1 % order) r s
        (beValue nonce.1 % order) := by
  cases hd : validScalar (beValue privateKey.1) with
  | false =>
    simp only [signHashManual, hd] at h
    cases h
  | true =>
    cases hk : validScalar (beValue nonce.1 % order) with
    | false =>
      simp only [signHashManual, hd, hk] at h
      cases h
    | true =>
      obtain ⟨positive, below⟩ := validScalar_iff.mp hk
      obtain ⟨x, y, hR⟩ := CurveGroup.exists_affine
        (lib.curve.smul_generator_ne_zero positive below)
      obtain ⟨w, hw, inverse⟩ := modInverse_eq positive below
      rw [signHashManual_eq hd hk hR hw] at h
      split at h
      · cases h
      · rename_i hr
        split at h
        · cases h
        · rename_i hs
          cases h
          simp only [Bool.not_eq_true', Bool.not_eq_false, validScalar_iff] at hr hs
          obtain ⟨low_positive, low⟩ := lowS_lt hs.1 hs.2
          exact ⟨_, _, rfl, hr.1, hr.2, low_positive, low, ⟨x, y, hR, rfl⟩,
            lowS_equation (natCast_ne_zero positive below) inverse⟩

/-! ## Verifying -/

theorem value_signature {r s : ℕ} (hr : r < 256 ^ 32) (hs : s < 256 ^ 32) :
    beValue ((signature r s).1.take 32) = r ∧ beValue ((signature r s).1.drop 32) = s := by
  have front : (signature r s).1.take 32 = beBytes 32 r := by
    rw [signature, List.take_left' (beBytes_length 32 r)]
  have back : (signature r s).1.drop 32 = beBytes 32 s := by
    rw [signature, List.drop_left' (beBytes_length 32 r)]
  rw [front, back]
  exact ⟨beValue_beBytes_of_lt hr, beValue_beBytes_of_lt hs⟩

theorem MadeWith.fits {d e r s k : ℕ} (made : MadeWith lib d e r s k) :
    r < 256 ^ 32 ∧ s < 256 ^ 32 := by
  have := made.below
  have := made.second_low
  have := order_lt
  omega

/-- The first byte of a compressed point is one of the two, and tells the parity. -/
theorem compressed_sign (x y : ℕ) :
    ((compressed x y).1.getD 0 0 != 0x02 && (compressed x y).1.getD 0 0 != 0x03) = false ∧
      ((compressed x y).1.getD 0 0 == 0x03) = decide (y % 2 = 1) := by
  rw [compressed, List.getD_cons_zero]
  split <;> simp [*]

/-- **What was made with a nonce is accepted** under the key's point. -/
theorem verifyHashManual_signature {hash : Bytes 32} {d r s k x y : ℕ}
    (hP : lib.curve.affine (d • lib.curve.generator) = some (x, y))
    (made : MadeWith lib d (beValue hash.1 % order) r s k) :
    verifyHashManual lib hash (signature r s) (compressed x y) = true := by
  obtain ⟨first, second⟩ := value_signature made.fits.1 made.fits.2
  obtain ⟨allowed, parity⟩ := compressed_sign x y
  have s_below : s < order := by
    have := made.second_low
    have := made.below
    omega
  obtain ⟨w, hw, inverse⟩ := modInverse_eq made.second_positive s_below
  have valid_r : validScalar r = true := validScalar_iff.mpr ⟨made.positive, made.below⟩
  have valid_s : validScalar s = true := validScalar_iff.mpr ⟨made.second_positive, s_below⟩
  have lifted : lib.curve.ofCompressed (beValue ((compressed x y).1.drop 1))
      (decide (y % 2 = 1)) = some (d • lib.curve.generator) := by
    rw [compressed, List.drop_one, List.tail_cons, beValue_beBytes_of_lt (affine_fits hP).1]
    exact CurveGroup.ofCompressed_affine hP
  obtain ⟨xR, yR, hR, rfl⟩ := made.point
  obtain ⟨y', found⟩ := (CurveGroup.same_x_iff hR).mpr
    (signature_point lib.curve (natCast_ne_zero made.second_positive s_below) inverse made.equation)
  simp only [verifyHashManual, first, second, valid_r, valid_s, allowed, parity, lifted, hw, found]
  simp

/-! ## The signer -/

variable {signer before : EcdsaSigner} {privateKey : Bytes 32} {message : List UInt8}

theorem setPrivateKey_eq_ok (h : setPrivateKey lib before privateKey = (signer, .ok ())) :
    ∃ x y, lib.curve.affine (beValue privateKey.1 • lib.curve.generator) = some (x, y) ∧
      signer = ⟨privateKey, compressed x y, true⟩ := by
  rw [setPrivateKey] at h
  split at h
  · rename_i publicKey derived
    obtain ⟨-, x, y, found, rfl⟩ := derivePublicKeyImpl_eq_ok derived
    cases h
    exact ⟨x, y, found, rfl⟩
  · cases h

theorem signRaw_eq {drawn : Option (Bytes 32)} (hkey : signer.hasKey = true) :
    signRaw lib drawn signer message = signHashManual lib (lib.sha256 message) signer.privateKey
      (nonceRfc6979Impl lib drawn message signer.privateKey (lib.sha256 message)) := by
  rw [signRaw, signDeterministic, if_neg (by simp [hkey])]

theorem signRaw_eq_ok {drawn : Option (Bytes 32)} {sig : Bytes 64}
    (h : signRaw lib drawn signer message = .ok sig) :
    ∃ r s k, sig = signature r s ∧
      MadeWith lib (beValue signer.privateKey.1) (beValue (lib.sha256 message).1 % order) r s k := by
  rw [signRaw, signDeterministic] at h
  split at h
  · cases h
  · obtain ⟨r, s, hsig, made⟩ := signHashManual_eq_ok h
    exact ⟨r, s, _, hsig, made⟩

/-- The DER of two numbers of 32 bytes is taken for the two. -/
theorem verifyDer_rawSignatureToDer {r s : ℕ} (hr : r < 256 ^ 32) (hs : s < 256 ^ 32)
    (publicKey : Bytes 33) :
    verifyDer lib message (rawSignatureToDer lib (signature r s)) publicKey =
      .ok (verifyRaw lib message (signature r s) publicKey) := by
  obtain ⟨first, second⟩ := value_signature hr hs
  have wide : 256 ^ 32 = 2 ^ 256 := by decide
  have read : lib.d2i (lib.i2d r s) = some ((r, s), []) :=
    lib.d2i_i2d (wide ▸ hr) (wide ▸ hs)
  have short : ¬(256 ^ 32 ≤ r ∨ 256 ^ 32 ≤ s) := by omega
  simp only [verifyDer, rawSignatureToDer, first, second, read, if_neg short, bnToBytes_of_lt hr,
    bnToBytes_of_lt hs]
  rfl

/-- **Signatures of an accepted key are small and accepted**, in either form, whichever bytes
the fallback of the nonce draws. -/
theorem verifyRaw_signRaw {drawn : Option (Bytes 32)} {sig : Bytes 64}
    (hset : setPrivateKey lib before privateKey = (signer, .ok ()))
    (hsign : signRaw lib drawn signer message = .ok sig) :
    let r := beValue (sig.1.take 32)
    let s := beValue (sig.1.drop 32)
    (1 ≤ r ∧ r < order) ∧ (1 ≤ s ∧ s ≤ (order - 1) / 2) ∧
      verifyRaw lib message sig (getPublicKey signer) = true ∧
      (∃ der, signDer lib drawn signer message = .ok der) ∧
      ∀ drawn' der, signDer lib drawn' signer message = .ok der →
        verifyDer lib message der (getPublicKey signer) = .ok true := by
  obtain ⟨x, y, hP, rfl⟩ := setPrivateKey_eq_ok hset
  obtain ⟨r, s, k, rfl, made⟩ := signRaw_eq_ok hsign
  obtain ⟨first, second⟩ := value_signature made.fits.1 made.fits.2
  intro r' s'
  simp only [r', s', first, second]
  refine ⟨⟨made.positive, made.below⟩, ⟨made.second_positive, made.second_low⟩,
    verifyHashManual_signature hP made, ⟨_, by rw [signDer, hsign]; rfl⟩, ?_⟩
  intro drawn' der hder
  obtain ⟨sig', hsign', hder⟩ := bind_eq_ok.mp hder
  obtain ⟨r', s', k', rfl, made'⟩ := signRaw_eq_ok hsign'
  cases hder
  rw [verifyDer_rawSignatureToDer made'.fits.1 made'.fits.2]
  exact congrArg _ (verifyHashManual_signature hP made')

/-! ## A signature on the curve itself -/

theorem setPrivateKey_eq {x y : ℕ} (valid : validScalar (beValue privateKey.1) = true)
    (h : lib.curve.affine (beValue privateKey.1 • lib.curve.generator) = some (x, y)) :
    setPrivateKey lib before privateKey = (⟨privateKey, compressed x y, true⟩, .ok ()) := by
  rw [setPrivateKey, derivePublicKeyImpl_eq valid h]

theorem modInverse_eq_some {a w : ℕ} (h : 0 < a) (hlt : a < order) (hw : w < order)
    (inverse : a * w % order = 1) : modInverse a order = some w := by
  obtain ⟨w', found, value⟩ := modInverse_eq h hlt
  have product : (a : ZMod order) * w = 1 := by
    rw [← Nat.cast_mul, ← ZMod.natCast_mod, inverse, Nat.cast_one]
  have coprime : a.Coprime order :=
    (Nat.coprime_of_lt_prime (Nat.ne_of_gt h) hlt order_prime).symm
  rw [modInverse, if_pos coprime, ← eq_inv_of_mul_eq_one_right product, ZMod.val_natCast_of_lt hw]

/-- The key 1, whose point is the generator. -/
def one : EcdsaSigner where
  privateKey := ⟨beBytes 32 1, beBytes_length 32 1⟩
  publicKey := compressed generatorX generatorY
  hasKey := true

theorem setPrivateKey_one : setPrivateKey ecdsaOpenSsl one one.privateKey = (one, .ok ()) :=
  setPrivateKey_eq (by decide) (Secp256k1.affine_smul (by decide))

def sampleNonce : ℕ := 0x925891427318f050dc089e0e5042192b42b3e6a539d36cbdbb17744c986509ba

/-- The second number of this signature is brought below half the order. -/
def sampleSignature : Bytes 64 :=
  signature 0xa0cd06209c54fa5e43c5de11fc9192aaa21a3a7eaf6ec445de6d9c4f8bae5d27
    0x4a259bf940bca0aaa84306f876587ddd57e1d36d1923e0669d9b338fa4295bbb

theorem nonce_sample :
    beValue (nonceRfc6979Impl ecdsaOpenSsl none (literal "midnight") one.privateKey
      (ecdsaOpenSsl.sha256 (literal "midnight"))).1 % order = sampleNonce := by
  decide +kernel

theorem affine_sampleNonce :
    ecdsaOpenSsl.curve.affine (sampleNonce • ecdsaOpenSsl.curve.generator) =
      some (0xa0cd06209c54fa5e43c5de11fc9192aaa21a3a7eaf6ec445de6d9c4f8bae5d27,
        0xb8e8d6b5b7550ee358160496f37f12e17e08d04471105d082431cf3a97c46ed7) :=
  Secp256k1.affine_smul (by decide +kernel)

theorem modInverse_sample : modInverse sampleNonce order =
    some 0x6ab2e3d0b97860121a51fb239d45f89a635481807ac9f86b9078bee0965a6c42 :=
  modInverse_eq_some (by decide) (by decide) (by decide) (by decide)

theorem signRaw_one :
    signRaw ecdsaOpenSsl none one (literal "midnight") = .ok sampleSignature := by
  have valid : validScalar (beValue one.privateKey.1) = true := by decide
  have nonce_valid : validScalar sampleNonce = true := by decide
  have hR := affine_sampleNonce
  have hw := modInverse_sample
  rw [← nonce_sample] at nonce_valid hR hw
  rw [signRaw_eq rfl, signHashManual_eq valid nonce_valid hR hw]
  decide

/-- Both forms of the signature of a message under the key 1. -/
theorem verifyRaw_signRaw_one :
    verifyRaw ecdsaOpenSsl (literal "midnight") sampleSignature (getPublicKey one) = true ∧
      verifyDer ecdsaOpenSsl (literal "midnight") (rawSignatureToDer ecdsaOpenSsl sampleSignature)
        (getPublicKey one) = .ok true := by
  have signed : ∃ der, signDer ecdsaOpenSsl none one (literal "midnight") = .ok der ∧
      der = rawSignatureToDer ecdsaOpenSsl sampleSignature :=
    ⟨_, by rw [signDer, signRaw_one]; rfl, rfl⟩
  obtain ⟨der, hder, rfl⟩ := signed
  obtain ⟨-, -, raw, -, der⟩ := verifyRaw_signRaw setPrivateKey_one signRaw_one
  exact ⟨raw, der none _ hder⟩

end EcdsaSigner

end MidnightSdk.Crypto
