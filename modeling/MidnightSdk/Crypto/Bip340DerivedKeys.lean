import MidnightSdk.Crypto.Bip340Signatures

/-!
# Derived keys and stored keys

A public key is derived from the scalar as it is given, but a signer uses the scalar
with three of its bits cleared. The two agree when clearing the bits changes nothing,
or turns the scalar into its opposite modulo the order.
-/

namespace MidnightSdk.Crypto.Bip340Signer

open BigEndian Cpp HexText Secp256k1

variable {lib : SignerLibrary} {secretKey : Bytes 32}

/-- Both ways to make a signer accept the key, and what it signs is accepted under the
derived public key, which is its own. -/
def KeyMatches (lib : SignerLibrary) (secretKey : Bytes 32) : Prop :=
  ∃ signer, setKey lib secretKey = .ok signer ∧
    (∀ unwritten text, Spells (stripPrefix text) secretKey.1 →
      ofHex lib unwritten text = .ok signer) ∧
    signer.publicKey = derivePublicKey lib secretKey ∧
    ∀ unwritten unwritten' message sig, signMessage lib unwritten signer message = .ok sig →
      verifySignature lib unwritten' message sig
        (publicKeyToHex (derivePublicKey lib secretKey)) = true

theorem keyMatches_iff_publicKey : KeyMatches lib secretKey ↔
    beValue (clampBytes secretKey).1 ≠ 0 ∧
      derivePubkeyInternal lib (clampBytes secretKey) = derivePubkeyInternal lib secretKey := by
  constructor
  · rintro ⟨signer, hset, -, same, -⟩
    obtain ⟨nonzero, rfl⟩ := setKey_eq_ok.mp hset
    exact ⟨nonzero, same⟩
  · rintro ⟨nonzero, same⟩
    have hset : setKey lib secretKey = .ok _ := setKey_eq_ok.mpr ⟨nonzero, rfl⟩
    refine ⟨_, hset, fun _ _ spelled => (ofHex_spells spelled).trans hset, same, ?_⟩
    intro unwritten unwritten' message sig hsign
    rw [derivePublicKey, ← same]
    exact verifySignature_publicKey hset hsign

/-- Two scalars below the order have the same public key when they are equal or opposite. -/
theorem derivePubkeyInternal_eq_iff {a b : Bytes 32} (ha : 0 < beValue a.1)
    (ha' : beValue a.1 < order) (hb : 0 < beValue b.1) (hb' : beValue b.1 < order) :
    derivePubkeyInternal lib a = derivePubkeyInternal lib b ↔
      beValue a.1 = beValue b.1 ∨ beValue a.1 + beValue b.1 = order := by
  obtain ⟨x, y, hx⟩ := CurveGroup.exists_affine (lib.curve.smul_generator_ne_zero ha ha')
  obtain ⟨x', y', hx'⟩ := CurveGroup.exists_affine (lib.curve.smul_generator_ne_zero hb hb')
  have sameX : x = x' ↔ beValue b.1 • lib.curve.generator = beValue a.1 • lib.curve.generator ∨
      beValue b.1 • lib.curve.generator = -(beValue a.1 • lib.curve.generator) := by
    rw [← CurveGroup.same_x_iff hx]
    constructor
    · rintro rfl
      exact ⟨y', hx'⟩
    · rintro ⟨z, hz⟩
      rw [hx', Option.some.injEq, Prod.mk.injEq] at hz
      exact hz.1.symm
  have equal : (beValue b.1 : ZMod order) = beValue a.1 ↔ beValue a.1 = beValue b.1 := by
    rw [ZMod.natCast_eq_natCast_iff', Nat.mod_eq_of_lt ha', Nat.mod_eq_of_lt hb', eq_comm]
  have opposite : (beValue b.1 : ZMod order) = -(beValue a.1 : ZMod order) ↔
      beValue a.1 + beValue b.1 = order := by
    rw [eq_neg_iff_add_eq_zero, ← Nat.cast_add, ZMod.natCast_eq_zero_iff, Nat.add_comm]
    constructor
    · intro divides
      obtain ⟨c, hc⟩ := divides
      have small : c < 2 := by
        by_contra large
        have := Nat.mul_le_mul_left order (Nat.le_of_not_lt large)
        omega
      have pos : c ≠ 0 := by
        rintro rfl
        omega
      obtain rfl : c = 1 := by omega
      omega
    · intro whole
      exact ⟨1, by omega⟩
  rw [derivePubkeyInternal_eq hx, derivePubkeyInternal_eq hx',
    bnToBytes_inj (affine_fits hx).1 (affine_fits hx').1, sameX, lib.curve.smul_generator_inj,
    lib.curve.neg_smul_generator, equal, opposite]

/-- **When a derived public key is the signer's**: bit 255 and the two low bits of the
scalar are clear, or clearing them gives the opposite scalar. -/
theorem keyMatches_iff (lib : SignerLibrary) (secretKey : Bytes 32)
    (hpos : 1 ≤ beValue secretKey.1) (hlt : beValue secretKey.1 < order) :
    KeyMatches lib secretKey ↔
      beValue secretKey.1 % 2 ^ 255 / 4 * 4 = beValue secretKey.1 ∨
      beValue secretKey.1 = (order + 1) / 2 ∨ beValue secretKey.1 = (order + 1) / 2 + 2 ^ 254 := by
  have value := value_clampBytes secretKey
  have below := value_clampBytes_lt secretKey
  rw [keyMatches_iff_publicKey]
  by_cases zero : beValue (clampBytes secretKey).1 = 0
  · simp only [order] at *
    omega
  · rw [derivePubkeyInternal_eq_iff (Nat.pos_of_ne_zero zero) below hpos hlt]
    simp only [order] at *
    omega

/-- The least scalar is valid, but a signer takes it for zero. -/
theorem not_keyMatches_one : ¬KeyMatches openSsl (bnToBytes 1 32) := by
  rintro ⟨signer, hset, -⟩
  rw [setKey_eq_ok] at hset
  exact hset.1 (by decide)

theorem keyMatches_twelve : KeyMatches openSsl twelve.secretKey ↔
    beValue twelve.secretKey.1 % 2 ^ 255 / 4 * 4 = beValue twelve.secretKey.1 ∨
      beValue twelve.secretKey.1 = (order + 1) / 2 ∨
      beValue twelve.secretKey.1 = (order + 1) / 2 + 2 ^ 254 :=
  keyMatches_iff openSsl twelve.secretKey (by decide) (by decide)

end MidnightSdk.Crypto.Bip340Signer
