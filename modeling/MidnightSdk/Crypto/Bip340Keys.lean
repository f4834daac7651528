import MidnightSdk.Crypto.Bip340Signer

/-!
# Keys of the BIP-340 signer

A key is stored with three of its bits cleared, and its public key is that of what
is stored.
-/

namespace MidnightSdk.Crypto

open BigEndian Cpp

open Secp256k1

/-- A difference that does not fall below zero by more than the modulus. -/
theorem modSub_of_le {a b m : ℕ} (h : b ≤ a) : modSub a b m = (a - b) % m := by
  rw [modSub, ← Nat.cast_sub h, ← Int.natCast_mod, Int.toNat_natCast]

namespace Bip340Signer

theorem value_secp256k1N : beValue secp256k1N = order := by decide

theorem value_bnToBytes {bn : ℕ} (h : bn < 256 ^ 32) : beValue (bnToBytes bn 32).1 = bn := by
  rw [bnToBytes, if_pos h, beValue_beBytes_of_lt h]

/-- Numbers that fit are written differently. -/
theorem bnToBytes_inj {a b : ℕ} (ha : a < 256 ^ 32) (hb : b < 256 ^ 32) :
    bnToBytes a 32 = bnToBytes b 32 ↔ a = b := by
  constructor
  · intro h
    rw [← value_bnToBytes ha, h, value_bnToBytes hb]
  · rintro rfl
    rfl

/-! ## Clamping -/

theorem clamp_ends {b c : UInt8} {middle : List UInt8} (h : middle.length = 30) :
    clamp (b :: (middle ++ [c])) = (b &&& 0x7F) :: (middle ++ [c &&& 0xFC]) := by
  have last : (middle ++ [c]).modify 30 (· &&& 0xFC) = middle ++ [c &&& 0xFC] := by
    rw [List.modify_eq_take_drop, ← h, List.take_left, List.drop_left]
    rfl
  rw [clamp, List.modify_zero_cons, List.modify_succ_cons, last]

/-- 32 bytes are a first one, thirty, and a last one. -/
theorem exists_ends (scalar : Bytes 32) :
    ∃ b middle c, scalar.1 = b :: (middle ++ [c]) ∧ middle.length = 30 := by
  obtain ⟨bytes, length⟩ := scalar
  cases bytes with
  | nil => cases length
  | cons b rest =>
    rw [List.length_cons, Nat.add_right_cancel_iff] at length
    have some_byte : rest ≠ [] := by
      rintro rfl
      cases length
    refine ⟨b, rest.dropLast, rest.getLast some_byte, ?_, ?_⟩
    · rw [List.dropLast_concat_getLast]
    · rw [List.length_dropLast, length]

theorem toNat_and_127 (b : UInt8) : (b &&& 0x7F).toNat = b.toNat % 128 :=
  forall_byte (P := fun b => (b &&& 0x7F).toNat = b.toNat % 128) (by decide +kernel) b

theorem toNat_and_252 (b : UInt8) : (b &&& 0xFC).toNat = b.toNat / 4 * 4 :=
  forall_byte (P := fun b => (b &&& 0xFC).toNat = b.toNat / 4 * 4) (by decide +kernel) b

/-- The number loses its bit 255 and its two low bits. -/
theorem value_clampBytes (scalar : Bytes 32) :
    beValue (clampBytes scalar).1 = beValue scalar.1 % 2 ^ 255 / 4 * 4 := by
  obtain ⟨b, middle, c, ends, length⟩ := exists_ends scalar
  have below := beValue_lt middle
  have hb := b.toNat_lt
  have hc := c.toNat_lt
  change beValue (clamp scalar.1) = _
  rw [ends, clamp_ends length, beValue_cons, beValue_cons, beValue_concat, beValue_concat,
    toNat_and_127, toNat_and_252, List.length_append, List.length_append, length]
  rw [length] at below
  simp only [List.length_singleton]
  norm_num at below ⊢
  omega

theorem value_clampBytes_lt (scalar : Bytes 32) : beValue (clampBytes scalar).1 < order := by
  rw [value_clampBytes]
  have small : 2 ^ 255 < order := by decide
  omega

/-- All bytes are zero exactly when the number is. -/
theorem all_zero_iff (bytes : Bytes 32) : bytes.1.all (· == 0) = true ↔ beValue bytes.1 = 0 := by
  have zero : beValue (memsetZero 32).1 = 0 := by decide
  have same : bytes.1.all (· == 0) = true ↔ bytes.1 = (memsetZero 32).1 := by
    rw [List.all_eq_true, memsetZero, List.eq_replicate_iff]
    simp [bytes.2]
  rw [same, ← zero, beValue_inj (by rw [bytes.2, (memsetZero 32).2])]

variable {lib : SignerLibrary} {secretKey : Bytes 32}

/-! ## Public keys -/

theorem pointMulBase_eq_some {k : ℕ} {Rx Ry : Bytes 32} {parity : Bool} :
    pointMulBase lib k = some (Rx, Ry, parity) ↔
      ∃ x y, lib.curve.affine (k • lib.curve.generator) = some (x, y) ∧ Rx = bnToBytes x 32 ∧
        Ry = bnToBytes y 32 ∧ parity = decide (y % 2 = 1) := by
  rw [pointMulBase, Option.map_eq_some_iff]
  constructor
  · rintro ⟨⟨x, y⟩, found, h⟩
    cases h
    exact ⟨x, y, found, rfl, rfl, rfl⟩
  · rintro ⟨x, y, found, rfl, rfl, rfl⟩
    exact ⟨(x, y), found, rfl⟩

/-- **A public key is an x coordinate**, whichever parity its point has. -/
theorem derivePubkeyInternal_eq {x y : ℕ}
    (h : lib.curve.affine (beValue secretKey.1 • lib.curve.generator) = some (x, y)) :
    derivePubkeyInternal lib secretKey = bnToBytes x 32 := by
  obtain ⟨hx, hy⟩ := affine_fits h
  have found := pointMulBase_eq_some.mpr ⟨x, y, h, rfl, rfl, rfl⟩
  rw [derivePubkeyInternal, found]
  cases decide (y % 2 = 1) with
  | true => rfl
  | false =>
    have below := (lib.curve.affine_lt h).2
    have positive := CurveGroup.affine_pos h
    have negated := lib.curve.affine_neg h
    have opposite : modSub fieldPrime y fieldPrime = fieldPrime - y := by
      rw [modSub_of_le (Nat.le_of_lt below), Nat.mod_eq_of_lt (by omega)]
    have again : lib.curve.ofAffine x (fieldPrime - y) =
        some (-(beValue secretKey.1 • lib.curve.generator)) :=
      (lib.curve.ofAffine_eq_some (lib.curve.affine_lt h).1 (by omega)).mpr negated
    simp only [value_bnToBytes hx, value_bnToBytes hy, opposite, again, Option.bind_some, negated]

/-- What is stored is a scalar between zero and the order. -/
theorem setKey_eq_ok {signer : Bip340Signer} :
    setKey lib secretKey = .ok signer ↔ beValue (clampBytes secretKey).1 ≠ 0 ∧
      signer = ⟨clampBytes secretKey, derivePubkeyInternal lib (clampBytes secretKey), true⟩ := by
  rw [setKey]
  by_cases zero : beValue (clampBytes secretKey).1 = 0
  · rw [if_pos ((all_zero_iff _).mpr zero)]
    simp [zero]
  · rw [if_neg (mt (all_zero_iff _).mp zero)]
    simp [zero, eq_comm]

/-- The point of a stored key. -/
theorem exists_affine_setKey {signer : Bip340Signer} (h : setKey lib secretKey = .ok signer) :
    ∃ x y, lib.curve.affine (beValue signer.secretKey.1 • lib.curve.generator) = some (x, y) ∧
      signer.publicKey = bnToBytes x 32 := by
  obtain ⟨nonzero, rfl⟩ := setKey_eq_ok.mp h
  have point : beValue (clampBytes secretKey).1 • lib.curve.generator ≠ 0 :=
    lib.curve.smul_generator_ne_zero (Nat.pos_of_ne_zero nonzero) (value_clampBytes_lt secretKey)
  obtain ⟨x, y, found⟩ := CurveGroup.exists_affine point
  exact ⟨x, y, found, derivePubkeyInternal_eq found⟩

end Bip340Signer

end MidnightSdk.Crypto
