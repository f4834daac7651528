import MidnightSdk.Codec.ScaleEncoder
import MidnightSdk.Library.MortalEra

/-!
# The era of an extrinsic

The two bytes the encoder writes are the packed era of the current block: the loop
stops at the smallest period that covers the request, and none of the encoder's
bounds on the logarithm and on the place is ever reached.
-/

namespace MidnightSdk.Codec.ScaleEncoder

open LittleEndian MortalEra

/-! ## The period -/

theorem toNat_max (a b : UInt64) : (max a b).toNat = max a.toNat b.toNat := by
  change (if a ≤ b then b else a).toNat = _
  split
  · rename_i h
    exact (Nat.max_eq_right (UInt64.le_iff_toNat_le.mp h)).symm
  · rename_i h
    exact (Nat.max_eq_left (Nat.le_of_not_le fun le => h (UInt64.le_iff_toNat_le.mpr le))).symm

theorem toNat_min (a b : UInt64) : (min a b).toNat = min a.toNat b.toNat := by
  change (if a ≤ b then a else b).toNat = _
  split
  · rename_i h
    exact (Nat.min_eq_left (UInt64.le_iff_toNat_le.mp h)).symm
  · rename_i h
    exact (Nat.min_eq_right (Nat.le_of_not_le fun le => h (UInt64.le_iff_toNat_le.mpr le))).symm

/-- The loop passes only powers of two that do not cover the clamped period. -/
theorem doubleUpTo_le {clamped : UInt64} {m : Nat} (hm : clamped.toNat ≤ 2 ^ m) (fuel : Nat)
    {k : Nat} {p : UInt64} (hp : p.toNat = 2 ^ k) (hk : k ≤ m) (hsum : k + fuel < 64) :
    (doubleUpTo clamped fuel p).toNat ≤ 2 ^ m := by
  induction fuel generalizing k p with
  | zero =>
    rw [doubleUpTo, hp]
    exact Nat.pow_le_pow_right (by decide) hk
  | succ fuel ih =>
    rw [doubleUpTo]
    by_cases hlt : p < clamped
    · have before : 2 ^ k < 2 ^ m := by
        rw [← hp]
        exact Nat.lt_of_lt_of_le (UInt64.lt_iff_toNat_lt.mp hlt) hm
      have doubled : (p <<< 1).toNat = 2 ^ (k + 1) := by
        have room : 2 ^ (k + 1) < 2 ^ 64 := Nat.pow_lt_pow_right (by decide) (by omega)
        rw [UInt64.toNat_shiftLeft, hp, Nat.shiftLeft_eq]
        exact Nat.mod_eq_of_lt room
      rw [if_pos hlt]
      exact ih doubled ((Nat.pow_lt_pow_iff_right (by decide)).mp before) (by omega)
    · rw [if_neg hlt, hp]
      exact Nat.pow_le_pow_right (by decide) hk

def clampedPeriod (period : UInt64) : UInt64 := max 4 (min 65536 period)

/-- The period is the smallest power of two that covers the clamped request. -/
theorem period_spec (period : UInt64) : ∃ k, 2 ≤ k ∧ k ≤ 16 ∧
    (doubleUpTo (clampedPeriod period) 14 4).toNat = 2 ^ k ∧
    IsLeast {q | (∃ j, q = 2 ^ j) ∧ max 4 (min 65536 period.toNat) ≤ q} (2 ^ k) := by
  have clamped : (clampedPeriod period).toNat = max 4 (min 65536 period.toNat) := by
    rw [clampedPeriod, toNat_max, toNat_min]
    rfl
  obtain ⟨k, hlow, hhigh, hp, hcovers⟩ :=
    doubleUpTo_spec (clamped_le period) 14 2 4 rfl (Nat.le_refl 2) rfl
  refine ⟨k, hlow, hhigh, hp, ⟨⟨k, rfl⟩, ?_⟩, ?_⟩
  · rw [← clamped, ← hp]
    exact hcovers
  · rintro q ⟨⟨j, rfl⟩, hq⟩
    have four : 2 ^ 2 ≤ 2 ^ j := Nat.le_trans (Nat.le_max_left ..) hq
    rw [← hp]
    apply doubleUpTo_le (clamped ▸ hq) 14 rfl ((Nat.pow_le_pow_iff_right (by decide)).mp four)
    decide

/-! ## The place -/

theorem toNat_quantizeFactor {p : UInt64} {k : Nat} (hp : p.toNat = 2 ^ k) :
    (max 1 (p / 4096)).toNat = quantize (2 ^ k) := by
  rw [toNat_max, UInt64.toNat_div, hp, quantize, Nat.shiftRight_eq_div_pow]
  rfl

/-- What is written is the packed era: no bound of the encoder takes effect. -/
theorem toNat_eraMortal (currentBlock period : UInt64) {k : Nat} (hlow : 2 ≤ k) (hhigh : k ≤ 16)
    (hp : (doubleUpTo (clampedPeriod period) 14 4).toNat = 2 ^ k) :
    (eraMortal currentBlock period).toNat = pack k currentBlock.toNat := by
  have place := place_lt k currentBlock.toNat
  have nibbles : ∀ j < 17, (min 15 (UInt8.ofNat (j - 1))).toUInt16.toNat = j - 1 := by decide
  unfold eraMortal
  dsimp only
  change (doubleUpTo (max 4 (min 65536 period)) 14 4).toNat = 2 ^ k at hp
  generalize doubleUpTo (max 4 (min 65536 period)) 14 4 = p at hp ⊢
  have phase : (currentBlock % p / max 1 (p / 4096)).toNat =
      currentBlock.toNat % 2 ^ k / quantize (2 ^ k) := by
    rw [UInt64.toNat_div, UInt64.toNat_mod, toNat_quantizeFactor hp, hp]
  have twelve : (min (currentBlock % p / max 1 (p / 4096)) 0x0FFF).toUInt16.toNat =
      currentBlock.toNat % 2 ^ k / quantize (2 ^ k) := by
    rw [UInt64.toNat_toUInt16, toNat_min, phase]
    change min _ 4095 % 2 ^ 16 = _
    omega
  have above : (currentBlock.toNat % 2 ^ k / quantize (2 ^ k)) <<< 4 < 2 ^ 16 := by
    rw [Nat.shiftLeft_eq]
    omega
  have four : UInt16.toNat 4 % 16 = 4 := rfl
  rw [hp, periodLog2_two_pow, UInt16.toNat_or, UInt16.toNat_shiftLeft, nibbles k (by omega), four,
    twelve, Nat.mod_eq_of_lt above, or_shiftLeft (by omega)]
  rfl

/-- **What a mortal era reads as.** The two bytes stand for the smallest power of
two that covers the clamped request and for the block's place in it, rounded down;
the block lies in that era, and the first byte is not the one of an immortal era. -/
theorem mortalEra_reads (e : ScaleEncoder) (currentBlock period : UInt64) :
    ∃ first second : UInt8,
      (e.encodeEraMortal currentBlock period).buffer = e.buffer ++ [first, second] ∧ first ≠ 0 ∧
      ∃ era, read (first.toNat + 256 * second.toNat) = era ∧
        IsLeast {q | (∃ k, q = 2 ^ k) ∧ max 4 (min 65536 period.toNat) ≤ q} era.period ∧
        era.phase = currentBlock.toNat % era.period / quantize era.period * quantize era.period ∧
        era.phase < era.period ∧ era.birth currentBlock.toNat ≤ currentBlock.toNat ∧
        currentBlock.toNat < era.death currentBlock.toNat := by
  obtain ⟨k, hlow, hhigh, hp, least⟩ := period_spec period
  have packed := toNat_eraMortal currentBlock period hlow hhigh hp
  have small : (eraMortal currentBlock period).toNat < 65536 := UInt16.toNat_lt _
  refine ⟨UInt8.ofNat (eraMortal currentBlock period).toNat,
    UInt8.ofNat ((eraMortal currentBlock period).toNat / 256), ?_, ?_, around (2 ^ k)
      currentBlock.toNat, ?_, least, rfl, around_contains (Nat.two_pow_pos k) _⟩
  · rw [encodeEraMortal, encodeU16Le_buffer]
    rfl
  · intro hzero
    apply eraMortal_low currentBlock period
    have low := congrArg UInt8.toNat hzero
    rw [UInt8.toNat_ofNat'] at low
    change _ % 256 = 0 at low
    omega
  · have bytes : (UInt8.ofNat (eraMortal currentBlock period).toNat).toNat +
        256 * (UInt8.ofNat ((eraMortal currentBlock period).toNat / 256)).toNat =
          (eraMortal currentBlock period).toNat := by
      rw [UInt8.toNat_ofNat', UInt8.toNat_ofNat']
      omega
    rw [bytes, packed]
    exact read_pack (by omega) hhigh _

/-- Block 1000 with a period of 64, as the code's own test has it. -/
example : read (eraMortal 1000 64).toNat = ⟨64, 40⟩ := by decide +kernel

end MidnightSdk.Codec.ScaleEncoder
