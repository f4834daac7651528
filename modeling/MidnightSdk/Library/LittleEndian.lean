import Mathlib.Algebra.Order.Group.Nat
import Mathlib.Tactic.Ring

/-!
# Little-endian bytes

A number as a fixed count of bytes, least significant first, and back, and the
bit operations on machine words that programs write this with.
-/

namespace MidnightSdk.LittleEndian

/-- The first `k` little-endian bytes of a number. -/
def leBytes : Nat → Nat → List UInt8
  | 0, _ => []
  | k + 1, n => UInt8.ofNat n :: leBytes k (n / 256)

def leValue : List UInt8 → Nat
  | [] => 0
  | b :: bs => b.toNat + 256 * leValue bs

@[simp] theorem leBytes_length (k n : Nat) : (leBytes k n).length = k := by
  induction k generalizing n with
  | zero => rfl
  | succ k ih => rw [leBytes, List.length_cons, ih]

theorem leValue_lt (bs : List UInt8) : leValue bs < 256 ^ bs.length := by
  induction bs with
  | nil => simp [leValue]
  | cons b bs ih =>
    have := b.toNat_lt
    rw [leValue, List.length_cons, Nat.pow_succ]
    omega

/-- Reading back keeps the bytes that were written. -/
theorem leValue_leBytes (k n : Nat) : leValue (leBytes k n) = n % 256 ^ k := by
  induction k generalizing n with
  | zero => simp [leBytes, leValue, Nat.mod_one]
  | succ k ih =>
    have split : n % 256 ^ (k + 1) = n % 256 + 256 * (n / 256 % 256 ^ k) := by
      rw [Nat.pow_succ', Nat.mod_mul]
    rw [split, leBytes, leValue, ih, UInt8.toNat_ofNat']

theorem leValue_leBytes_of_lt {k n : Nat} (h : n < 256 ^ k) : leValue (leBytes k n) = n := by
  rw [leValue_leBytes, Nat.mod_eq_of_lt h]

theorem leBytes_leValue (bs : List UInt8) : leBytes bs.length (leValue bs) = bs := by
  induction bs with
  | nil => rfl
  | cons b bs ih =>
    have hb := b.toNat_lt
    have low : UInt8.ofNat (b.toNat + 256 * leValue bs) = b := by
      apply UInt8.toNat_inj.mp
      rw [UInt8.toNat_ofNat']
      omega
    have high : (b.toNat + 256 * leValue bs) / 256 = leValue bs := by omega
    rw [List.length_cons, leBytes, leValue, low, high, ih]

theorem leValue_append (as bs : List UInt8) :
    leValue (as ++ bs) = leValue as + 256 ^ as.length * leValue bs := by
  induction as with
  | nil => simp [leValue]
  | cons a as ih =>
    rw [List.cons_append, leValue, leValue, ih, List.length_cons, Nat.pow_succ']
    ring

theorem leValue_concat (bs : List UInt8) (b : UInt8) :
    leValue (bs ++ [b]) = leValue bs + 256 ^ bs.length * b.toNat := by
  rw [leValue_append, leValue, leValue, Nat.mul_zero, Nat.add_zero]

/-! ## Words -/

/-- A word holds the value of the first eight bytes. -/
theorem ofNat_leValue_take (bs : List UInt8) :
    UInt64.ofNat (leValue (bs.take 8)) = UInt64.ofNat (leValue bs) := by
  by_cases h : bs.length ≤ 8
  · rw [List.take_of_length_le h]
  · have split := leValue_append (bs.take 8) (bs.drop 8)
    rw [List.take_append_drop, List.length_take_of_le (by omega)] at split
    apply UInt64.toNat_inj.mp
    rw [UInt64.toNat_ofNat', UInt64.toNat_ofNat', split]
    omega

theorem pow_256 (i : Nat) : 256 ^ i = 2 ^ (8 * i) := by rw [Nat.pow_mul]

/-- Or-ing in a byte above the bits in use adds it. -/
theorem or_shiftLeft {a i : Nat} (h : a < 2 ^ i) (b : Nat) : a ||| b <<< i = a + 2 ^ i * b := by
  rw [Nat.or_comm, ← Nat.shiftLeft_add_eq_or_of_lt h, Nat.shiftLeft_eq]
  ring

/-- The bytes a loop shifts out of a word. -/
def shiftedBytes (k : Nat) (value : UInt64) : List UInt8 :=
  (List.range k).map fun i => (value >>> UInt64.ofNat (i * 8) &&& 0xFF).toUInt8

theorem shiftedBytes_eq {k : Nat} (hk : k ≤ 8) (value : UInt64) :
    shiftedBytes k value = leBytes k value.toNat := by
  have bytes (k n : Nat) : leBytes k n = (List.range k).map fun i => UInt8.ofNat (n / 256 ^ i) := by
    induction k generalizing n with
    | zero => rfl
    | succ k ih =>
      rw [leBytes, List.range_succ_eq_map, List.map_cons, List.map_map, ih, Nat.pow_zero, Nat.div_one]
      congr 1
      apply List.map_congr_left
      intro i _
      rw [Function.comp_apply, Nat.pow_succ', Nat.div_div_eq_div_mul]
  rw [bytes]
  apply List.map_congr_left
  intro i hi
  have hi8 : i < 8 := Nat.lt_of_lt_of_le (List.mem_range.mp hi) hk
  have shift : (UInt64.ofNat (i * 8)).toNat % 64 = 8 * i := by
    rw [UInt64.toNat_ofNat']
    omega
  apply UInt8.toNat_inj.mp
  rw [UInt64.toNat_toUInt8, UInt64.toNat_and, UInt64.toNat_shiftRight, shift, UInt8.toNat_ofNat',
    Nat.shiftRight_eq_div_pow, ← pow_256]
  rw [show UInt64.toNat 0xFF = 2 ^ 8 - 1 from rfl, Nat.and_two_pow_sub_one_eq_mod, Nat.mod_mod]

theorem shiftedBytes_inj {k : Nat} (hk : k ≤ 8) {v w : UInt64} (hv : v.toNat < 256 ^ k)
    (hw : w.toNat < 256 ^ k) : shiftedBytes k v = shiftedBytes k w ↔ v = w := by
  constructor
  · intro h
    rw [shiftedBytes_eq hk, shiftedBytes_eq hk] at h
    have values := congrArg leValue h
    rw [leValue_leBytes_of_lt hv, leValue_leBytes_of_lt hw] at values
    exact UInt64.toNat_inj.mp values
  · rintro rfl
    rfl

@[simp] theorem shiftedBytes_length (k : Nat) (value : UInt64) :
    (shiftedBytes k value).length = k := by
  rw [shiftedBytes, List.length_map, List.length_range]

end MidnightSdk.LittleEndian
