import Mathlib.Tactic.Ring

/-!
# Numerals in order

Rows of digits, the highest first. With no zeros in front the longer of two rows
stands for more, and of two rows of one length the one later in the order of texts.
-/

namespace MidnightSdk.DigitOrder

variable {α : Type}

/-- The number a row of digits stands for. -/
def value (base : Nat) (digit : α → Nat) : List α → Nat
  | [] => 0
  | x :: xs => digit x * base ^ xs.length + value base digit xs

/-- Which characters are digits, and that their order is that of what they stand for. -/
structure Digits [LT α] (base : Nat) (digit : α → Nat) (shown : α → Prop) : Prop where
  lt_base : ∀ x, shown x → digit x < base
  lt_iff : ∀ x y, shown x → shown y → (x < y ↔ digit x < digit y)
  inj : ∀ x y, shown x → shown y → digit x = digit y → x = y

variable {base : Nat} {digit : α → Nat}

/-- Reading the digits one after the other. -/
theorem foldl_eq (xs : List α) (n : Nat) :
    xs.foldl (fun n x => base * n + digit x) n = n * base ^ xs.length + value base digit xs := by
  induction xs generalizing n with
  | nil => simp [value]
  | cons x xs ih =>
    rw [List.foldl_cons, ih, value, List.length_cons, Nat.pow_succ]
    ring

theorem value_dropWhile (xs : List α) :
    value base digit (xs.dropWhile fun x => digit x == 0) = value base digit xs := by
  induction xs with
  | nil => rfl
  | cons x xs ih =>
    by_cases hzero : digit x = 0
    · rw [List.dropWhile_cons_of_pos (by simp [hzero]), ih, value, hzero, Nat.zero_mul, Nat.zero_add]
    · rw [List.dropWhile_cons_of_neg (by simp [hzero])]

section
variable [LT α] {shown : α → Prop} (digits : Digits base digit shown) {xs ys : List α}
include digits

theorem value_lt (h : ∀ x ∈ xs, shown x) : value base digit xs < base ^ xs.length := by
  induction xs with
  | nil => exact Nat.one_pos
  | cons x xs ih =>
    obtain ⟨here, later⟩ := List.forall_mem_cons.mp h
    have rest := ih later
    have first := digits.lt_base x here
    calc value base digit (x :: xs) < digit x * base ^ xs.length + base ^ xs.length :=
          Nat.add_lt_add_left rest _
      _ = (digit x + 1) * base ^ xs.length := (Nat.succ_mul _ _).symm
      _ ≤ base * base ^ xs.length := Nat.mul_le_mul_right _ first
      _ = base ^ (x :: xs).length := by rw [List.length_cons, Nat.pow_succ, Nat.mul_comm]

/-- A longer row without a zero in front stands for more. -/
theorem value_lt_of_shorter {y : α} (hx : ∀ x ∈ xs, shown x) (hy : shown y) (hne : digit y ≠ 0)
    (h : xs.length ≤ ys.length) : value base digit xs < value base digit (y :: ys) := by
  have positive : 0 < base := Nat.zero_lt_of_lt (digits.lt_base y hy)
  calc value base digit xs < base ^ xs.length := value_lt digits hx
    _ ≤ base ^ ys.length := Nat.pow_le_pow_right positive h
    _ ≤ digit y * base ^ ys.length := Nat.le_mul_of_pos_left _ (Nat.pos_of_ne_zero hne)
    _ ≤ value base digit (y :: ys) := Nat.le_add_right _ _

/-- Where the first digits differ, the rest does not count. -/
theorem value_lt_of_digit_lt {x y : α} (hx : ∀ z ∈ xs, shown z) (hlen : xs.length = ys.length)
    (h : digit x < digit y) : value base digit (x :: xs) < value base digit (y :: ys) := by
  calc value base digit (x :: xs) < digit x * base ^ xs.length + base ^ xs.length :=
        Nat.add_lt_add_left (value_lt digits hx) _
    _ = (digit x + 1) * base ^ ys.length := by rw [Nat.succ_mul, hlen]
    _ ≤ digit y * base ^ ys.length := Nat.mul_le_mul_right _ h
    _ ≤ value base digit (y :: ys) := Nat.le_add_right _ _

/-- **Rows of one length are ordered as the numbers they stand for.** -/
theorem lt_iff_value_lt (hx : ∀ x ∈ xs, shown x) (hy : ∀ y ∈ ys, shown y)
    (hlen : xs.length = ys.length) : xs < ys ↔ value base digit xs < value base digit ys := by
  induction xs generalizing ys with
  | nil =>
    obtain rfl := List.length_eq_zero_iff.mp hlen.symm
    simp
  | cons x xs ih =>
    cases ys with
    | nil => cases hlen
    | cons y ys =>
      obtain ⟨hxhere, hxs⟩ := List.forall_mem_cons.mp hx
      obtain ⟨hyhere, hys⟩ := List.forall_mem_cons.mp hy
      have rest : xs.length = ys.length := Nat.succ.inj hlen
      rw [List.cons_lt_cons_iff, digits.lt_iff x y hxhere hyhere, ih hxs hys rest]
      rcases Nat.lt_trichotomy (digit x) (digit y) with hlt | heq | hgt
      · exact iff_of_true (.inl hlt) (value_lt_of_digit_lt digits hxs rest hlt)
      · obtain rfl := digits.inj x y hxhere hyhere heq
        rw [value, value, rest, Nat.add_lt_add_iff_left]
        exact ⟨fun h => h.elim (fun hlt => absurd hlt (Nat.lt_irrefl _)) (·.2), fun h => .inr ⟨rfl, h⟩⟩
      · have more := value_lt_of_digit_lt digits hys rest.symm hgt
        constructor
        · rintro (h | ⟨rfl, -⟩) <;> omega
        · omega

theorem le_iff_value_le (hx : ∀ x ∈ xs, shown x) (hy : ∀ y ∈ ys, shown y)
    (hlen : xs.length = ys.length) : xs ≤ ys ↔ value base digit xs ≤ value base digit ys := by
  rw [← Nat.not_lt, ← lt_iff_value_lt digits hy hx hlen.symm]
  rfl

/-- Without zeros in front the length decides, and then the order of texts. -/
theorem value_le_iff {y : α} (hx : ∀ x ∈ xs, shown x) (hy : ∀ z ∈ y :: ys, shown z)
    (hlead : ∀ x ∈ xs.head?, digit x ≠ 0) (hne : digit y ≠ 0) :
    value base digit xs ≤ value base digit (y :: ys) ↔
      xs.length < (y :: ys).length ∨ xs.length = (y :: ys).length ∧ xs ≤ y :: ys := by
  rcases Nat.lt_trichotomy xs.length (y :: ys).length with hlt | heq | hgt
  · have less := value_lt_of_shorter digits hx (hy y List.mem_cons_self) hne (Nat.lt_succ_iff.mp hlt)
    exact iff_of_true (Nat.le_of_lt less) (.inl hlt)
  · rw [le_iff_value_le digits hx hy heq]
    exact ⟨fun h => .inr ⟨heq, h⟩, fun h => h.elim (fun hlt => absurd heq (by omega)) (·.2)⟩
  · cases xs with
    | nil => exact absurd hgt (Nat.not_lt_zero _)
    | cons x xs =>
      have more := value_lt_of_shorter digits hy (hx x List.mem_cons_self) (hlead x rfl)
        (Nat.lt_succ_iff.mp hgt)
      omega

end

end MidnightSdk.DigitOrder
