import Mathlib.Algebra.Order.Group.Nat

/-!
# Regrouping bits

A list of numbers of a fixed width spells a string of bits, the highest bit of
each number first. Two lists that spell one string up to a piece shorter than
the width are one list.
-/

namespace MidnightSdk.Regroup

/-- The low bits of a number, the highest of them first. -/
def lowBits : Nat → Nat → List Bool
  | 0, _ => []
  | n + 1, x => x.testBit n :: lowBits n x

/-- The bits of numbers of one width. -/
def spelled (width : Nat) (xs : List Nat) : List Bool := xs.flatMap (lowBits width)

@[simp] theorem length_lowBits (n x : Nat) : (lowBits n x).length = n := by
  induction n with
  | zero => rfl
  | succ n ih => rw [lowBits, List.length_cons, ih]

theorem lowBits_add (m n x : Nat) : lowBits (m + n) x = lowBits m (x >>> n) ++ lowBits n x := by
  induction m with
  | zero => rw [Nat.zero_add, lowBits, List.nil_append]
  | succ m ih =>
    rw [Nat.succ_add, lowBits, lowBits, ih, Nat.testBit_shiftRight, Nat.add_comm n m,
      List.cons_append]

theorem lowBits_congr {n x y : Nat} (h : ∀ i < n, x.testBit i = y.testBit i) :
    lowBits n x = lowBits n y := by
  induction n with
  | zero => rfl
  | succ n ih =>
    rw [lowBits, lowBits, h n (Nat.lt_succ_self n), ih fun i hi => h i (Nat.lt_succ_of_lt hi)]

theorem testBit_of_lowBits {n x y : Nat} (h : lowBits n x = lowBits n y) :
    ∀ i < n, x.testBit i = y.testBit i := by
  induction n with
  | zero => exact nofun
  | succ n ih =>
    obtain ⟨hhigh, hlow⟩ := List.cons.inj h
    intro i hi
    rcases Nat.lt_succ_iff_lt_or_eq.mp hi with hi | rfl
    · exact ih hlow i hi
    · exact hhigh

theorem lowBits_inj {n x y : Nat} (hx : x < 2 ^ n) (hy : y < 2 ^ n) (h : lowBits n x = lowBits n y) :
    x = y := by
  apply Nat.eq_of_testBit_eq
  intro i
  by_cases hi : i < n
  · exact testBit_of_lowBits h i hi
  · have big := Nat.pow_le_pow_right (n := 2) (by decide) (Nat.le_of_not_lt hi)
    rw [Nat.testBit_lt_two_pow (Nat.lt_of_lt_of_le hx big),
      Nat.testBit_lt_two_pow (Nat.lt_of_lt_of_le hy big)]

/-- The bits are zeros exactly when the number they make up is zero. -/
theorem lowBits_eq_zeros {n x : Nat} : lowBits n x = List.replicate n false ↔ x % 2 ^ n = 0 := by
  have zeros : lowBits n 0 = List.replicate n false := by
    induction n with
    | zero => rfl
    | succ n ih => rw [lowBits, ih, Nat.zero_testBit, List.replicate_succ]
  have own : lowBits n x = lowBits n (x % 2 ^ n) := by
    apply lowBits_congr
    intro i hi
    simp [Nat.testBit_mod_two_pow, hi]
  rw [← zeros, own]
  constructor
  · exact lowBits_inj (Nat.mod_lt _ (Nat.two_pow_pos n)) (Nat.two_pow_pos n)
  · intro h
    rw [h]

@[simp] theorem spelled_nil (width : Nat) : spelled width [] = [] := rfl

@[simp] theorem spelled_cons (width x : Nat) (xs : List Nat) :
    spelled width (x :: xs) = lowBits width x ++ spelled width xs := rfl

@[simp] theorem spelled_append (width : Nat) (xs ys : List Nat) :
    spelled width (xs ++ ys) = spelled width xs ++ spelled width ys := List.flatMap_append

@[simp] theorem length_spelled (width : Nat) (xs : List Nat) :
    (spelled width xs).length = width * xs.length := by
  induction xs with
  | nil => rfl
  | cons x xs ih =>
    rw [spelled_cons, List.length_append, length_lowBits, ih, List.length_cons, Nat.mul_succ,
      Nat.add_comm]

/-- Numbers and a short rest behind them can be read off their bits. -/
theorem spelled_unique {width : Nat} {xs ys : List Nat} {r r' : List Bool}
    (hx : ∀ x ∈ xs, x < 2 ^ width) (hy : ∀ y ∈ ys, y < 2 ^ width) (hr : r.length < width)
    (hr' : r'.length < width) (h : spelled width xs ++ r = spelled width ys ++ r') :
    xs = ys ∧ r = r' := by
  induction xs generalizing ys with
  | nil =>
    cases ys with
    | nil => exact ⟨rfl, h⟩
    | cons y ys =>
      have length := congrArg List.length h
      simp only [spelled_nil, spelled_cons, List.nil_append, List.length_append,
        length_lowBits] at length
      omega
  | cons x xs ih =>
    cases ys with
    | nil =>
      have length := congrArg List.length h
      simp only [spelled_nil, spelled_cons, List.nil_append, List.length_append,
        length_lowBits] at length
      omega
    | cons y ys =>
      rw [spelled_cons, spelled_cons, List.append_assoc, List.append_assoc] at h
      obtain ⟨hfirst, hrest⟩ := List.append_inj h (by simp)
      have same := lowBits_inj (hx x (List.mem_cons_self ..)) (hy y (List.mem_cons_self ..)) hfirst
      obtain ⟨tails, rests⟩ := ih (fun z hz => hx z (List.mem_cons_of_mem _ hz))
        (fun z hz => hy z (List.mem_cons_of_mem _ hz)) hrest
      exact ⟨by rw [same, tails], rests⟩

/-- A rest that fits the last number is its low bits. -/
theorem rest_eq_lowBits {width x : Nat} {xs : List Nat} {front rest : List Bool}
    (h : spelled width (xs ++ [x]) = front ++ rest) (hrest : rest.length ≤ width) :
    rest = lowBits rest.length x := by
  have split : lowBits width x =
      lowBits (width - rest.length) (x >>> rest.length) ++ lowBits rest.length x := by
    rw [← lowBits_add, Nat.sub_add_cancel hrest]
  rw [spelled_append, spelled_cons, spelled_nil, List.append_nil, split, ← List.append_assoc] at h
  exact (List.append_inj_right' h.symm (length_lowBits _ _).symm)

end MidnightSdk.Regroup
