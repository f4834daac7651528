import Mathlib.Data.List.Chain
import Mathlib.Data.List.GetD

/-!
# Binary search

The loop over a sorted table with both ends included. It finds exactly what is in
the table.
-/

namespace MidnightSdk.BinarySearch

/-- `while (lo <= hi)` with the middle rounded down. -/
def search (compareAt : Int → Ordering) (lo hi : Int) : Option Int :=
  if lo ≤ hi then
    let mid := (lo + hi) / 2
    match compareAt mid with
    | .eq => some mid
    | .lt => search compareAt (mid + 1) hi
    | .gt => search compareAt lo (mid - 1)
  else none
termination_by (hi + 1 - lo).toNat

variable {compareAt : Int → Ordering}

theorem search_eq_some {lo hi i : Int} (h : search compareAt lo hi = some i) :
    lo ≤ i ∧ i ≤ hi ∧ compareAt i = .eq := by
  fun_induction search compareAt lo hi with
  | case1 lo hi hle mid heq =>
    obtain rfl := Option.some.inj h
    exact ⟨by omega, by omega, heq⟩
  | case2 lo hi hle mid hlt ih =>
    obtain ⟨hlow, hhigh, heq⟩ := ih h
    exact ⟨by omega, hhigh, heq⟩
  | case3 lo hi hle mid hgt ih =>
    obtain ⟨hlow, hhigh, heq⟩ := ih h
    exact ⟨hlow, by omega, heq⟩
  | case4 lo hi hle => cases h

/-- What is not found is not there: the half left out at each step holds only
what is on the wrong side. -/
theorem search_eq_none {lo hi : Int}
    (below : ∀ i j, lo ≤ i → i ≤ j → j ≤ hi → compareAt j = .lt → compareAt i = .lt)
    (above : ∀ i j, lo ≤ i → i ≤ j → j ≤ hi → compareAt i = .gt → compareAt j = .gt)
    (h : search compareAt lo hi = none) : ∀ i, lo ≤ i → i ≤ hi → compareAt i ≠ .eq := by
  fun_induction search compareAt lo hi with
  | case1 lo hi hle mid heq => cases h
  | case2 lo hi hle mid hlt ih =>
    intro i hlow hhigh
    by_cases hi : i ≤ mid
    · rw [below i mid hlow hi (by omega) hlt]
      decide
    · exact ih (fun i j hi => below i j (by omega)) (fun i j hi => above i j (by omega)) h i
        (by omega) hhigh
  | case3 lo hi hle mid hgt ih =>
    intro i hlow hhigh
    by_cases hi : mid ≤ i
    · rw [above mid i (by omega) hi hhigh hgt]
      decide
    · exact ih (fun i j hi hij hj => below i j hi hij (by omega))
        (fun i j hi hij hj => above i j hi hij (by omega)) h i hlow (by omega)
  | case4 lo hi hle =>
    intro i hlow hhigh
    omega

/-! ## Sorted tables -/

/-- Neighbours in order, checked one after the other. -/
def isSorted {α : Type} (less : α → α → Bool) : List α → Bool
  | a :: b :: rest => less a b && isSorted less (b :: rest)
  | _ => true

variable {α : Type} [LT α] [DecidableLT α]

theorem isChain_of_isSorted {xs : List α} (h : isSorted (fun a b => decide (a < b)) xs = true) :
    xs.IsChain (· < ·) := by
  fun_induction isSorted (fun a b => decide (a < b)) xs with
  | case1 a b rest ih =>
    rw [Bool.and_eq_true, decide_eq_true_eq] at h
    exact .cons_cons h.1 (ih h.2)
  | case2 xs hshort =>
    cases xs with
    | nil => exact .nil
    | cons a xs =>
      cases xs with
      | nil => exact .singleton a
      | cons b xs => exact absurd rfl (hshort a b xs)

variable [DecidableEq α]

/-- A three-way comparison. -/
def compareTo (a w : α) : Ordering := if a = w then .eq else if a < w then .lt else .gt

theorem compareTo_eq_eq {a w : α} : compareTo a w = .eq ↔ a = w := by
  unfold compareTo
  split_ifs <;> simp_all

theorem compareTo_eq_lt {a w : α} : compareTo a w = .lt ↔ a ≠ w ∧ a < w := by
  unfold compareTo
  split_ifs <;> simp_all

theorem compareTo_eq_gt {a w : α} : compareTo a w = .gt ↔ a ≠ w ∧ ¬ a < w := by
  unfold compareTo
  split_ifs <;> simp_all

variable [Trans (α := α) (· < ·) (· < ·) (· < ·)] [Std.Irrefl (α := α) (· < ·)]

/-- What a table holds is found, and only that. -/
theorem search_isSome_iff {xs : List α} (sorted : xs.IsChain (· < ·)) (w d : α) :
    (search (fun i => compareTo (xs.getD i.toNat d) w) 0 (xs.length - 1)).isSome = true ↔
      w ∈ xs := by
  have ordered (i j : Int) (hi : 0 ≤ i) (hij : i < j) (hj : j ≤ xs.length - 1) :
      xs.getD i.toNat d < xs.getD j.toNat d := by
    rw [List.getD_eq_getElem xs d (by omega), List.getD_eq_getElem xs d (by omega)]
    exact List.pairwise_iff_getElem.mp (List.isChain_iff_pairwise.mp sorted) _ _ _ _ (by omega)
  constructor
  · intro h
    obtain ⟨i, hi⟩ := Option.isSome_iff_exists.mp h
    obtain ⟨hlow, hhigh, heq⟩ := search_eq_some hi
    rw [compareTo_eq_eq, List.getD_eq_getElem xs d (by omega)] at heq
    exact heq ▸ List.getElem_mem _
  · intro hw
    obtain ⟨k, hk, rfl⟩ := List.mem_iff_getElem.mp hw
    by_contra hnone
    rw [Bool.not_eq_true, Option.isSome_eq_false_iff, Option.isNone_iff_eq_none] at hnone
    refine search_eq_none ?_ ?_ hnone k (by omega) (by omega) ?_
    · intro i j hi hij hj hlt
      rcases Int.lt_or_eq_of_le hij with hij | rfl
      · have less := Trans.trans (ordered i j hi hij hj) (compareTo_eq_lt.mp hlt).2
        exact compareTo_eq_lt.mpr ⟨fun h => Std.Irrefl.irrefl _ (h ▸ less), less⟩
      · exact hlt
    · intro i j hi hij hj hgt
      rcases Int.lt_or_eq_of_le hij with hij | rfl
      · obtain ⟨-, notless⟩ := compareTo_eq_gt.mp hgt
        have less := ordered i j hi hij hj
        exact compareTo_eq_gt.mpr ⟨fun h => notless (h ▸ less), fun h => notless (Trans.trans less h)⟩
      · exact hgt
    · rw [compareTo_eq_eq]
      simp [hk]

end MidnightSdk.BinarySearch
