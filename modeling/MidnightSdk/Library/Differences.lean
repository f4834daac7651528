import Mathlib.Data.Set.Basic
import Mathlib.Order.Basic
import Mathlib.Tactic.Tauto

/-!
# Following a set by its differences

A set changes from one time to the next, and a follower is told what was added and what
was removed. The follower stays with the set; if the set is a copy, renewed only when a
stamp changes, both are up to date where the stamp tells different views apart.
-/

namespace MidnightSdk.Differences

variable {α κ : Type*}

/-- A set after some additions and removals. -/
def change (s added removed : Set α) : Set α := (s ∪ added) \ removed

theorem change_difference (before after : Set α) :
    change before (after \ before) (before \ after) = after := by
  ext x
  simp only [change, Set.mem_sdiff, Set.mem_union]
  tauto

section Follower

variable {known : ℕ → Set α}

/-- A follower told the differences holds the set. -/
theorem follower_eq {held : ℕ → Set α} (start : held 0 = known 0)
    (next : ∀ n, held (n + 1) =
      change (held n) (known (n + 1) \ known n) (known n \ known (n + 1))) (n : ℕ) :
    held n = known n := by
  induction n with
  | zero => exact start
  | succ n ih => rw [next, ih, change_difference]

/-- Between two additions there is a removal. -/
theorem removed_between {x : α} {i j : ℕ} (hij : i < j) (hi : x ∈ known (i + 1) \ known i)
    (hj : x ∈ known (j + 1) \ known j) : ∃ k, i < k ∧ k < j ∧ x ∈ known k \ known (k + 1) := by
  by_contra none
  have stays : ∀ d, i + 1 + d ≤ j → x ∈ known (i + 1 + d) := by
    intro d
    induction d with
    | zero => exact fun _ => hi.1
    | succ d ih =>
      intro hd
      by_contra gone
      exact none ⟨i + 1 + d, by omega, by omega, ih (by omega), gone⟩
  have there := stays (j - (i + 1)) (by omega)
  rw [Nat.add_sub_cancel' hij] at there
  exact hj.2 there

end Follower

/-- A copy of what is to be seen, renewed when the stamp changes. -/
structure Renewed (view : ℕ → Set α) (stamp : ℕ → κ) (known : ℕ → Set α) : Prop where
  start : known 0 = view 0
  same : ∀ n, stamp (n + 1) = stamp n → known (n + 1) = known n
  changed : ∀ n, stamp (n + 1) ≠ stamp n → known (n + 1) = view (n + 1)

/-- The copy is always up to date exactly when no view passes with its stamp unchanged. -/
theorem Renewed.upToDate_iff {view known : ℕ → Set α} {stamp : ℕ → κ}
    (h : Renewed view stamp known) :
    (∀ n, known n = view n) ↔ ∀ n, stamp (n + 1) = stamp n → view (n + 1) = view n := by
  constructor
  · intro upToDate n hstamp
    rw [← upToDate, ← upToDate, h.same n hstamp]
  · intro told n
    induction n with
    | zero => exact h.start
    | succ n ih =>
      by_cases hstamp : stamp (n + 1) = stamp n
      · rw [h.same n hstamp, ih, told n hstamp]
      · exact h.changed n hstamp

end MidnightSdk.Differences
