import Mathlib.Algebra.Group.Nat.Defs
import Mathlib.Data.List.Range

/-!
# Counting up to an inclusive bound

`for (h = first; h <= last; ++h)` in words of 32 bits, with a body that may leave the
loop. Every word is at most the largest one, so a loop up to that one wraps round and
goes on until its body leaves.
-/

namespace MidnightSdk.CountedLoop

def maxWord : UInt32 := 0xFFFFFFFF

/-- Whether the body leaves the loop in the i-th round, at a word. -/
abbrev Verdicts : Type := Nat → UInt32 → Bool

/-- The verdicts from the second round on. -/
def Verdicts.next (leaves : Verdicts) : Verdicts := fun i => leaves (i + 1)

/-- The words visited, while the loop has ended within so many rounds. -/
def visited (last : UInt32) : Nat → Verdicts → UInt32 → Option (List UInt32)
  | 0, _, _ => none
  | rounds + 1, leaves, h =>
    if h ≤ last then
      if leaves 0 h then some [h] else (visited last rounds leaves.next (h + 1)).map (h :: ·)
    else some []

/-- The numbers from the first to the last. -/
def numbers (first last : Nat) : List Nat := List.range' first (last + 1 - first)

/-- Numbers in order, up to the first that leaves and including it. -/
def upTo : Verdicts → List Nat → List Nat
  | _, [] => []
  | leaves, h :: rest =>
    if leaves 0 (UInt32.ofNat h) then [h] else h :: upTo leaves.next rest

theorem numbers_of_le {first last : Nat} (h : first ≤ last) :
    numbers first last = first :: numbers (first + 1) last := by
  have count : last + 1 - first = (last + 1 - (first + 1)) + 1 := by omega
  rw [numbers, count, List.range'_succ, numbers]

theorem numbers_of_gt {first last : Nat} (h : last < first) : numbers first last = [] := by
  have count : last + 1 - first = 0 := by omega
  rw [numbers, count, List.range'_zero]

theorem length_upTo_le (leaves : Verdicts) (hs : List Nat) :
    (upTo leaves hs).length ≤ hs.length := by
  induction hs generalizing leaves with
  | nil => exact Nat.le_refl _
  | cons h rest ih =>
    rw [upTo]
    split
    · exact Nat.succ_le_succ (Nat.zero_le _)
    · exact Nat.succ_le_succ (ih leaves.next)

/-- The loop ends, and visits each number of its range once and in increasing order, as
far as the body does not leave it. -/
def Visits (leaves : Verdicts) (first last : UInt32) : Prop :=
  ∃ rounds words, visited last rounds leaves first = some words ∧
    words.map (·.toNat) = upTo leaves (numbers first.toNat last.toNat)

/-- The body leaves the loop somewhere in the range, below a bound. -/
def LeavesBelow (bound : Nat) (leaves : Verdicts) (first last : Nat) : Prop :=
  ∃ i, first + i ≤ last ∧ first + i < bound ∧ leaves i (UInt32.ofNat (first + i)) = true

theorem leavesBelow_of_next {bound : Nat} {leaves : Verdicts} {first last : Nat}
    (h : LeavesBelow bound leaves.next (first + 1) last) : LeavesBelow bound leaves first last := by
  obtain ⟨i, inside, below, hleaves⟩ := h
  have place : first + (i + 1) = first + 1 + i := by omega
  refine ⟨i + 1, by omega, by omega, ?_⟩
  rw [place]
  exact hleaves

theorem LeavesBelow.next {bound : Nat} {leaves : Verdicts} {first last : Nat}
    (h : LeavesBelow bound leaves first last) (here : leaves 0 (UInt32.ofNat first) = false) :
    LeavesBelow bound leaves.next (first + 1) last := by
  obtain ⟨i, inside, below, hleaves⟩ := h
  cases i with
  | zero =>
    rw [Nat.add_zero, here] at hleaves
    cases hleaves
  | succ i =>
    have place : first + (i + 1) = first + 1 + i := by omega
    rw [place] at hleaves
    exact ⟨i, by omega, by omega, hleaves⟩

theorem toNat_succ {h : UInt32} (hne : h ≠ maxWord) : (h + 1).toNat = h.toNat + 1 := by
  have small : h.toNat ≠ 4294967295 := fun heq => hne (UInt32.toNat_inj.mp heq)
  have range := h.toNat_lt
  rw [UInt32.toNat_add]
  change (h.toNat + 1) % 2 ^ 32 = _
  omega

/-- A loop up to the largest word ends in its last round, and there its body leaves. -/
theorem leaves_of_visited {leaves : Verdicts} {rounds : Nat} {h : UInt32} {words : List UInt32}
    (hw : visited maxWord rounds leaves h = some words) :
    ∃ i < words.length, leaves i (h + UInt32.ofNat i) = true := by
  induction rounds generalizing leaves h words with
  | zero => cases hw
  | succ rounds ih =>
    have bounded : h ≤ maxWord := UInt32.le_iff_toNat_le.mpr (Nat.le_of_lt_succ h.toNat_lt)
    rw [visited, if_pos bounded] at hw
    split at hw
    · rename_i hleaves
      cases hw
      exact ⟨0, Nat.one_pos, (UInt32.add_zero h).symm ▸ hleaves⟩
    · obtain ⟨rest, hrest, rfl⟩ := Option.map_eq_some_iff.mp hw
      obtain ⟨i, inside, hleaves⟩ := ih hrest
      refine ⟨i + 1, Nat.succ_lt_succ inside, ?_⟩
      rw [UInt32.ofNat_add, UInt32.add_comm (UInt32.ofNat i), ← UInt32.add_assoc]
      exact hleaves

/-- **An inclusive bound is safe below the largest word**; up to the largest word the
body has to leave the loop. -/
theorem visits_iff (leaves : Verdicts) (first last : UInt32) :
    Visits leaves first last ↔
      last ≠ maxWord ∨ LeavesBelow (2 ^ 32) leaves first.toNat last.toNat := by
  constructor
  · rintro ⟨rounds, words, hwords, hnumbers⟩
    by_cases hlast : last = maxWord
    · subst hlast
      obtain ⟨i, inside, hleaves⟩ := leaves_of_visited hwords
      -- within the range nothing has wrapped yet
      have count : words.length ≤ maxWord.toNat + 1 - first.toNat := by
        rw [← List.length_map (·.toNat), hnumbers]
        refine Nat.le_trans (length_upTo_le leaves _) ?_
        rw [numbers, List.length_range']
      have top : maxWord.toNat = 4294967295 := rfl
      have range := first.toNat_lt
      refine .inr ⟨i, by omega, by omega, ?_⟩
      rwa [UInt32.ofNat_add, UInt32.ofNat_toNat]
    · exact .inl hlast
  · intro h
    obtain ⟨count, hcount⟩ : ∃ count, last.toNat + 1 - first.toNat = count := ⟨_, rfl⟩
    induction count generalizing first leaves with
    | zero =>
      have outside : ¬first ≤ last := by
        rw [UInt32.le_iff_toNat_le]
        omega
      refine ⟨1, [], by rw [visited, if_neg outside], ?_⟩
      rw [numbers_of_gt (by omega)]
      rfl
    | succ count ih =>
      have inside : first ≤ last := by
        rw [UInt32.le_iff_toNat_le]
        omega
      have start : numbers first.toNat last.toNat = first.toNat :: numbers (first.toNat + 1) last.toNat :=
        numbers_of_le (by omega)
      cases hleaves : leaves 0 first with
      | true =>
        refine ⟨1, [first], by rw [visited, if_pos inside, hleaves]; rfl, ?_⟩
        rw [start, upTo, UInt32.ofNat_toNat, hleaves]
        rfl
      | false =>
        have here : leaves 0 (UInt32.ofNat first.toNat) = false := by rwa [UInt32.ofNat_toNat]
        have below : first ≠ maxWord := by
          rintro rfl
          rcases h with hlast | hlater
          · apply hlast
            rw [UInt32.le_iff_toNat_le] at inside
            exact UInt32.toNat_inj.mp (Nat.le_antisymm (Nat.le_of_lt_succ last.toNat_lt) inside)
          · obtain ⟨i, -, small, -⟩ := hlater.next here
            have top : maxWord.toNat = 4294967295 := rfl
            omega
        have next := toNat_succ below
        have later : last ≠ maxWord ∨
            LeavesBelow (2 ^ 32) leaves.next (first + 1).toNat last.toNat := by
          rw [next]
          exact h.imp_right fun hlater => hlater.next here
        obtain ⟨rounds, words, hwords, hnumbers⟩ := ih leaves.next (first + 1) later (by omega)
        refine ⟨rounds + 1, first :: words, ?_, ?_⟩
        · rw [visited, if_pos inside, hleaves, if_neg (by decide), hwords, Option.map_some]
        · rw [start, upTo, here, if_neg (by decide), List.map_cons, hnumbers, next]

/-- All that is visited is below a bound where the range is, or is left below it. -/
theorem upTo_below_iff (bound : Nat) (leaves : Verdicts) (first last : Nat) :
    (∀ n ∈ upTo leaves (numbers first last), n < bound) ↔
      last < first ∨ last < bound ∨ LeavesBelow bound leaves first last := by
  obtain ⟨count, hcount⟩ : ∃ count, last + 1 - first = count := ⟨_, rfl⟩
  induction count generalizing first leaves with
  | zero =>
    rw [numbers_of_gt (by omega)]
    exact iff_of_true nofun (.inl (by omega))
  | succ count ih =>
    rw [numbers_of_le (by omega), upTo]
    cases here : leaves 0 (UInt32.ofNat first) with
    | true =>
      rw [if_pos rfl, List.forall_mem_singleton]
      constructor
      · exact fun below => .inr (.inr ⟨0, by omega, by omega, here⟩)
      · rintro (outside | small | ⟨i, inside, below, -⟩) <;> omega
    | false =>
      rw [if_neg (by decide), List.forall_mem_cons, ih leaves.next (first + 1) (by omega)]
      constructor
      · rintro ⟨below, outside | small | later⟩
        · exact .inr (.inl (by omega))
        · exact .inr (.inl small)
        · exact .inr (.inr (leavesBelow_of_next later))
      · rintro (outside | small | later)
        · omega
        · exact ⟨by omega, .inr (.inl small)⟩
        · have next := later.next here
          obtain ⟨i, -, below, -⟩ := next
          exact ⟨by omega, .inr (.inr (later.next here))⟩

end MidnightSdk.CountedLoop
