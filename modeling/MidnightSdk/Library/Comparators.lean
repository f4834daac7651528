import Mathlib.Data.List.Nodup
import MidnightSdk.Library.Cpp

/-!
# Comparisons by keys

A comparison that looks at one key after the other is strict and total on the
keys. Sorting by it then has one result for all orders of a list whose keys
differ, whatever the sorting routine does with ties.
-/

namespace MidnightSdk.Cpp

variable {α β : Type}

/-- A strict order in which different elements compare one way or the other. -/
structure StrictTotal (lt : β → β → Bool) : Prop where
  asymm : ∀ a b, lt a b = true → lt b a = false
  trans : ∀ a b c, lt a b = true → lt b c = true → lt a c = true
  connected : ∀ a b, lt a b = false → lt b a = false → a = b

theorem StrictTotal.irrefl {lt : β → β → Bool} (h : StrictTotal lt) (a : β) : lt a a = false := by
  by_contra loop
  rw [Bool.not_eq_false] at loop
  exact absurd loop (by rw [h.asymm a a loop]; decide)

theorem StrictTotal.ne {lt : β → β → Bool} (h : StrictTotal lt) {a b : β} (hab : lt a b = true) :
    a ≠ b := by
  rintro rfl
  rw [h.irrefl] at hab
  cases hab

theorem StrictTotal.flip {lt : β → β → Bool} (h : StrictTotal lt) : StrictTotal fun a b => lt b a where
  asymm a b := h.asymm b a
  trans a b c hba hcb := h.trans c b a hcb hba
  connected a b hba hab := h.connected a b hab hba

theorem StrictTotal.ofNat {f : β → Nat} (hf : Function.Injective f) :
    StrictTotal fun a b => decide (f a < f b) where
  asymm a b hab := by
    rw [decide_eq_true_eq] at hab
    rw [decide_eq_false_iff_not]
    omega
  trans a b c hab hbc := by
    rw [decide_eq_true_eq] at hab hbc ⊢
    omega
  connected a b hab hba := by
    rw [decide_eq_false_iff_not] at hab hba
    exact hf (by omega)

/-- The first key decides, and the second one where the first is the same. -/
def lexicographic [DecidableEq α] (first : α → α → Bool) (second : β → β → Bool) :
    α × β → α × β → Bool :=
  fun a b => if a.1 = b.1 then second a.2 b.2 else first a.1 b.1

theorem StrictTotal.lexicographic [DecidableEq α] {first : α → α → Bool} {second : β → β → Bool}
    (hfirst : StrictTotal first) (hsecond : StrictTotal second) :
    StrictTotal (lexicographic first second) where
  asymm a b hab := by
    unfold Cpp.lexicographic at hab ⊢
    by_cases same : a.1 = b.1
    · rw [if_pos same] at hab
      rw [if_pos same.symm]
      exact hsecond.asymm _ _ hab
    · rw [if_neg same] at hab
      rw [if_neg (Ne.symm same)]
      exact hfirst.asymm _ _ hab
  trans a b c hab hbc := by
    unfold Cpp.lexicographic at hab hbc ⊢
    by_cases hfab : a.1 = b.1
    · rw [if_pos hfab] at hab
      rw [hfab]
      by_cases hfbc : b.1 = c.1
      · rw [if_pos hfbc] at hbc ⊢
        exact hsecond.trans _ _ _ hab hbc
      · rw [if_neg hfbc] at hbc ⊢
        exact hbc
    · rw [if_neg hfab] at hab
      by_cases hfbc : b.1 = c.1
      · rw [← hfbc, if_neg hfab]
        exact hab
      · rw [if_neg hfbc] at hbc
        have hac := hfirst.trans _ _ _ hab hbc
        rw [if_neg (hfirst.ne hac)]
        exact hac
  connected a b hab hba := by
    unfold Cpp.lexicographic at hab hba
    by_cases same : a.1 = b.1
    · rw [if_pos same] at hab
      rw [if_pos same.symm] at hba
      exact Prod.ext same (hsecond.connected _ _ hab hba)
    · rw [if_neg same] at hab
      rw [if_neg (Ne.symm same)] at hba
      exact absurd (hfirst.connected _ _ hab hba) same

/-- `std::lexicographical_compare` -/
def sequenceLess [DecidableEq α] (lt : α → α → Bool) : List α → List α → Bool
  | _, [] => false
  | [], _ :: _ => true
  | a :: as, b :: bs => if a = b then sequenceLess lt as bs else lt a b

theorem StrictTotal.sequenceLess [DecidableEq α] {lt : α → α → Bool} (h : StrictTotal lt) :
    StrictTotal (sequenceLess lt) where
  asymm as bs hab := by
    fun_induction Cpp.sequenceLess lt as bs with
    | case1 => cases hab
    | case2 => rfl
    | case3 as a bs ih =>
      rw [Cpp.sequenceLess, if_pos rfl]
      exact ih hab
    | case4 a as b bs apart =>
      rw [Cpp.sequenceLess, if_neg (Ne.symm apart)]
      exact h.asymm a b hab
  trans as bs cs hab hbc := by
    fun_induction Cpp.sequenceLess lt as bs generalizing cs with
    | case1 => cases hab
    | case2 b bs =>
      cases cs with
      | nil => cases hbc
      | cons c cs => rfl
    | case3 as a bs ih =>
      cases cs with
      | nil => cases hbc
      | cons c cs =>
        unfold Cpp.sequenceLess at hbc ⊢
        by_cases hac : a = c
        · rw [if_pos hac] at hbc ⊢
          exact ih cs hab hbc
        · rw [if_neg hac] at hbc ⊢
          exact hbc
    | case4 a as b bs apart =>
      cases cs with
      | nil => cases hbc
      | cons c cs =>
        unfold Cpp.sequenceLess at hbc ⊢
        by_cases hbceq : b = c
        · rw [← hbceq, if_neg apart]
          exact hab
        · rw [if_neg hbceq] at hbc
          have hac := h.trans a b c hab hbc
          rw [if_neg (h.ne hac)]
          exact hac
  connected as bs hab hba := by
    fun_induction Cpp.sequenceLess lt as bs with
    | case1 as =>
      cases as with
      | nil => rfl
      | cons a as => cases hba
    | case2 => cases hab
    | case3 as a bs ih =>
      rw [Cpp.sequenceLess, if_pos rfl] at hba
      rw [ih hab hba]
    | case4 a as b bs apart =>
      rw [Cpp.sequenceLess, if_neg (Ne.symm apart)] at hba
      exact absurd (h.connected a b hab hba) apart

/-- A total order on keys may sort what has the keys. -/
theorem StrictTotal.onKey {lt : β → β → Bool} (h : StrictTotal lt) (key : α → β) :
    StrictWeak fun a b => lt (key a) (key b) where
  asymm a b := h.asymm (key a) (key b)
  trans a b c hba hcb := by
    by_contra hca
    rw [Bool.not_eq_false] at hca
    by_cases hab : lt (key a) (key b) = true
    · rw [h.trans _ _ _ hca hab] at hcb
      cases hcb
    · rw [← h.connected _ _ hba ((Bool.not_eq_true _).mp hab), hcb] at hca
      cases hca

/-- Two sorters agree on two orders of a list whose keys differ. -/
theorem Sorter.run_eq (s t : Sorter α) {lt : β → β → Bool} (h : StrictTotal lt) {key : α → β}
    {l m : List α} (hperm : l.Perm m) (hkeys : (m.map key).Nodup) :
    s.run (fun a b => lt (key a) (key b)) l = t.run (fun a b => lt (key a) (key b)) m := by
  have hs := s.perm (fun a b => lt (key a) (key b)) l
  have ht := t.perm (fun a b => lt (key a) (key b)) m
  refine List.Perm.eq_of_pairwise ?_ (s.sorted _ l (h.onKey key))
    (t.sorted _ m (h.onKey key)) (hs.trans (hperm.trans ht.symm))
  intro a b ha hb hba hab
  have hm : a ∈ m := hperm.subset (hs.subset ha)
  exact List.inj_on_of_nodup_map hkeys hm (ht.subset hb) (h.connected _ _ hab hba)

end MidnightSdk.Cpp
