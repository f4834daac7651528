import Mathlib.Algebra.Order.BigOperators.Group.List
import Mathlib.Algebra.Order.Group.Basic
import Mathlib.Data.List.Perm.Subperm

/-!
# Shortest accepted prefixes

A loop that reads a list from the left and stops at the first prefix passing a
test computes `shortestPrefix`. `IsShortest` says which prefix that is with no
loop. The second half is about weighted lists: over all orders of a list, when
does some prefix reach a threshold.
-/

namespace MidnightSdk.Prefixes

section Search
variable {α : Type*} (ok : List α → Prop) [DecidablePred ok]

/-- Extend what was read by one element at a time, until it passes the test. -/
def extend (seen : List α) : List α → Option (List α)
  | [] => none
  | x :: xs => if ok (seen ++ [x]) then some (seen ++ [x]) else extend (seen ++ [x]) xs

/-- The shortest nonempty prefix that passes the test. -/
def shortestPrefix (l : List α) : Option (List α) := extend ok [] l

/-- `p` is a nonempty prefix of `l` that passes the test, and no shorter one does. -/
structure IsShortest (l p : List α) : Prop where
  nonempty : p ≠ []
  isPrefix : p <+: l
  passes : ok p
  first : ∀ q, q ≠ [] → q <+: p → q ≠ p → ¬ ok q

variable {ok}

theorem extend_eq_none {seen l : List α} :
    extend ok seen l = none ↔ ∀ q, q ≠ [] → q <+: l → ¬ ok (seen ++ q) := by
  induction l generalizing seen with
  | nil =>
    simp only [extend, true_iff]
    intro q hq hp
    exact absurd (List.prefix_nil.mp hp) hq
  | cons x xs ih =>
    by_cases hx : ok (seen ++ [x])
    · simp only [extend, hx, ↓reduceIte, reduceCtorEq, false_iff, not_forall]
      exact ⟨[x], by simp, ⟨xs, rfl⟩, not_not.mpr hx⟩
    · simp only [extend, hx, ↓reduceIte, ih]
      constructor
      · intro h q hq hp
        obtain ⟨y, ys, rfl⟩ := List.exists_cons_of_ne_nil hq
        obtain ⟨rfl, hys⟩ := List.cons_prefix_cons.mp hp
        by_cases he : ys = []
        · simpa [he] using hx
        · simpa using h ys he hys
      · intro h q _ hp
        simpa using h (x :: q) (by simp) (List.cons_prefix_cons.mpr ⟨rfl, hp⟩)

theorem extend_eq_some {seen l p : List α} (h : extend ok seen l = some p) :
    ∃ q, p = seen ++ q ∧ q ≠ [] ∧ q <+: l ∧ ok p ∧
      ∀ r, r ≠ [] → r <+: q → r ≠ q → ¬ ok (seen ++ r) := by
  induction l generalizing seen with
  | nil => cases h
  | cons x xs ih =>
    by_cases hx : ok (seen ++ [x])
    · simp only [extend, hx, ↓reduceIte, Option.some.injEq] at h
      subst h
      refine ⟨[x], rfl, by simp, ⟨xs, rfl⟩, hx, ?_⟩
      intro r hr hp hne
      obtain ⟨y, ys, rfl⟩ := List.exists_cons_of_ne_nil hr
      obtain ⟨rfl, hys⟩ := List.cons_prefix_cons.mp hp
      exact absurd (by rw [List.prefix_nil.mp hys]) hne
    · simp only [extend, hx, ↓reduceIte] at h
      obtain ⟨q, rfl, hq, hp, hok, hfirst⟩ := ih h
      refine ⟨x :: q, by simp, by simp, List.cons_prefix_cons.mpr ⟨rfl, hp⟩, hok, ?_⟩
      intro r hr hpr hne
      obtain ⟨y, ys, rfl⟩ := List.exists_cons_of_ne_nil hr
      obtain ⟨rfl, hys⟩ := List.cons_prefix_cons.mp hpr
      by_cases he : ys = []
      · simpa [he] using hx
      · simpa using hfirst ys he hys (fun e => hne (by rw [e]))

/-- No prefix passes exactly when the search runs to the end. -/
theorem shortestPrefix_eq_none {l : List α} :
    shortestPrefix ok l = none ↔ ∀ q, q ≠ [] → q <+: l → ¬ ok q :=
  extend_eq_none

theorem shortestPrefix_isShortest {l p : List α} (h : shortestPrefix ok l = some p) :
    IsShortest ok l p := by
  obtain ⟨q, rfl, hq, hp, hok, hfirst⟩ := extend_eq_some h
  exact ⟨hq, hp, hok, hfirst⟩

omit [DecidablePred ok] in
/-- Two accepted prefixes with nothing accepted below them are the same prefix. -/
theorem IsShortest.unique {l p q : List α} (hp : IsShortest ok l p) (hq : IsShortest ok l q) :
    p = q := by
  by_contra hne
  rcases List.prefix_or_prefix_of_prefix hp.isPrefix hq.isPrefix with h | h
  · exact hq.first p hp.nonempty h hne hp.passes
  · exact hp.first q hq.nonempty h (Ne.symm hne) hq.passes

/-- The loop finds the shortest accepted prefix and nothing else. -/
theorem shortestPrefix_eq_some {l p : List α} :
    shortestPrefix ok l = some p ↔ IsShortest ok l p := by
  refine ⟨shortestPrefix_isShortest, ?_⟩
  intro h
  cases he : shortestPrefix ok l with
  | none => exact absurd h.passes (shortestPrefix_eq_none.mp he p h.nonempty h.isPrefix)
  | some q => rw [(shortestPrefix_isShortest he).unique h]

omit [DecidablePred ok] in
/-- A test that looks at lengths only finds the first length that passes. -/
theorem isShortest_of_length {enough : Nat → Prop} {l p : List α} (hzero : ¬enough 0) :
    IsShortest (fun q => enough q.length) l p ↔
      ∃ k ≤ l.length, p = l.take k ∧ enough k ∧ ∀ j < k, ¬enough j := by
  constructor
  · rintro ⟨-, hpre, hpasses, hfirst⟩
    refine ⟨p.length, hpre.length_le, List.prefix_iff_eq_take.mp hpre, hpasses, ?_⟩
    intro j hj henough
    have length : (p.take j).length = j := List.length_take_of_le (Nat.le_of_lt hj)
    refine hfirst (p.take j) ?_ (List.take_prefix j p) ?_ (by rwa [length])
    · intro hnil
      rw [hnil, List.length_nil] at length
      exact hzero (length ▸ henough)
    · intro same
      rw [same] at length
      omega
  · rintro ⟨k, hk, rfl, henough, hfirst⟩
    have length : (l.take k).length = k := List.length_take_of_le hk
    refine ⟨?_, List.take_prefix k l, by rwa [length], ?_⟩
    · intro hnil
      rw [hnil, List.length_nil] at length
      exact hzero (length ▸ henough)
    · intro q _ hpre hne hpasses
      refine hfirst q.length (Nat.lt_of_le_of_ne (length ▸ hpre.length_le) ?_) hpasses
      exact fun same => hne (hpre.eq_of_length (same.trans length.symm))

end Search

/-! ## Prefixes of the orders of a weighted list -/

section Weights
variable {α β : Type*} [AddCommGroup β] (w : α → β)

/-- The total weight of a list. -/
def weight (l : List α) : β := (l.map w).sum

variable {w}

@[simp] theorem weight_nil : weight w [] = 0 := rfl

@[simp] theorem weight_cons (x : α) (l : List α) : weight w (x :: l) = w x + weight w l := rfl

@[simp] theorem weight_append (l m : List α) : weight w (l ++ m) = weight w l + weight w m := by
  simp [weight]

theorem weight_perm {l m : List α} (h : l.Perm m) : weight w l = weight w m := (h.map w).sum_eq

variable [LinearOrder β] [IsOrderedAddMonoid β]

theorem weight_nonneg {l : List α} (h : ∀ x ∈ l, 0 ≤ w x) : 0 ≤ weight w l :=
  List.sum_nonneg (by simpa using h)

theorem weight_nonpos {l : List α} (h : ∀ x ∈ l, w x ≤ 0) : weight w l ≤ 0 := by
  induction l with
  | nil => exact le_refl _
  | cons x l ih => exact add_nonpos (h x (by simp)) (ih fun y hy => h y (by simp [hy]))

/-- In an ascending list no prefix outweighs both its first element and the whole. -/
theorem ascending_prefix_le {x : α} {xs q : List α} (hs : (x :: xs).Pairwise (w · ≤ w ·))
    (hq : q ≠ []) (hp : q <+: x :: xs) : weight w q ≤ max (w x) (weight w (x :: xs)) := by
  obtain ⟨y, q, rfl⟩ := List.exists_cons_of_ne_nil hq
  obtain ⟨rfl, rest, rfl⟩ := List.cons_prefix_cons.mp hp
  rw [List.pairwise_cons, List.pairwise_append] at hs
  obtain ⟨-, -, -, hcross⟩ := hs
  -- either everything after the prefix is nonnegative, or everything inside it is nonpositive
  by_cases h : ∀ z ∈ rest, 0 ≤ w z
  · apply le_max_of_le_right
    rw [weight_cons, weight_cons, weight_append, ← add_assoc]
    exact le_add_of_nonneg_right (weight_nonneg h)
  · obtain ⟨z, hz, hneg⟩ : ∃ z ∈ rest, w z < 0 := by simpa using h
    apply le_max_of_le_left
    have hin : weight w q ≤ 0 := weight_nonpos fun a ha => (hcross a ha z hz).trans hneg.le
    simpa using add_le_add_left hin (w y)

/-- Every order of a list has a prefix reaching the threshold exactly when the
whole list reaches it, or each element alone does. -/
theorem all_orders_reach {l : List α} {t : β} :
    (∀ m, m.Perm l → ∃ q, q ≠ [] ∧ q <+: m ∧ t ≤ weight w q) ↔
      l ≠ [] ∧ (t ≤ weight w l ∨ ∀ x ∈ l, t ≤ w x) := by
  constructor
  · intro h
    let asc := l.mergeSort (fun a b => decide (w a ≤ w b))
    have hperm : asc.Perm l := List.mergeSort_perm l _
    have hsorted : asc.Pairwise (w · ≤ w ·) := by
      have : asc.Pairwise fun a b => decide (w a ≤ w b) := by
        refine List.pairwise_mergeSort ?_ ?_ l
        · intro a b c hab hbc
          simp only [decide_eq_true_eq] at hab hbc ⊢
          exact hab.trans hbc
        · intro a b
          simpa using le_total (w a) (w b)
      simpa using this
    obtain ⟨q, hq, hp, ht⟩ := h asc hperm
    obtain ⟨x, xs, he⟩ : ∃ x xs, asc = x :: xs := by
      apply List.exists_cons_of_ne_nil
      rintro h0
      rw [h0] at hp
      exact hq (List.prefix_nil.mp hp)
    rw [he] at hp hsorted hperm
    refine ⟨fun h0 => by simp [h0] at hperm, ?_⟩
    rcases le_max_iff.mp (ht.trans (ascending_prefix_le hsorted hq hp)) with hx | hall
    · right
      intro y hy
      rcases List.mem_cons.mp (hperm.mem_iff.mpr hy) with rfl | hy'
      · exact hx
      · exact hx.trans ((List.pairwise_cons.mp hsorted).1 y hy')
    · exact Or.inl (by rwa [weight_perm hperm] at hall)
  · rintro ⟨hne, hreach⟩ m hm
    have hm0 : m ≠ [] := fun h0 => hne (by simpa [h0] using hm.symm)
    rcases hreach with hall | heach
    · exact ⟨m, hm0, List.prefix_refl m, by rwa [weight_perm hm]⟩
    · obtain ⟨x, xs, rfl⟩ := List.exists_cons_of_ne_nil hm0
      exact ⟨[x], by simp, ⟨xs, rfl⟩, by simpa using heach x (hm.mem_iff.mp (by simp))⟩

omit [IsOrderedAddMonoid β] in
/-- Some order of a list has a prefix reaching the threshold exactly when some
nonempty selection from it does. -/
theorem some_order_reaches {l : List α} {t : β} :
    (∃ m, m.Perm l ∧ ∃ q, q ≠ [] ∧ q <+: m ∧ t ≤ weight w q) ↔
      ∃ s, s ≠ [] ∧ s.Subperm l ∧ t ≤ weight w s := by
  constructor
  · rintro ⟨m, hm, q, hq, hp, ht⟩
    exact ⟨q, hq, hp.sublist.subperm.trans hm.subperm, ht⟩
  · rintro ⟨s, hs, ⟨s', hperm, hsub⟩, ht⟩
    obtain ⟨rest, hrest⟩ := hsub.exists_perm_append
    refine ⟨s' ++ rest, hrest.symm, s', ?_, ⟨rest, rfl⟩, by rwa [weight_perm hperm]⟩
    rintro rfl
    exact hs (by simpa using hperm.symm)

/-- With no negative weight, a selection weighs at most the whole list. -/
theorem weight_subperm_le {l s : List α} (h : ∀ x ∈ l, 0 ≤ w x) (hs : s.Subperm l) :
    weight w s ≤ weight w l := by
  obtain ⟨s', hperm, hsub⟩ := hs
  obtain ⟨rest, hrest⟩ := hsub.exists_perm_append
  rw [← weight_perm hperm, weight_perm hrest, weight_append]
  exact le_add_of_nonneg_right (weight_nonneg fun x hx => h x (hrest.mem_iff.mpr (by simp [hx])))

end Weights

end MidnightSdk.Prefixes
