import Mathlib.Data.List.Basic

/-!
# Searching a text

Where a pattern first occurs in a text. A text divided by a mark is a row of
pieces; a name with a mark on either side is found at the piece it is, however
much of it stands inside another piece.
-/

namespace MidnightSdk.TextSearch

variable {α : Type}

/-- Pieces, with a mark in front of each. -/
def divided (mark : α) (pieces : List (List α)) : List α := pieces.flatMap (mark :: ·)

theorem divided_cons (mark : α) (piece : List α) (pieces : List (List α)) :
    divided mark (piece :: pieces) = mark :: (piece ++ divided mark pieces) := rfl

theorem divided_append (mark : α) (pieces others : List (List α)) :
    divided mark (pieces ++ others) = divided mark pieces ++ divided mark others :=
  List.flatMap_append

/-- Between marks a name is the whole piece. -/
theorem eq_of_start {mark : α} {name tail piece text : List α} (hname : mark ∉ name)
    (hpiece : mark ∉ piece) (h : name ++ mark :: tail <+: piece ++ mark :: text) :
    name = piece := by
  obtain ⟨rest, h⟩ := h
  rw [List.append_assoc, List.cons_append] at h
  rcases List.append_eq_append_iff.mp h with ⟨between, rfl, hbetween⟩ | ⟨between, rfl, hbetween⟩
  · cases between with
    | nil => rw [List.append_nil]
    | cons c between =>
      obtain ⟨rfl, -⟩ := List.cons.inj hbetween
      exact absurd (List.mem_append_right _ List.mem_cons_self) hpiece
  · cases between with
    | nil => rw [List.append_nil]
    | cons c between =>
      obtain ⟨rfl, -⟩ := List.cons.inj hbetween
      exact absurd (List.mem_append_right _ List.mem_cons_self) hname

variable [DecidableEq α]

/-- The place of the first occurrence. -/
def find (pattern : List α) : List α → Option Nat
  | [] => if pattern.isEmpty then some 0 else none
  | c :: text =>
    if pattern.isPrefixOf (c :: text) then some 0 else (find pattern text).map (· + 1)

theorem find_of_prefix {pattern text : List α} (h : pattern <+: text) :
    find pattern text = some 0 := by
  cases text with
  | nil =>
    obtain rfl := List.prefix_nil.mp h
    rfl
  | cons c text =>
    rw [find, if_pos (List.isPrefixOf_iff_prefix.mpr h)]

theorem find_cons {pattern text : List α} {c : α} (h : ¬pattern <+: c :: text) :
    find pattern (c :: text) = (find pattern text).map (· + 1) := by
  rw [find, if_neg]
  rwa [List.isPrefixOf_iff_prefix]

/-- What is found is there. -/
theorem prefix_of_find {pattern text : List α} {pos : Nat} (h : find pattern text = some pos) :
    pattern <+: text.drop pos := by
  induction text generalizing pos with
  | nil =>
    cases pattern with
    | nil => exact List.nil_prefix
    | cons c pattern => cases h
  | cons c text ih =>
    rw [find] at h
    split at h
    · rename_i here
      cases h
      exact List.isPrefixOf_iff_prefix.mp here
    · obtain ⟨pos', later, rfl⟩ := Option.map_eq_some_iff.mp h
      exact ih later

/-- Nothing is found where the pattern stands nowhere. -/
theorem find_eq_none_iff {pattern text : List α} :
    find pattern text = none ↔ ∀ pos ≤ text.length, ¬pattern <+: text.drop pos := by
  induction text with
  | nil => cases pattern <;> simp [find]
  | cons c text ih =>
    constructor
    · intro h pos hpos
      rw [find] at h
      split at h
      · cases h
      · rename_i elsewhere
        cases pos with
        | zero => rwa [List.drop_zero, ← List.isPrefixOf_iff_prefix]
        | succ pos => exact ih.mp (Option.map_eq_none_iff.mp h) pos (Nat.le_of_succ_le_succ hpos)
    · intro h
      rw [find_cons (h 0 (Nat.zero_le _)), Option.map_eq_none_iff]
      exact ih.mpr fun pos hpos => h (pos + 1) (Nat.succ_le_succ hpos)

/-- What is found is the first occurrence. -/
theorem find_le {pattern text : List α} {first pos : Nat} (h : find pattern text = some first)
    (there : pattern <+: text.drop pos) : first ≤ pos := by
  induction text generalizing first pos with
  | nil =>
    cases pattern with
    | nil =>
      cases h
      exact Nat.zero_le _
    | cons c pattern => cases h
  | cons c text ih =>
    rw [find] at h
    split at h
    · cases h
      exact Nat.zero_le _
    · rename_i elsewhere
      obtain ⟨first', later, rfl⟩ := Option.map_eq_some_iff.mp h
      cases pos with
      | zero => exact absurd (List.isPrefixOf_iff_prefix.mpr there) elsewhere
      | succ pos => exact Nat.succ_le_succ (ih later there)

/-- More text behind it changes nothing about what is found. -/
theorem find_append_right {pattern text : List α} {pos : Nat} (h : find pattern text = some pos)
    (rest : List α) : find pattern (text ++ rest) = some pos := by
  induction text generalizing pos with
  | nil =>
    cases pattern with
    | nil =>
      cases h
      exact find_of_prefix List.nil_prefix
    | cons c pattern => cases h
  | cons c text ih =>
    rw [find] at h
    split at h
    · rename_i here
      cases h
      apply find_of_prefix
      exact (List.isPrefixOf_iff_prefix.mp here).trans (List.prefix_append _ _)
    · rename_i elsewhere
      obtain ⟨pos', later, rfl⟩ := Option.map_eq_some_iff.mp h
      have fits := (prefix_of_find later).length_le
      rw [List.length_drop] at fits
      have still : ¬pattern <+: c :: (text ++ rest) := by
        intro here
        apply elsewhere
        rw [List.isPrefixOf_iff_prefix]
        apply List.prefix_of_prefix_length_le here (List.prefix_append (c :: text) rest)
        rw [List.length_cons]
        omega
      rw [List.cons_append, find_cons still, ih later, Option.map_some]

/-- What is found within the front of a text is found there without the rest. -/
theorem find_of_append {pattern text rest : List α} {pos : Nat}
    (h : find pattern (text ++ rest) = some pos) (fits : pos + pattern.length ≤ text.length) :
    find pattern text = some pos := by
  have here : pattern <+: text.drop pos := by
    have there := prefix_of_find h
    rw [List.drop_append_of_le_length (by omega)] at there
    apply List.prefix_of_prefix_length_le there (List.prefix_append _ _)
    rw [List.length_drop]
    omega
  cases found : find pattern text with
  | none =>
    rw [find_eq_none_iff] at found
    exact absurd here (found pos (by omega))
  | some first => rw [← h, find_append_right found]

/-- In a text without the mark nothing that starts with it is found. -/
theorem find_append {mark : α} {pattern front text : List α} (h : mark ∉ front) :
    find (mark :: pattern) (front ++ text) =
      (find (mark :: pattern) text).map (· + front.length) := by
  induction front with
  | nil => simp
  | cons c front ih =>
    obtain ⟨hc, hfront⟩ := List.ne_and_not_mem_of_not_mem_cons h
    have elsewhere : ¬mark :: pattern <+: c :: (front ++ text) := by
      intro hpre
      exact hc (List.cons_prefix_cons.mp hpre).1
    rw [List.cons_append, find_cons elsewhere, ih hfront, Option.map_map]
    rfl

/-! ## Texts that clash -/

/-- Two texts differ somewhere, as far as both go. -/
def clashes : List α → List α → Bool
  | a :: as, b :: bs => a ≠ b || clashes as bs
  | _, _ => false

theorem not_prefix_of_clashes {pattern front : List α} (h : clashes pattern front = true)
    (text : List α) : ¬pattern <+: front ++ text := by
  induction pattern generalizing front with
  | nil => cases h
  | cons a pattern ih =>
    cases front with
    | nil => cases h
    | cons b front =>
      intro hpre
      rw [List.cons_append, List.cons_prefix_cons] at hpre
      obtain ⟨rfl, hrest⟩ := hpre
      simp only [clashes, ne_eq, not_true_eq_false, decide_false, Bool.false_or] at h
      exact ih h hrest

/-- A front in which the pattern cannot even begin. -/
def ClashesThroughout (pattern front : List α) : Prop :=
  ∀ pos < front.length, clashes pattern (front.drop pos) = true

instance (pattern front : List α) : Decidable (ClashesThroughout pattern front) :=
  inferInstanceAs (Decidable (∀ pos < front.length, _))

theorem ClashesThroughout.tail {pattern front : List α} {c : α}
    (h : ClashesThroughout pattern (c :: front)) : ClashesThroughout pattern front := by
  intro pos hpos
  exact h (pos + 1) (Nat.succ_lt_succ hpos)

theorem ClashesThroughout.find_append {pattern front : List α} (h : ClashesThroughout pattern front)
    (text : List α) : find pattern (front ++ text) = (find pattern text).map (· + front.length) := by
  induction front with
  | nil => simp
  | cons c front ih =>
    have elsewhere : ¬pattern <+: c :: (front ++ text) :=
      not_prefix_of_clashes (h 0 (Nat.succ_pos _)) text
    rw [List.cons_append, find_cons elsewhere, ih h.tail, Option.map_map]
    rfl

/-- An occurrence behind such a front is one in the rest. -/
theorem ClashesThroughout.behind {pattern front text before later : List α}
    (h : ClashesThroughout pattern front) (hs : front ++ text = before ++ (pattern ++ later)) :
    ∃ between, text = between ++ (pattern ++ later) := by
  induction front generalizing before with
  | nil => exact ⟨before, hs⟩
  | cons c front ih =>
    cases before with
    | nil =>
      have elsewhere := not_prefix_of_clashes (h 0 (Nat.succ_pos _)) text
      exact absurd ⟨later, hs.symm⟩ elsewhere
    | cons d before =>
      rw [List.cons_append, List.cons_append, List.cons.injEq] at hs
      exact ih h.tail hs.2

/-- **The name is found at its own piece**, behind the pieces that are not it. -/
theorem find_divided {mark : α} {name tail front text : List α} {before : List (List α)}
    (hfront : mark ∉ front) (hname : mark ∉ name)
    (hbefore : ∀ piece ∈ before, mark ∉ piece ∧ piece ≠ name) :
    find (mark :: (name ++ mark :: tail))
        (front ++ (divided mark before ++ mark :: (name ++ mark :: (tail ++ text)))) =
      some (front.length + (divided mark before).length) := by
  have found : find (mark :: (name ++ mark :: tail))
      (divided mark before ++ mark :: (name ++ mark :: (tail ++ text))) =
        some (divided mark before).length := by
    induction before with
    | nil =>
      apply find_of_prefix
      exact ⟨text, by simp [divided]⟩
    | cons piece before ih =>
      obtain ⟨⟨hpiece, hne⟩, hrest⟩ := List.forall_mem_cons.mp hbefore
      obtain ⟨further, hfurther⟩ : ∃ further, divided mark before ++
          mark :: (name ++ mark :: (tail ++ text)) = mark :: further := by
        cases before with
        | nil => exact ⟨_, rfl⟩
        | cons next before => exact ⟨_, rfl⟩
      have elsewhere : ¬mark :: (name ++ mark :: tail) <+: mark :: (piece ++ mark :: further) := by
        intro hpre
        exact hne (eq_of_start hname hpiece (List.cons_prefix_cons.mp hpre).2).symm
      rw [divided_cons, List.cons_append, List.append_assoc, hfurther, find_cons elsewhere,
        find_append hpiece, ← hfurther, ih hrest, Option.map_some, Option.map_some,
        List.length_cons, List.length_append]
      congr 1
      omega
  rw [find_append hfront, found, Option.map_some, Nat.add_comm]

example : find "na".toList "banana".toList = some 2 := by decide

/-! ## A single character -/

/-- The first place of a character that a text starts without. -/
theorem idxOf?_append {c : α} {front : List α} (h : c ∉ front) (text : List α) :
    (front ++ text).idxOf? c = (text.idxOf? c).map (· + front.length) := by
  induction front with
  | nil => simp
  | cons d front ih =>
    obtain ⟨hd, hfront⟩ := List.ne_and_not_mem_of_not_mem_cons h
    rw [List.cons_append, List.idxOf?_cons, if_neg (by simpa using hd.symm), ih hfront,
      Option.map_map]
    rfl

theorem idxOf?_append_cons {c : α} {front : List α} (h : c ∉ front) (text : List α) :
    (front ++ c :: text).idxOf? c = some front.length := by
  rw [idxOf?_append h, List.idxOf?_cons, if_pos (beq_self_eq_true c), Option.map_some, Nat.zero_add]

end MidnightSdk.TextSearch
