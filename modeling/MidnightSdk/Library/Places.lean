import Mathlib.Data.List.TakeWhile
import MidnightSdk.Library.Cpp
import MidnightSdk.Library.TextSearch

/-!
# Places in a string

`std::string::find` and `substr`. A search that fails answers `npos`, the largest
number there is, so a sum with it wraps round to the start of the text; `none`
stands for it.
-/

namespace MidnightSdk.Places

open Cpp TextSearch

variable {α : Type}

/-- `place + k`, where `k` is not zero. -/
def after : Option Nat → Nat → Nat
  | some place, k => place + k
  | none, k => k - 1

/-- `s.substr(start, stop - start)`. The end is searched for from the start on, so the
difference does not wrap; up to `npos` is up to the end of the text. -/
def slice (s : List α) (start : Nat) (stop : Option Nat) : Throws (List α) :=
  if s.length < start then .error (.outOfRange "basic_string::substr")
  else
    match stop with
    | some place => .ok ((s.drop start).take (place - start))
    | none => .ok (s.drop start)

theorem slice_append (front middle rest : List α) :
    slice (front ++ (middle ++ rest)) front.length (some (front.length + middle.length)) =
      .ok middle := by
  simp [slice]

theorem slice_end (front rest : List α) : slice (front ++ rest) front.length none = .ok rest := by
  simp [slice]

variable [DecidableEq α]

/-- `s.find(pattern, start)`; behind the end nothing is found. -/
def findFrom (pattern s : List α) : Option Nat → Option Nat
  | none => none
  | some start =>
    if s.length < start then none else (find pattern (s.drop start)).map (start + ·)

theorem findFrom_append (pattern front rest : List α) :
    findFrom pattern (front ++ rest) (some front.length) =
      (find pattern rest).map (front.length + ·) := by
  have inside : ¬(front ++ rest).length < front.length := by simp
  rw [findFrom, if_neg inside, List.drop_left]

theorem findFrom_zero (pattern s : List α) : findFrom pattern s (some 0) = find pattern s := by
  simp [findFrom]

/-- What is found from a start on is there, and not before the start. -/
theorem of_findFrom {pattern s : List α} {start pos : Nat}
    (h : findFrom pattern s (some start) = some pos) : start ≤ pos ∧ pattern <+: s.drop pos := by
  rw [findFrom] at h
  split at h
  · cases h
  · obtain ⟨distance, found, rfl⟩ := Option.map_eq_some_iff.mp h
    have there := prefix_of_find found
    rw [List.drop_drop] at there
    exact ⟨Nat.le_add_right _ _, there⟩

theorem findFrom_append_right {pattern s : List α} {start pos : Nat}
    (h : findFrom pattern s (some start) = some pos) (rest : List α) :
    findFrom pattern (s ++ rest) (some start) = some pos := by
  rw [findFrom] at h ⊢
  split at h
  · cases h
  · rename_i inside
    obtain ⟨distance, found, rfl⟩ := Option.map_eq_some_iff.mp h
    rw [if_neg (by rw [List.length_append]; omega),
      List.drop_append_of_le_length (Nat.not_lt.mp inside), find_append_right found,
      Option.map_some]

theorem findFrom_of_append {pattern s rest : List α} {start pos : Nat}
    (h : findFrom pattern (s ++ rest) (some start) = some pos)
    (fits : pos + pattern.length ≤ s.length) : findFrom pattern s (some start) = some pos := by
  have order := (of_findFrom h).1
  rw [findFrom] at h ⊢
  split at h
  · cases h
  · obtain ⟨distance, found, rfl⟩ := Option.map_eq_some_iff.mp h
    rw [List.drop_append_of_le_length (by omega)] at found
    rw [if_neg (by omega), find_of_append found (by rw [List.length_drop]; omega),
      Option.map_some]

theorem find_mark {mark : α} {front : List α} (h : mark ∉ front) (rest : List α) :
    find [mark] (front ++ mark :: rest) = some front.length := by
  have here : find [mark] (mark :: rest) = some 0 := find_of_prefix ⟨rest, rfl⟩
  rw [find_append h, here, Option.map_some, Nat.zero_add]

theorem find_mark_eq_none {mark : α} {text : List α} : find [mark] text = none ↔ mark ∉ text := by
  constructor
  · intro h hmem
    obtain ⟨front, rest, rfl, hfront⟩ := List.eq_append_cons_of_mem hmem
    rw [find_mark hfront] at h
    cases h
  · intro h
    have unfound : find [mark] (text ++ []) = (find [mark] []).map (· + text.length) :=
      find_append h
    rw [List.append_nil] at unfound
    rw [unfound]
    rfl

/-- The mark behind a place, and what stands before it. -/
theorem findFrom_mark {mark : α} {middle : List α} (h : mark ∉ middle) (front rest : List α) :
    findFrom [mark] (front ++ (middle ++ mark :: rest)) (some front.length) =
      some (front.length + middle.length) := by
  rw [findFrom_append, find_mark h, Option.map_some]

theorem findFrom_mark_eq_none {mark : α} {rest : List α} (h : mark ∉ rest) (front : List α) :
    findFrom [mark] (front ++ rest) (some front.length) = none := by
  rw [findFrom_append, find_mark_eq_none.mpr h, Option.map_none]

/-! ## Behind a key -/

/-- The text between a key and the next mark, which is searched for behind the key's start
or, with `past`, behind the key. -/
def between (key : List α) (past : Bool) (mark : α) (s : List α) : Throws (List α) :=
  let start := find key s
  let stop := findFrom [mark] s (if past then some (after start key.length) else start)
  slice s (after start key.length) stop

/-- A key that is found has its text read up to the mark. -/
theorem between_eq {key value front rest s : List α} {past : Bool} {mark : α}
    (hs : s = front ++ (key ++ (value ++ mark :: rest))) (found : find key s = some front.length)
    (hkey : past = true ∨ mark ∉ key) (hvalue : mark ∉ value) :
    between key past mark s = .ok value := by
  have behind : s = (front ++ key) ++ (value ++ mark :: rest) := by rw [hs, List.append_assoc]
  have length : front.length + key.length = (front ++ key).length := List.length_append.symm
  have stop : findFrom [mark] s (if past then some (front.length + key.length) else some front.length) =
      some (front.length + key.length + value.length) := by
    cases past with
    | true => rw [if_pos rfl, length, behind, findFrom_mark hvalue]
    | false =>
      have unmarked : mark ∉ key ++ value := by
        simp only [List.mem_append, not_or]
        exact ⟨hkey.resolve_left (by decide), hvalue⟩
      rw [if_neg (by decide), hs, ← List.append_assoc key, findFrom_mark unmarked,
        List.length_append, Nat.add_assoc]
  simp only [between, found, after]
  rw [stop, length, behind, slice_append]

/-- Without a mark behind it the text of a key goes on to the end. -/
theorem between_of_find {key s : List α} {mark : α} {pos : Nat} (found : find key s = some pos)
    (hkey : mark ∉ key) :
    between key false mark s = .ok ((s.drop (pos + key.length)).takeWhile (· != mark)) := by
  obtain ⟨rest, hrest⟩ := prefix_of_find found
  have inside : pos ≤ s.length := by
    by_contra outside
    rw [List.drop_eq_nil_of_le (by omega), List.append_eq_nil_iff] at hrest
    obtain ⟨rfl, -⟩ := hrest
    have first : find [] s = some 0 := find_of_prefix List.nil_prefix
    rw [first] at found
    cases found
    omega
  have front : (s.take pos).length = pos := List.length_take_of_le inside
  have hs : s = s.take pos ++ (key ++ rest) := by rw [hrest, List.take_append_drop]
  have behind : s.drop (pos + key.length) = rest := by
    rw [← List.drop_drop, ← hrest, List.drop_left]
  rw [behind]
  have foundThere : find key s = some (s.take pos).length := by rw [found, front]
  by_cases hmark : mark ∈ rest
  · obtain ⟨value, after, rfl, hvalue⟩ := List.eq_append_cons_of_mem hmark
    have kept : ∀ c ∈ value, (c != mark) = true := by
      intro c hc
      rw [bne_iff_ne]
      rintro rfl
      exact hvalue hc
    rw [between_eq hs foundThere (.inr hkey) hvalue, List.takeWhile_append_of_pos kept,
      List.takeWhile_cons_of_neg (by simp), List.append_nil]
  · have kept : ∀ c ∈ rest, (c != mark) = true := by
      intro c hc
      rw [bne_iff_ne]
      rintro rfl
      exact hmark hc
    have unmarked : mark ∉ key ++ rest := by simp [hkey, hmark]
    have stop : findFrom [mark] (s.take pos ++ (key ++ rest)) (some (s.take pos).length) = none :=
      findFrom_mark_eq_none unmarked _
    have value : slice ((s.take pos ++ key) ++ rest) (s.take pos ++ key).length none = .ok rest :=
      slice_end _ _
    rw [← hs] at stop
    rw [List.append_assoc, ← hs, List.length_append] at value
    rw [List.takeWhile_eq_self_iff.mpr kept]
    simp only [between, foundThere, after]
    rw [if_neg (by decide), stop, value]

end MidnightSdk.Places
