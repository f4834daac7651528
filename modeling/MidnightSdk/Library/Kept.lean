import MidnightSdk.Library.Cpp

/-!
# What is kept of a loop that throws

A loop that puts items into a list of its caller's and then throws leaves them there. A
result is therefore a list together with how the loop ended.
-/

namespace MidnightSdk.Cpp

structure Kept (α : Type) where
  items : List α
  ended : Throws Unit

namespace Kept

variable {α β : Type}

def nothing : Kept α := ⟨[], .ok ()⟩

/-- A step that puts at most one item, or throws. -/
def ofStep : Throws (Option α) → Kept α
  | .ok item => ⟨item.toList, .ok ()⟩
  | .error e => ⟨[], .error e⟩

def andThen (first second : Kept α) : Kept α :=
  match first.ended with
  | .ok _ => ⟨first.items ++ second.items, second.ended⟩
  | .error e => ⟨first.items, .error e⟩

def each (step : β → Kept α) : List β → Kept α
  | [] => nothing
  | b :: rest => (step b).andThen (each step rest)

/-- There are as many items as there should be, and fewer where the loop has thrown. -/
structure Counts (kept : Kept α) (n : Nat) : Prop where
  of_ok : kept.ended = .ok () → kept.items.length = n
  of_error : kept.ended ≠ .ok () → kept.items.length < n

theorem Counts.nothing : (nothing : Kept α).Counts 0 := ⟨fun _ => rfl, fun h => absurd rfl h⟩

theorem andThen_ended {first second : Kept α} :
    (first.andThen second).ended = .ok () ↔ first.ended = .ok () ∧ second.ended = .ok () := by
  unfold andThen
  cases first.ended with
  | ok u => simp
  | error e => simp

theorem andThen_items {first second : Kept α} (h : first.ended = .ok ()) :
    (first.andThen second).items = first.items ++ second.items := by
  simp only [andThen, h]

theorem Counts.andThen {first second : Kept α} {m n : Nat} (h : first.Counts m)
    (h' : second.Counts n) : (first.andThen second).Counts (m + n) := by
  cases hended : first.ended with
  | error e =>
    have fewer := h.of_error (by simp [hended])
    refine ⟨?_, fun _ => ?_⟩
    · simp [Kept.andThen, hended]
    · simp only [Kept.andThen, hended]
      omega
  | ok u =>
    have full := h.of_ok hended
    refine ⟨fun hok => ?_, fun hfailed => ?_⟩
    · simp only [Kept.andThen, hended] at hok ⊢
      rw [List.length_append, full, h'.of_ok hok]
    · simp only [Kept.andThen, hended] at hfailed ⊢
      rw [List.length_append, full]
      exact Nat.add_lt_add_left (h'.of_error hfailed) m

theorem each_map {γ : Type} (f : γ → β) (step : β → Kept α) (cs : List γ) :
    each step (cs.map f) = each (fun c => step (f c)) cs := by
  induction cs with
  | nil => rfl
  | cons c cs ih => rw [List.map_cons, each, each, ih]

end Kept

end MidnightSdk.Cpp
