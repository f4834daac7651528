import Mathlib.Data.List.Basic

/-!
# Items one after the other

Items are written one behind the other, with nothing between them. What reads one item reads all
of them, or fails at the first it does not accept.
-/

namespace MidnightSdk.Items

variable {τ α β : Type}

/-- At most so many items, up to the end. -/
def many (read : List τ → Option (β × List τ)) : Nat → List τ → Option (List β)
  | _, [] => some []
  | 0, _ :: _ => none
  | n + 1, first :: rest => do
    let (item, rest) ← read (first :: rest)
    let items ← many read n rest
    return item :: items

/-- There are no more items than symbols. -/
def readAll (read : List τ → Option (β × List τ)) (text : List τ) : Option (List β) :=
  many read text.length text

/-- What is made of each item is made of all. -/
theorem many_flatMap {read : List τ → Option (β × List τ)} {write : α → List τ} {made : α → Option β}
    {items : List α} (hne : ∀ a ∈ items, write a ≠ [])
    (h : ∀ a ∈ items, ∀ rest, read (write a ++ rest) = (made a).map fun b => (b, rest)) {n : Nat}
    (hn : (items.flatMap write).length ≤ n) :
    many read n (items.flatMap write) = items.mapM made := by
  induction items generalizing n with
  | nil =>
    rw [List.flatMap_nil, many]
    rfl
  | cons a items ih =>
    have later {n : Nat} := ih (n := n) (fun b hb => hne b (List.mem_cons_of_mem a hb))
      (fun b hb => h b (List.mem_cons_of_mem a hb))
    have own := h a List.mem_cons_self (items.flatMap write)
    rw [List.flatMap_cons] at hn ⊢
    cases hwrite : write a with
    | nil => exact absurd hwrite (hne a List.mem_cons_self)
    | cons first more =>
      rw [hwrite, List.cons_append] at own hn
      cases n with
      | zero => cases hn
      | succ n =>
        rw [List.cons_append, many, own, List.mapM_cons]
        have short : (items.flatMap write).length ≤ n := by
          rw [List.length_cons, List.length_append] at hn
          omega
        cases made a with
        | none => rfl
        | some b =>
          simp only [Option.map_some, Option.bind_eq_bind, Option.bind_some]
          rw [later short]

theorem readAll_flatMap {read : List τ → Option (β × List τ)} {write : α → List τ}
    {made : α → Option β} {items : List α} (hne : ∀ a ∈ items, write a ≠ [])
    (h : ∀ a ∈ items, ∀ rest, read (write a ++ rest) = (made a).map fun b => (b, rest)) :
    readAll read (items.flatMap write) = items.mapM made := many_flatMap hne h (Nat.le_refl _)

/-- All are made where each of them is. -/
theorem mapM_ite {legal : α → Prop} [DecidablePred legal] {f : α → β} (items : List α) :
    (items.mapM fun a => if legal a then some (f a) else none) =
      if ∀ a ∈ items, legal a then some (items.map f) else none := by
  induction items with
  | nil => simp
  | cons a items ih =>
    rw [List.mapM_cons, ih]
    by_cases ha : legal a
    · by_cases all : ∀ b ∈ items, legal b
      · rw [if_pos ha, if_pos all, if_pos (List.forall_mem_cons.mpr ⟨ha, all⟩)]
        rfl
      · rw [if_pos ha, if_neg all, if_neg (mt List.forall_mem_cons.mp fun h => all h.2)]
        rfl
    · rw [if_neg ha, if_neg (mt List.forall_mem_cons.mp fun h => ha h.1)]
      rfl

end MidnightSdk.Items
