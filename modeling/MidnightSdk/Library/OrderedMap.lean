import Mathlib.Data.List.Nodup
import Mathlib.Order.Lattice

/-!
# Maps in key order

`std::map`: entries under different keys, in the order of the keys. Assigning a key
that is there replaces its entry.
-/

namespace MidnightSdk

structure OrderedMap (κ β : Type*) [LinearOrder κ] where
  entries : List (κ × β)
  sorted : entries.Pairwise fun p q => p.1 < q.1

namespace OrderedMap

variable {κ β : Type*} [LinearOrder κ]

/-- The entries with one more, in its place. -/
def place (key : κ) (v : β) : List (κ × β) → List (κ × β)
  | [] => [(key, v)]
  | (k, w) :: rest =>
    if key < k then (key, v) :: (k, w) :: rest
    else if key = k then (key, v) :: rest
    else (k, w) :: place key v rest

theorem mem_place {key : κ} {v : β} {es : List (κ × β)} {p : κ × β} (h : p ∈ place key v es) :
    p = (key, v) ∨ p ∈ es := by
  induction es with
  | nil => exact Or.inl (List.mem_singleton.mp h)
  | cons e rest ih =>
    simp only [place] at h
    split at h
    · exact List.mem_cons.mp h
    · split at h
      · rcases List.mem_cons.mp h with here | later
        · exact Or.inl here
        · exact Or.inr (List.mem_cons_of_mem e later)
      · rcases List.mem_cons.mp h with rfl | later
        · exact Or.inr List.mem_cons_self
        · exact (ih later).imp_right (List.mem_cons_of_mem e)

/-- A new key displaces nothing. -/
theorem place_perm {key : κ} {v : β} {es : List (κ × β)} (h : key ∉ es.map Prod.fst) :
    (place key v es).Perm ((key, v) :: es) := by
  induction es with
  | nil => exact .refl _
  | cons e rest ih =>
    rw [List.map_cons, List.mem_cons, not_or] at h
    rw [place]
    split
    · exact .refl _
    · rw [if_neg h.1]
      exact ((ih h.2).cons _).trans (.swap _ _ _)

theorem key_mem_place (key : κ) (v : β) (es : List (κ × β)) (k : κ) :
    k ∈ (place key v es).map Prod.fst ↔ k = key ∨ k ∈ es.map Prod.fst := by
  induction es with
  | nil => simp [place]
  | cons e rest ih =>
    simp only [place]
    split
    · simp only [List.map_cons, List.mem_cons]
    · split
      · rename_i heq
        simp only [List.map_cons, List.mem_cons, ← heq, or_self_left]
      · simp only [List.map_cons, List.mem_cons, ih]
        exact or_left_comm

theorem place_sorted (key : κ) (v : β) {es : List (κ × β)}
    (h : es.Pairwise fun p q => p.1 < q.1) : (place key v es).Pairwise fun p q => p.1 < q.1 := by
  induction es with
  | nil => exact List.pairwise_singleton _ _
  | cons e rest ih =>
    obtain ⟨first, hrest⟩ := List.pairwise_cons.mp h
    simp only [place]
    split
    · rename_i before
      refine List.pairwise_cons.mpr ⟨?_, h⟩
      intro p hp
      rcases List.mem_cons.mp hp with rfl | later
      · exact before
      · exact lt_trans before (first p later)
    · split
      · rename_i heq
        exact List.pairwise_cons.mpr ⟨fun p hp => heq ▸ first p hp, hrest⟩
      · rename_i hnot hne
        refine List.pairwise_cons.mpr ⟨?_, ih hrest⟩
        intro p hp
        rcases mem_place hp with rfl | later
        · exact lt_of_le_of_ne (not_lt.mp hnot) (Ne.symm hne)
        · exact first p later

def empty : OrderedMap κ β := ⟨[], .nil⟩

/-- `m[key] = v` -/
def assign (m : OrderedMap κ β) (key : κ) (v : β) : OrderedMap κ β :=
  ⟨place key v m.entries, place_sorted key v m.sorted⟩

/-- `m.find(key) != m.end()` -/
def contains (m : OrderedMap κ β) (key : κ) : Bool := (m.entries.map Prod.fst).contains key

/-- The map after some assignments. -/
def ofEntries (es : List (κ × β)) : OrderedMap κ β := es.foldl (fun m e => m.assign e.1 e.2) empty

/-- The values of a map under keys that another one does not have. -/
def without (m other : OrderedMap κ β) : List β :=
  (m.entries.filter fun e => !other.contains e.1).map Prod.snd

theorem contains_iff {m : OrderedMap κ β} {key : κ} :
    m.contains key = true ↔ ∃ v, (key, v) ∈ m.entries := by
  simp only [contains, List.contains_eq_mem, decide_eq_true_eq, List.mem_map, Prod.exists,
    exists_and_right, exists_eq_right]

theorem contains_assign {m : OrderedMap κ β} {key k : κ} {v : β} :
    (m.assign key v).contains k = true ↔ k = key ∨ m.contains k = true := by
  simp only [contains, List.contains_eq_mem, decide_eq_true_eq]
  exact key_mem_place key v m.entries k

theorem contains_foldl_assign {es : List (κ × β)} {m : OrderedMap κ β} {k : κ} :
    (es.foldl (fun m e => m.assign e.1 e.2) m).contains k = true ↔
      m.contains k = true ∨ k ∈ es.map Prod.fst := by
  induction es generalizing m with
  | nil => simp
  | cons e es ih =>
    rw [List.foldl_cons, ih, contains_assign, List.map_cons, List.mem_cons, or_assoc, or_left_comm]

theorem contains_ofEntries {es : List (κ × β)} {k : κ} :
    (ofEntries es).contains k = true ↔ k ∈ es.map Prod.fst := by
  rw [ofEntries, contains_foldl_assign]
  exact or_iff_right Bool.false_ne_true

theorem mem_foldl_assign {es : List (κ × β)} {m : OrderedMap κ β} {p : κ × β}
    (h : p ∈ (es.foldl (fun m e => m.assign e.1 e.2) m).entries) : p ∈ m.entries ∨ p ∈ es := by
  induction es generalizing m with
  | nil => exact Or.inl h
  | cons e es ih =>
    rcases ih h with placed | later
    · rcases mem_place placed with rfl | before
      · exact Or.inr List.mem_cons_self
      · exact Or.inl before
    · exact Or.inr (List.mem_cons_of_mem e later)

/-- The entries are assigned ones. -/
theorem mem_ofEntries {es : List (κ × β)} {p : κ × β} (h : p ∈ (ofEntries es).entries) : p ∈ es := by
  rcases mem_foldl_assign h with before | assigned
  · cases before
  · exact assigned

theorem mem_without {m other : OrderedMap κ β} {v : β} :
    v ∈ m.without other ↔ ∃ key, (key, v) ∈ m.entries ∧ other.contains key = false := by
  simp only [without, List.mem_map, List.mem_filter, Bool.not_eq_true', Prod.exists,
    exists_eq_right]

theorem without_self (m : OrderedMap κ β) : m.without m = [] := by
  rw [without, List.map_eq_nil_iff, List.filter_eq_nil_iff]
  intro e he
  have there : m.contains e.1 = true := contains_iff.mpr ⟨e.2, he⟩
  rw [there]
  exact Bool.false_ne_true

/-! ## Reading a map back -/

theorem lookup_place [BEq κ] [LawfulBEq κ] (key k : κ) (v : β) (es : List (κ × β)) :
    (place key v es).lookup k = if k = key then some v else es.lookup k := by
  induction es with
  | nil =>
    by_cases here : k = key
    · rw [place, List.lookup_cons, if_pos here, here, beq_self_eq_true]
    · rw [place, List.lookup_cons, beq_eq_false_iff_ne.mpr here, if_neg here]
  | cons e rest ih =>
    obtain ⟨key', w⟩ := e
    simp only [place]
    by_cases here : k = key
    · subst here
      split
      · simp
      · split
        · simp
        · rename_i other
          rw [List.lookup_cons, beq_eq_false_iff_ne.mpr other]
          simpa using ih
    · rw [if_neg here] at ih ⊢
      split
      · rw [List.lookup_cons, beq_eq_false_iff_ne.mpr here]
      · split
        · rename_i same
          subst same
          rw [List.lookup_cons, List.lookup_cons, beq_eq_false_iff_ne.mpr here]
        · rw [List.lookup_cons, List.lookup_cons, ih]

theorem lookup_assign [BEq κ] [LawfulBEq κ] (m : OrderedMap κ β) (key k : κ) (v : β) :
    (m.assign key v).entries.lookup k = if k = key then some v else m.entries.lookup k :=
  lookup_place key k v m.entries

/-- A key behind all others goes to the end. -/
theorem place_last {key : κ} {v : β} {es : List (κ × β)} (h : ∀ e ∈ es, e.1 < key) :
    place key v es = es ++ [(key, v)] := by
  induction es with
  | nil => rfl
  | cons e rest ih =>
    obtain ⟨here, later⟩ := List.forall_mem_cons.mp h
    rw [place, if_neg (not_lt_of_gt here), if_neg (ne_of_gt here), ih later, List.cons_append]

theorem foldl_place {γ : Type*} (f : β → γ) {es : List (κ × β)} {front : List (κ × γ)}
    (h : es.Pairwise fun p q => p.1 < q.1) (hfront : ∀ p ∈ front, ∀ e ∈ es, p.1 < e.1) :
    es.foldl (fun acc e => place e.1 (f e.2) acc) front = front ++ es.map fun e => (e.1, f e.2) := by
  induction es generalizing front with
  | nil => rw [List.foldl_nil, List.map_nil, List.append_nil]
  | cons e rest ih =>
    obtain ⟨first, hrest⟩ := List.pairwise_cons.mp h
    have last : ∀ p ∈ front, p.1 < e.1 := fun p hp => hfront p hp e List.mem_cons_self
    rw [List.foldl_cons, place_last last, ih hrest, List.append_assoc, List.map_cons,
      List.singleton_append]
    intro p hp e' he'
    rcases List.mem_append.mp hp with before | here
    · exact hfront p before e' (List.mem_cons_of_mem e he')
    · rw [List.mem_singleton.mp here]
      exact first e' he'

/-- Entries taken in key order are placed as they are. -/
theorem foldl_place_entries {γ : Type*} (f : β → γ) (m : OrderedMap κ β) :
    m.entries.foldl (fun acc e => place e.1 (f e.2) acc) [] = m.entries.map fun e => (e.1, f e.2) :=
  foldl_place f m.sorted nofun

theorem entries_foldl_assign (es : List (κ × β)) (m : OrderedMap κ β) :
    (es.foldl (fun m e => m.assign e.1 e.2) m).entries =
      es.foldl (fun acc e => place e.1 e.2 acc) m.entries := by
  induction es generalizing m with
  | nil => rfl
  | cons e es ih => exact ih (m.assign e.1 e.2)

/-- The entries of a map make the map. -/
theorem ofEntries_entries (m : OrderedMap κ β) : ofEntries m.entries = m := by
  have same : (ofEntries m.entries).entries = m.entries := by
    rw [ofEntries, entries_foldl_assign]
    exact (foldl_place_entries id m).trans (List.map_id _)
  revert same
  generalize ofEntries m.entries = other
  intro same
  cases m
  cases other
  cases same
  rfl

/-- No key is named twice. -/
theorem keys_nodup (m : OrderedMap κ β) : (m.entries.map Prod.fst).Nodup :=
  List.pairwise_map.mpr (m.sorted.imp fun h => ne_of_lt h)

end OrderedMap

end MidnightSdk
