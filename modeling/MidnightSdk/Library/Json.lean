import MidnightSdk.Library.Cpp

/-!
# JSON values

Values of the JSON library as the program handles them in memory. An object is
a map kept in key order; reading a missing key gives the caller's default, and
reading a value at the wrong type throws a numbered type error. Floating-point
numbers are left out.
-/

namespace MidnightSdk

open Cpp

inductive Json where
  | null
  | bool (b : Bool)
  | unsigned (n : UInt64)
  | integer (n : Int64)
  | string (s : String)
  | array (xs : List Json)
  | object (fields : List (String × Json))
  deriving Repr

namespace Json

/-! ## Key-ordered fields -/

abbrev Fields := List (String × Json)

def lookup (key : String) : Fields → Option Json
  | [] => none
  | (k, v) :: rest => if k = key then some v else lookup key rest

/-- Assign a key, keeping the keys in order. -/
def assign (key : String) (v : Json) : Fields → Fields
  | [] => [(key, v)]
  | (k, w) :: rest =>
    if k = key then (key, v) :: rest
    else if key < k then (key, v) :: (k, w) :: rest
    else (k, w) :: assign key v rest

/-- The fields without a key. -/
def remove (key : String) (m : Fields) : Fields := m.filter fun p => p.1 ≠ key

@[simp] theorem lookup_assign_self (key : String) (v : Json) (m : Fields) :
    lookup key (assign key v m) = some v := by
  induction m with
  | nil => simp [assign, lookup]
  | cons p rest ih =>
    simp only [assign]
    split
    · simp [lookup]
    · split
      · simp [lookup]
      · rename_i hne _
        simp [lookup, hne, ih]

@[simp] theorem lookup_assign_of_ne {key other : String} (h : other ≠ key) (v : Json) (m : Fields) :
    lookup other (assign key v m) = lookup other m := by
  induction m with
  | nil => simp [assign, lookup, h.symm]
  | cons p rest ih =>
    simp only [assign]
    split
    · rename_i he
      simp [lookup, he, h.symm]
    · split
      · simp [lookup, h.symm]
      · simp [lookup, ih]

theorem lookup_eq_none {key : String} {m : Fields} (h : key ∉ m.map (·.1)) :
    lookup key m = none := by
  induction m with
  | nil => rfl
  | cons p rest ih =>
    rw [List.map_cons, List.mem_cons, not_or] at h
    rw [lookup, if_neg (Ne.symm h.1), ih h.2]

theorem remove_assign_self (key : String) (v : Json) (m : Fields) :
    remove key (assign key v m) = remove key m := by
  induction m with
  | nil => simp [assign, remove]
  | cons p rest ih =>
    simp only [assign, remove] at ih ⊢
    split
    · rename_i he
      simp [he]
    · split
      · simp
      · simp only [List.filter_cons, ih]

theorem remove_of_lookup_none {key : String} {m : Fields} (h : lookup key m = none) :
    remove key m = m := by
  induction m with
  | nil => rfl
  | cons p rest ih =>
    simp only [lookup] at h
    split at h
    · cases h
    · rename_i hne
      simp only [remove] at ih ⊢
      rw [List.filter_cons_of_pos (by simpa using hne), ih h]

/-! ## Key order -/

def Ordered (m : Fields) : Prop := m.Pairwise fun p q => p.1 < q.1

theorem mem_assign {key : String} {v : Json} {m : Fields} {p : String × Json}
    (h : p ∈ assign key v m) : p = (key, v) ∨ p ∈ m := by
  induction m with
  | nil => simpa [assign] using h
  | cons q rest ih =>
    simp only [assign] at h
    split at h
    · rcases List.mem_cons.mp h with rfl | h
      · exact .inl rfl
      · exact .inr (List.mem_cons_of_mem q h)
    · split at h
      · rcases List.mem_cons.mp h with rfl | h
        · exact .inl rfl
        · exact .inr h
      · rcases List.mem_cons.mp h with rfl | h
        · exact .inr (List.mem_cons_self ..)
        · rcases ih h with heq | hmem
          · exact .inl heq
          · exact .inr (List.mem_cons_of_mem q hmem)

theorem assign_ordered (key : String) (v : Json) {m : Fields} (h : Ordered m) :
    Ordered (assign key v m) := by
  induction m with
  | nil => simp [assign, Ordered]
  | cons q rest ih =>
    obtain ⟨first, ordered⟩ := List.pairwise_cons.mp h
    simp only [assign]
    split
    · rename_i heq
      exact List.pairwise_cons.mpr ⟨fun p hp => heq ▸ first p hp, ordered⟩
    · rename_i hne
      split
      · rename_i hlt
        refine List.pairwise_cons.mpr ⟨?_, h⟩
        intro p hp
        rcases List.mem_cons.mp hp with rfl | hp
        · exact hlt
        · exact String.lt_trans hlt (first p hp)
      · rename_i hnlt
        refine List.pairwise_cons.mpr ⟨?_, ih ordered⟩
        intro p hp
        rcases mem_assign hp with heq | hp
        · rcases Std.lt_trichotomy q.1 key with hlt | heq' | hlt
          · rw [heq]
            exact hlt
          · exact absurd heq' hne
          · exact absurd hlt hnlt
        · exact first p hp

/-- A map as an object. -/
def ofMap (m : Fields) : Fields := m.foldr (fun p fields => assign p.1 p.2 fields) []

theorem ofMap_ordered (m : Fields) : Ordered (ofMap m) := by
  induction m with
  | nil => exact .nil
  | cons p rest ih => exact assign_ordered p.1 p.2 ih

theorem mem_ofMap {m : Fields} {p : String × Json} (h : p ∈ ofMap m) : p ∈ m := by
  induction m with
  | nil => cases h
  | cons q rest ih =>
    rcases mem_assign h with heq | hmem
    · rw [heq]
      exact List.mem_cons_self ..
    · exact List.mem_cons_of_mem q (ih hmem)

theorem Ordered.lookup_eq_none {p : String × Json} {rest : Fields} (h : Ordered (p :: rest)) :
    lookup p.1 rest = none := by
  apply Json.lookup_eq_none
  intro hmem
  obtain ⟨q, hq, heq⟩ := List.mem_map.mp hmem
  have later := (List.pairwise_cons.mp h).1 q hq
  rw [heq] at later
  exact absurd later (String.lt_irrefl _)

@[simp] theorem lookup_ofMap (key : String) (m : Fields) : lookup key (ofMap m) = lookup key m := by
  induction m with
  | nil => rfl
  | cons p rest ih =>
    change lookup key (assign p.1 p.2 (ofMap rest)) = _
    by_cases h : p.1 = key
    · rw [← h, lookup_assign_self, lookup, if_pos rfl]
    · rw [lookup_assign_of_ne (Ne.symm h), ih, lookup, if_neg h]

/-! ## Reading -/

/-- The member under a key; only objects have members. -/
def find? (key : String) : Json → Option Json
  | object fields => lookup key fields
  | _ => none

def contains (key : String) (j : Json) : Bool := (j.find? key).isSome

/-- What a range-based loop goes over; a single value counts as its only element. -/
def elements : Json → List Json
  | null => []
  | array xs => xs
  | object fields => fields.map (·.2)
  | j => [j]

def isNull : Json → Bool
  | null => true
  | _ => false

def isNumber : Json → Bool
  | unsigned _ | integer _ => true
  | _ => false

def getUInt64 : Json → Throws UInt64
  | unsigned n => .ok n
  | integer n => .ok n.toUInt64
  | _ => .error (.typeError 302)

/-- A wider number is cut off to its low 32 bits; at this type truth values count
as numbers. -/
def getUInt32 : Json → Throws UInt32
  | unsigned n => .ok n.toUInt32
  | integer n => .ok n.toUInt64.toUInt32
  | bool b => .ok (if b then 1 else 0)
  | _ => .error (.typeError 302)

def getInt32 : Json → Throws Int32
  | unsigned n => .ok n.toUInt32.toInt32
  | integer n => .ok n.toInt32
  | bool b => .ok (if b then 1 else 0)
  | _ => .error (.typeError 302)

def getBool : Json → Throws Bool
  | bool b => .ok b
  | _ => .error (.typeError 302)

def getString : Json → Throws String
  | string s => .ok s
  | _ => .error (.typeError 302)

def getStrings : Json → Throws (List String)
  | array xs => xs.mapM getString
  | _ => .error (.typeError 302)

/-- `j.value(key, default)`, for each type the value can be read at. -/
def value {α : Type} (get : Json → Throws α) (key : String) (default : α) : Json → Throws α
  | object fields =>
    match lookup key fields with
    | some v => get v
    | none => .ok default
  | _ => .error (.typeError 306)

def valueUInt64 (key : String) (default : UInt64) (j : Json) : Throws UInt64 :=
  j.value getUInt64 key default

def valueUInt32 (key : String) (default : UInt32) (j : Json) : Throws UInt32 :=
  j.value getUInt32 key default

def valueInt32 (key : String) (default : Int32) (j : Json) : Throws Int32 :=
  j.value getInt32 key default

def valueBool (key : String) (default : Bool) (j : Json) : Throws Bool :=
  j.value getBool key default

def valueString (key : String) (default : String) (j : Json) : Throws String :=
  j.value getString key default

/-! ## Writing -/

/-- `j[key] = v`; a null value becomes an object first. -/
def set (j : Json) (key : String) (v : Json) : Throws Json :=
  match j with
  | null => .ok (object [(key, v)])
  | object fields => .ok (object (assign key v fields))
  | _ => .error (.typeError 305)

/-- `j.push_back(v)`; a null value becomes an array first. -/
def pushBack (j v : Json) : Throws Json :=
  match j with
  | null => .ok (array [v])
  | array xs => .ok (array (xs ++ [v]))
  | _ => .error (.typeError 308)

/-- An object written out member by member. -/
def ofFields (members : List (String × Json)) : Json :=
  object (members.foldl (fun fields p => assign p.1 p.2 fields) [])

theorem lookup_foldl_assign (key : String) (members m : Fields) (h : (members.map (·.1)).Nodup) :
    lookup key (members.foldl (fun fields p => assign p.1 p.2 fields) m) =
      (lookup key members).or (lookup key m) := by
  induction members generalizing m with
  | nil => rfl
  | cons p rest ih =>
    obtain ⟨fresh, distinct⟩ := List.nodup_cons.mp h
    rw [List.foldl_cons, ih _ distinct, lookup]
    by_cases hkey : p.1 = key
    · have absent : lookup key rest = none := by
        rw [← hkey]
        exact lookup_eq_none fresh
      rw [if_pos hkey, absent, ← hkey, lookup_assign_self]
      rfl
    · rw [if_neg hkey, lookup_assign_of_ne (Ne.symm hkey)]

/-- Members written under different keys are found as they were written. -/
theorem find?_ofFields (key : String) {members : Fields} (h : (members.map (·.1)).Nodup) :
    (ofFields members).find? key = lookup key members := by
  change lookup key (members.foldl _ []) = _
  rw [lookup_foldl_assign key members [] h]
  exact Option.or_none

theorem value_ofFields {α : Type} (get : Json → Throws α) (key : String) (default : α)
    {members : Fields} (h : (members.map (·.1)).Nodup) :
    (ofFields members).value get key default =
      match lookup key members with
      | some v => get v
      | none => .ok default := by
  have found : lookup key _ = lookup key members := find?_ofFields key h
  simp only [ofFields, value, found]

@[simp] theorem find?_object (key : String) (fields : Fields) :
    (object fields).find? key = lookup key fields := rfl

@[simp] theorem set_object (key : String) (v : Json) (fields : Fields) :
    (object fields).set key v = .ok (object (assign key v fields)) := rfl

@[simp] theorem pushBack_array (xs : List Json) (v : Json) :
    (array xs).pushBack v = .ok (array (xs ++ [v])) := rfl

/-- Appending a whole list to an array always succeeds. -/
theorem foldlM_pushBack_array (xs ys : List Json) :
    ys.foldlM pushBack (array xs) = .ok (array (xs ++ ys)) := by
  induction ys generalizing xs with
  | nil => simp [pure, Except.pure]
  | cons y ys ih =>
    rw [List.foldlM_cons, pushBack_array]
    exact (ih (xs ++ [y])).trans (by simp)

/-- The value without one of its members. -/
def erase (key : String) : Json → Json
  | object fields => object (remove key fields)
  | j => j

end Json

end MidnightSdk
