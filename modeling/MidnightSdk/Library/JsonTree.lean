import Mathlib.Data.Char
import Mathlib.Data.List.Lex
import MidnightSdk.Library.Cpp
import MidnightSdk.Library.OrderedMap

/-!
# JSON values over byte strings

JSON values whose texts are any byte strings, a byte being the character of its
code, and with floating-point numbers as their bit patterns. An integer is one
number, whichever of its two types holds it. Only texts that are UTF-8 can be
written out.
-/

namespace MidnightSdk

open Cpp

inductive JsonTree where
  | null
  | boolean (b : Bool)
  | integer (n : Int)
  | float (bits : UInt64)
  | string (text : List Char)
  | array (elements : List JsonTree)
  | object (members : List (List Char × JsonTree))
  deriving Repr

namespace JsonTree

/-! ## Reading -/

/-- The member under a key; only objects have members. -/
def find? (key : String) : JsonTree → Option JsonTree
  | object members => members.lookup key.toList
  | _ => none

def contains (j : JsonTree) (key : String) : Bool := (j.find? key).isSome

def isObject : JsonTree → Bool
  | object _ => true
  | _ => false

/-- `j.items()` of an object. -/
def items : JsonTree → List (List Char × JsonTree)
  | object members => members
  | _ => []

/-- `static_cast` of a double to an integer: towards zero. Outside the range of the integer
the language leaves the result open. -/
def truncated (bits : UInt64) : Int :=
  let exponent := (bits >>> 52 &&& 0x7FF).toNat
  let fraction := (bits &&& 0xFFFFFFFFFFFFF).toNat
  let mantissa := if exponent = 0 then fraction else fraction + 0x10000000000000
  let size := if 1075 ≤ exponent then mantissa <<< (exponent - 1075) else mantissa >>> (1075 - exponent)
  if bits >>> 63 = 0 then size else -size

def getString : JsonTree → Throws (List Char)
  | string text => .ok text
  | _ => .error (.typeError 302)

def getBool : JsonTree → Throws Bool
  | boolean b => .ok b
  | _ => .error (.typeError 302)

def getUInt64 : JsonTree → Throws UInt64
  | integer n => .ok (UInt64.ofInt n)
  | float bits => .ok (UInt64.ofInt (truncated bits))
  | _ => .error (.typeError 302)

/-- At the narrower types truth values count as numbers. -/
def getUInt32 : JsonTree → Throws UInt32
  | integer n => .ok (UInt32.ofInt n)
  | float bits => .ok (UInt32.ofInt (truncated bits))
  | boolean b => .ok (if b then 1 else 0)
  | _ => .error (.typeError 302)

def getInt32 : JsonTree → Throws Int32
  | integer n => .ok (Int32.ofInt n)
  | float bits => .ok (Int32.ofInt (truncated bits))
  | boolean b => .ok (if b then 1 else 0)
  | _ => .error (.typeError 302)

def getStrings : JsonTree → Throws (List (List Char))
  | array elements => elements.mapM getString
  | _ => .error (.typeError 302)

/-- `j.at(key)` -/
def at' (j : JsonTree) (key : String) : Throws JsonTree :=
  match j with
  | object members =>
    match members.lookup key.toList with
    | some v => .ok v
    | none => .error (.outOfRange ("key '" ++ key ++ "' not found"))
  | _ => .error (.typeError 304)

/-- `j.value(key, default)` -/
def value {α : Type} (get : JsonTree → Throws α) (j : JsonTree) (key : String) (default : α) :
    Throws α :=
  match j with
  | object members =>
    match members.lookup key.toList with
    | some v => get v
    | none => .ok default
  | _ => .error (.typeError 306)

def valueString (j : JsonTree) (key : String) (default : List Char) : Throws (List Char) :=
  j.value getString key default

def valueBool (j : JsonTree) (key : String) (default : Bool) : Throws Bool :=
  j.value getBool key default

/-- What is under the key, if anything, passes a test. -/
def Fits (j : JsonTree) (key : String) (test : JsonTree → Bool) : Prop :=
  ∀ v, j.find? key = some v → test v = true

/-- A member of an object is read exactly when there is none or it is of the type asked for. -/
theorem value_reads {α : Type} {get : JsonTree → Throws α} {test : JsonTree → Bool}
    (hget : ∀ v, (∃ a, get v = .ok a) ↔ test v = true) {j : JsonTree} (object : j.isObject = true)
    (key : String) (default : α) : (∃ a, j.value get key default = .ok a) ↔ j.Fits key test := by
  cases j with
  | object members =>
    cases found : members.lookup key.toList with
    | none => simp [value, Fits, find?, found]
    | some v => simp [value, Fits, find?, found, hget]
  | _ => cases object

/-! ## Writing -/

/-- A default-constructed value after keys were assigned in this order: null after none. -/
def assigned (fields : List (List Char × JsonTree)) : JsonTree :=
  if fields.isEmpty then null
  else object (fields.foldl (fun members e => OrderedMap.place e.1 e.2 members) [])

/-- An object written out member by member. -/
def ofFields (fields : List (String × JsonTree)) : JsonTree :=
  object (fields.foldl (fun members e => OrderedMap.place e.1.toList e.2 members) [])

/-- `j[key] = value` for each entry of a map, `j` being default-constructed. -/
def ofMap {β : Type} (toJson : β → JsonTree) (m : OrderedMap (List Char) β) : JsonTree :=
  assigned (m.entries.map fun e => (e.1, toJson e.2))

/-- `m[key] = read(value)` for each item, when there is an object under the key. -/
def readMap {β : Type} (read : JsonTree → Throws β) (j : JsonTree) (key : String) :
    Throws (OrderedMap (List Char) β) :=
  match j.find? key with
  | some (object members) =>
    members.foldlM (fun m e => return m.assign e.1 (← read e.2)) OrderedMap.empty
  | _ => .ok OrderedMap.empty

/-! ## What is found -/

theorem lookup_foldl_place {fields members : List (List Char × JsonTree)}
    (h : (fields.map Prod.fst).Nodup) (key : List Char) :
    (fields.foldl (fun members e => OrderedMap.place e.1 e.2 members) members).lookup key =
      (fields.lookup key).or (members.lookup key) := by
  induction fields generalizing members with
  | nil => rfl
  | cons e fields ih =>
    obtain ⟨fresh, distinct⟩ := List.nodup_cons.mp h
    rw [List.foldl_cons, ih distinct, OrderedMap.lookup_place]
    by_cases here : key = e.1
    · have absent : fields.lookup key = none := by
        rw [List.lookup_eq_none_iff]
        intro p hp
        rw [bne_iff_ne, here]
        rintro same
        exact fresh (same ▸ List.mem_map_of_mem hp)
      rw [if_pos here, absent, here, List.lookup_cons, beq_self_eq_true]
      rfl
    · rw [if_neg here, List.lookup_cons, beq_eq_false_iff_ne.mpr here]

/-- Keys assigned once each are found with what they were assigned. -/
theorem find?_assigned {fields : List (List Char × JsonTree)} (h : (fields.map Prod.fst).Nodup)
    (key : String) : (assigned fields).find? key = fields.lookup key.toList := by
  cases fields with
  | nil => rfl
  | cons e fields =>
    change (List.foldl _ [] (e :: fields)).lookup key.toList = _
    rw [lookup_foldl_place h, List.lookup_nil, Option.or_none]

theorem lookup_map_toList (fields : List (String × JsonTree)) (key : String) :
    (fields.map fun e => (e.1.toList, e.2)).lookup key.toList = fields.lookup key := by
  induction fields with
  | nil => rfl
  | cons e fields ih =>
    have same : (key.toList == e.1.toList) = (key == e.1) := by
      rw [Bool.eq_iff_iff, beq_iff_eq, beq_iff_eq, String.toList_inj]
    rw [List.map_cons, List.lookup_cons, List.lookup_cons, same, ih]

theorem keys_nodup_toList {fields : List (String × JsonTree)} (h : (fields.map Prod.fst).Nodup) :
    ((fields.map fun e => (e.1.toList, e.2)).map Prod.fst).Nodup := by
  have keys := h.map (f := String.toList) fun _ _ same => String.toList_inj.mp same
  rw [List.map_map] at keys ⊢
  exact keys

theorem find?_ofFields {fields : List (String × JsonTree)} (h : (fields.map Prod.fst).Nodup)
    (key : String) : (ofFields fields).find? key = fields.lookup key := by
  have found := @lookup_foldl_place _ [] (keys_nodup_toList h) key.toList
  rw [List.foldl_map, List.lookup_nil, Option.or_none, lookup_map_toList] at found
  exact found

theorem at'_eq {j v : JsonTree} {key : String} (h : j.find? key = some v) : j.at' key = .ok v := by
  cases j with
  | object members =>
    change members.lookup key.toList = some v at h
    rw [at', h]
  | _ => cases h

theorem at'_ofFields {fields : List (String × JsonTree)} (h : (fields.map Prod.fst).Nodup)
    {key : String} {v : JsonTree} (found : fields.lookup key = some v) :
    (ofFields fields).at' key = .ok v :=
  at'_eq ((find?_ofFields h key).trans found)

theorem value_eq {α : Type} (get : JsonTree → Throws α) {j v : JsonTree} {key : String}
    (h : j.find? key = some v) (default : α) : j.value get key default = get v := by
  cases j with
  | object members =>
    change members.lookup key.toList = some v at h
    rw [value, h]
  | _ => cases h

theorem value_ofFields {α : Type} {get : JsonTree → Throws α} {fields : List (String × JsonTree)}
    (h : (fields.map Prod.fst).Nodup) {key : String} {v : JsonTree}
    (found : fields.lookup key = some v) (default : α) :
    (ofFields fields).value get key default = get v :=
  value_eq get ((find?_ofFields h key).trans found) default

theorem valueString_ofFields {fields : List (String × JsonTree)}
    (h : (fields.map Prod.fst).Nodup) {key : String} {text : List Char}
    (found : fields.lookup key = some (string text)) (default : List Char) :
    (ofFields fields).valueString key default = .ok text :=
  value_ofFields h found default

@[simp] theorem getString_string (text : List Char) : (string text).getString = .ok text := rfl

theorem getUInt64_toNat (n : UInt64) : (integer n.toNat).getUInt64 = .ok n := by
  have range := n.toNat_lt
  have small : ((n.toNat : Int) % 2 ^ 64).toNat = n.toNat := by omega
  rw [getUInt64, UInt64.ofInt, small, UInt64.ofNat_toNat]

theorem getUInt32_toNat (n : UInt32) : (integer n.toNat).getUInt32 = .ok n := by
  have range := n.toNat_lt
  have small : ((n.toNat : Int) % 2 ^ 32).toNat = n.toNat := by omega
  rw [getUInt32, UInt32.ofInt, small, UInt32.ofNat_toNat]

theorem getInt32_toInt (n : Int32) : (integer n.toInt).getInt32 = .ok n :=
  congrArg Except.ok (Int32.ofInt_toInt n)

/-- A map that was written is read back, an empty one too. -/
theorem readMap_ofMap {β : Type} {toJson : β → JsonTree} {read : JsonTree → Throws β}
    {m : OrderedMap (List Char) β} (h : ∀ e ∈ m.entries, read (toJson e.2) = .ok e.2)
    {j : JsonTree} {key : String} (hj : j.find? key = some (ofMap toJson m)) :
    readMap read j key = .ok m := by
  have step : ∀ (entries : List (List Char × β)) (start : OrderedMap (List Char) β),
      (∀ e ∈ entries, read (toJson e.2) = .ok e.2) →
      (entries.map fun e => (e.1, toJson e.2)).foldlM
          (fun m e => return m.assign e.1 (← read e.2)) start =
        Except.ok (ε := Exception) (entries.foldl (fun m e => m.assign e.1 e.2) start) := by
    intro entries
    induction entries with
    | nil => exact fun start _ => rfl
    | cons e entries ih =>
      intro start hread
      obtain ⟨here, later⟩ := List.forall_mem_cons.mp hread
      rw [List.map_cons, List.foldlM_cons, here]
      exact ih (start.assign e.1 e.2) later
  have members : (m.entries.map fun e => (e.1, toJson e.2)).foldl
      (fun members e => OrderedMap.place e.1 e.2 members) [] =
        m.entries.map fun e => (e.1, toJson e.2) := by
    rw [List.foldl_map]
    exact OrderedMap.foldl_place_entries toJson m
  have whole := OrderedMap.ofEntries_entries m
  rw [ofMap, assigned] at hj
  cases hentries : m.entries with
  | nil =>
    rw [hentries] at hj whole
    rw [readMap, hj, ← whole]
    rfl
  | cons e entries =>
    rw [members, hentries] at hj
    rw [readMap, hj]
    change ((e :: entries).map fun e => (e.1, toJson e.2)).foldlM _ _ = _
    rw [← hentries, step m.entries _ h]
    exact congrArg Except.ok whole

theorem readMap_strings {m : OrderedMap (List Char) (List Char)} {j : JsonTree} {key : String}
    (hj : j.find? key = some (ofMap string m)) : readMap getString j key = .ok m :=
  readMap_ofMap (fun _ _ => rfl) hj

/-- An empty map that left nothing behind. -/
theorem readMap_absent {β : Type} (read : JsonTree → Throws β) {m : OrderedMap (List Char) β}
    (hm : m.entries = []) {j : JsonTree} {key : String} (hj : j.find? key = none) :
    readMap read j key = .ok m := by
  have whole := OrderedMap.ofEntries_entries m
  rw [hm] at whole
  rw [readMap, hj]
  exact congrArg Except.ok whole

/-! ## Texts -/

/-- The bytes that may follow a first one, as ranges; `none` when it starts nothing. -/
def followers (n : Nat) : Option (List (Nat × Nat)) :=
  if n < 0x80 then some []
  else if 0xC2 ≤ n ∧ n ≤ 0xDF then some [(0x80, 0xBF)]
  else if n = 0xE0 then some [(0xA0, 0xBF), (0x80, 0xBF)]
  else if n = 0xED then some [(0x80, 0x9F), (0x80, 0xBF)]
  else if 0xE1 ≤ n ∧ n ≤ 0xEF then some [(0x80, 0xBF), (0x80, 0xBF)]
  else if n = 0xF0 then some [(0x90, 0xBF), (0x80, 0xBF), (0x80, 0xBF)]
  else if 0xF1 ≤ n ∧ n ≤ 0xF3 then some [(0x80, 0xBF), (0x80, 0xBF), (0x80, 0xBF)]
  else if n = 0xF4 then some [(0x80, 0x8F), (0x80, 0xBF), (0x80, 0xBF)]
  else none

def utf8From (expected : List (Nat × Nat)) : List Char → Bool
  | [] => expected.isEmpty
  | c :: rest =>
    match expected with
    | (low, high) :: expected => low ≤ c.toNat && c.toNat ≤ high && utf8From expected rest
    | [] =>
      match followers c.toNat with
      | some expected => utf8From expected rest
      | none => false

/-- Well-formed UTF-8. -/
def utf8 (text : List Char) : Bool := utf8From [] text

theorem utf8_of_ascii {text : List Char} (h : ∀ c ∈ text, c.toNat < 0x80) : utf8 text = true := by
  induction text with
  | nil => rfl
  | cons c text ih =>
    obtain ⟨here, later⟩ := List.forall_mem_cons.mp h
    rw [utf8, utf8From, followers, if_pos here]
    exact ih later

mutual

/-- Every string and every key is UTF-8. -/
def writable : JsonTree → Bool
  | string text => utf8 text
  | array elements => writableElements elements
  | object members => writableMembers members
  | _ => true

def writableElements : List JsonTree → Bool
  | [] => true
  | j :: rest => writable j && writableElements rest

def writableMembers : List (List Char × JsonTree) → Bool
  | [] => true
  | (key, j) :: rest => utf8 key && writable j && writableMembers rest

end

theorem writableElements_iff {elements : List JsonTree} :
    writableElements elements = true ↔ ∀ j ∈ elements, writable j = true := by
  induction elements with
  | nil => simp [writableElements]
  | cons j elements ih =>
    rw [writableElements, Bool.and_eq_true, ih, List.forall_mem_cons]

theorem writableMembers_iff {members : List (List Char × JsonTree)} :
    writableMembers members = true ↔ ∀ m ∈ members, utf8 m.1 = true ∧ writable m.2 = true := by
  induction members with
  | nil => simp [writableMembers]
  | cons m members ih =>
    obtain ⟨key, j⟩ := m
    rw [writableMembers, Bool.and_eq_true, Bool.and_eq_true, ih, List.forall_mem_cons]

/-- Keys assigned once each displace nothing. -/
theorem foldl_place_perm {fields members : List (List Char × JsonTree)}
    (h : ((fields ++ members).map Prod.fst).Nodup) :
    (fields.foldl (fun members e => OrderedMap.place e.1 e.2 members) members).Perm
      (fields ++ members) := by
  induction fields generalizing members with
  | nil => exact .refl _
  | cons e fields ih =>
    rw [List.cons_append, List.map_cons, List.nodup_cons] at h
    have fresh : e.1 ∉ members.map Prod.fst := by
      intro found
      rw [List.map_append] at h
      exact h.1 (List.mem_append_right _ found)
    have placed := OrderedMap.place_perm (v := e.2) fresh
    have moved : (fields ++ OrderedMap.place e.1 e.2 members).Perm (e :: fields ++ members) :=
      (placed.append_left fields).trans List.perm_middle
    have nodup : ((fields ++ OrderedMap.place e.1 e.2 members).map Prod.fst).Nodup := by
      rw [(moved.map Prod.fst).nodup_iff]
      exact List.nodup_cons.mpr h
    exact (ih nodup).trans moved

/-- An object can be written when its keys and its values can. -/
theorem writable_ofFields {fields : List (String × JsonTree)} (h : (fields.map Prod.fst).Nodup) :
    (ofFields fields).writable = true ↔
      ∀ e ∈ fields, utf8 e.1.toList = true ∧ e.2.writable = true := by
  have perm := @foldl_place_perm (fields.map fun e => (e.1.toList, e.2)) []
  rw [List.append_nil, List.foldl_map] at perm
  replace perm := perm (keys_nodup_toList h)
  rw [ofFields, writable, writableMembers_iff]
  constructor
  · intro each e he
    exact each _ (perm.mem_iff.mpr (List.mem_map_of_mem he))
  · intro each m hm
    obtain ⟨e, he, rfl⟩ := List.mem_map.mp (perm.mem_iff.mp hm)
    exact each e he

/-- Integers the library has, keys in their order, and no floating-point numbers. -/
inductive Plain : JsonTree → Prop
  | null : Plain null
  | boolean (b : Bool) : Plain (boolean b)
  | integer {n : Int} (low : -0x8000000000000000 ≤ n) (high : n < 0x10000000000000000) : Plain (integer n)
  | string (text : List Char) : Plain (string text)
  | array {elements : List JsonTree} (each : ∀ j ∈ elements, Plain j) : Plain (array elements)
  | object {members : List (List Char × JsonTree)} (ordered : members.Pairwise (·.1 < ·.1))
      (each : ∀ m ∈ members, Plain m.2) : Plain (object members)

theorem Plain.ofFields {fields : List (String × JsonTree)} (h : ∀ e ∈ fields, Plain e.2) :
    Plain (ofFields fields) := by
  have step : ∀ members : List (List Char × JsonTree), members.Pairwise (·.1 < ·.1) →
      (∀ m ∈ members, Plain m.2) →
      Plain (JsonTree.object (fields.foldl
        (fun members e => OrderedMap.place e.1.toList e.2 members) members)) := by
    induction fields with
    | nil => exact fun members ordered each => .object ordered each
    | cons e fields ih =>
      obtain ⟨here, later⟩ := List.forall_mem_cons.mp h
      intro members ordered each
      refine ih later _ (OrderedMap.place_sorted e.1.toList e.2 ordered) ?_
      intro m hm
      rcases OrderedMap.mem_place hm with rfl | hm
      · exact here
      · exact each m hm
  exact step [] .nil nofun

end JsonTree

/-- `json::dump` and `json::parse`. What cannot be written is refused, and what was
written is read as it was. -/
structure JsonFormat (Text : Type) where
  dump : JsonTree → Throws Text
  parse : Text → Option JsonTree
  /-- No text at all. -/
  blank : Text
  dump_refused {j : JsonTree} : j.writable = false → dump j = .error (.typeError 316)
  dump_writable {j : JsonTree} : j.writable = true → ∃ text, dump j = .ok text
  parse_dump {j : JsonTree} {text : Text} : j.Plain → dump j = .ok text → parse text = some j
  parse_blank : parse blank = none

/-- Texts that are the values themselves. -/
def JsonFormat.values : JsonFormat (Option JsonTree) where
  dump j := if j.writable then .ok (some j) else .error (.typeError 316)
  parse text := text
  blank := none
  dump_refused h := by rw [h]; rfl
  dump_writable {j} h := ⟨some j, by rw [h]; rfl⟩
  parse_dump {j text} _ h := by
    cases hw : j.writable with
    | true =>
      rw [hw] at h
      cases h
      rfl
    | false =>
      rw [hw] at h
      cases h
  parse_blank := rfl

end MidnightSdk
