import MidnightSdk.Library.JsonTree

/-!
# JSON values that are read back as they were

Values built from texts, truth values, machine words, lists and fields. Writing one
of them and reading the text gives it back, whatever the format is.
-/

namespace MidnightSdk

open Cpp JsonTree

structure PlainJson where
  tree : JsonTree
  plain : tree.Plain

namespace PlainJson

def null : PlainJson := ⟨.null, .null⟩

def boolean (b : Bool) : PlainJson := ⟨.boolean b, .boolean b⟩

def text (t : List Char) : PlainJson := ⟨.string t, .string t⟩

def string (s : String) : PlainJson := text s.toList

/-- A text of bytes. -/
def bytes (b : List UInt8) : PlainJson := text (textOf b)

def word64 (n : UInt64) : PlainJson where
  tree := .integer n.toNat
  plain := .integer (by omega) (by have := n.toNat_lt; omega)

def word32 (n : UInt32) : PlainJson := word64 n.toUInt64

def word8 (n : UInt8) : PlainJson := word64 n.toUInt64

/-- An empty optional is null. -/
def optional {α : Type} (toJson : α → PlainJson) : Option α → PlainJson
  | none => null
  | some a => toJson a

def array {α : Type} (toJson : α → PlainJson) (elements : List α) : PlainJson where
  tree := .array (elements.map fun a => (toJson a).tree)
  plain := by
    apply Plain.array
    intro j hj
    obtain ⟨a, -, rfl⟩ := List.mem_map.mp hj
    exact (toJson a).plain

def ofFields (fields : List (String × PlainJson)) : PlainJson where
  tree := .ofFields (fields.map fun e => (e.1, e.2.tree))
  plain := by
    apply Plain.ofFields
    intro e he
    obtain ⟨field, -, rfl⟩ := List.mem_map.mp he
    exact field.2.plain

def writable (j : PlainJson) : Bool := j.tree.writable

/-- Fields are written exactly when each of them can be. -/
theorem writable_ofFields {fields : List (String × PlainJson)} (h : (fields.map Prod.fst).Nodup) :
    (ofFields fields).writable = true ↔
      ∀ e ∈ fields, utf8 e.1.toList = true ∧ e.2.writable = true := by
  have keys : ((fields.map fun e => (e.1, e.2.tree)).map Prod.fst).Nodup := by
    rw [List.map_map]
    exact h
  rw [writable, ofFields, JsonTree.writable_ofFields keys, List.forall_mem_map]
  rfl

variable {Text : Type} {format : JsonFormat Text} {j : PlainJson}

/-- What could be written is read back. -/
theorem parse_dump {text : Text} (h : format.dump j.tree = .ok text) :
    format.parse text = some j.tree :=
  format.parse_dump j.plain h

theorem dump_eq_ok : (∃ text, format.dump j.tree = .ok text) ↔ j.writable = true := by
  constructor
  · rintro ⟨text, h⟩
    by_contra hnot
    rw [format.dump_refused ((Bool.not_eq_true _).mp hnot)] at h
    cases h
  · exact format.dump_writable

end PlainJson

end MidnightSdk
