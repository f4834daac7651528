import MidnightSdk.Library.ByteReader

/-!
# Records of fixed fields

A record is read field by field, and an exception leaves what was read before it. So bytes that end
too early are read like those with zeros in place of every field that is not there whole, if zeros
change nothing about the record one starts with.
-/

namespace MidnightSdk.ByteReader

open Cpp

variable {σ : Type}

/-- A field: how wide it is, how it is read, and what its bytes make of the record. -/
structure RecordField (σ : Type) where
  width : Nat
  reader : Reader (σ → σ)
  set : List UInt8 → σ → σ

/-- The assignments of the fields in turn, up to an exception; `none` is a read outside. -/
def readFields (buf : Buffer) : List (RecordField σ) → σ → UInt64 → Option σ
  | [], record, _ => some record
  | field :: fields, record, o =>
    match field.reader buf o with
    | .ok set o => readFields buf fields (set record) o
    | .throws _ _ => some record
    | .outOfBounds _ => none

/-- The same without a look at how many bytes there are. -/
def setAll : List (RecordField σ) → List UInt8 → σ → σ
  | [], _, record => record
  | field :: fields, bytes, record =>
    setAll fields (bytes.drop field.width) (field.set (bytes.take field.width) record)

def widths (fields : List (RecordField σ)) : Nat := (fields.map RecordField.width).sum

/-- How many bytes of so many belong to fields that are there whole. -/
def wholeFields : List (RecordField σ) → Nat → Nat
  | [], _ => 0
  | field :: fields, n =>
    if n < field.width then 0 else field.width + wholeFields fields (n - field.width)

/-- The whole fields, and zeros for the others. -/
def padded (fields : List (RecordField σ)) (bytes : List UInt8) : List UInt8 :=
  let whole := wholeFields fields bytes.length
  bytes.take whole ++ List.replicate (widths fields - whole) 0

/-- Zeros change nothing about the record, whatever the fields before them are. -/
def Blank : List (RecordField σ) → σ → Prop
  | [], _ => True
  | field :: fields, record =>
    setAll (field :: fields) (List.replicate (widths (field :: fields)) 0) record = record ∧
      ∀ bytes, Blank fields (field.set bytes record)

theorem widths_cons (field : RecordField σ) (fields : List (RecordField σ)) :
    widths (field :: fields) = field.width + widths fields := rfl

/-- The bytes of the first field, and the others. -/
theorem setAll_append {field : RecordField σ} {fields : List (RecordField σ)}
    {front bytes : List UInt8} (h : front.length = field.width) (record : σ) :
    setAll (field :: fields) (front ++ bytes) record =
      setAll fields bytes (field.set front record) := by
  rw [setAll, List.take_left' h, List.drop_left' h]

theorem wholeFields_le (fields : List (RecordField σ)) (n : Nat) : wholeFields fields n ≤ n := by
  induction fields generalizing n with
  | nil => exact Nat.zero_le n
  | cons field fields ih =>
    have rest := ih (n - field.width)
    rw [wholeFields]
    split
    · exact Nat.zero_le n
    · omega

theorem wholeFields_le_widths (fields : List (RecordField σ)) (n : Nat) :
    wholeFields fields n ≤ widths fields := by
  induction fields generalizing n with
  | nil => exact Nat.le_refl 0
  | cons field fields ih =>
    have rest := ih (n - field.width)
    rw [wholeFields, widths_cons]
    split
    · exact Nat.zero_le _
    · omega

theorem padded_length (fields : List (RecordField σ)) (bytes : List UInt8) :
    (padded fields bytes).length = widths fields := by
  have inside := wholeFields_le fields bytes.length
  have within := wholeFields_le_widths fields bytes.length
  rw [padded, List.length_append, List.length_take, List.length_replicate]
  omega

/-- Bytes enough for all fields are cut off behind them. -/
theorem padded_of_le {fields : List (RecordField σ)} {bytes : List UInt8}
    (h : widths fields ≤ bytes.length) : padded fields bytes = bytes.take (widths fields) := by
  have all : wholeFields fields bytes.length = widths fields := by
    generalize bytes.length = n at h
    induction fields generalizing n with
    | nil => rfl
    | cons field fields ih =>
      rw [widths_cons] at h ⊢
      rw [wholeFields, if_neg (by omega), ih (n - field.width) (by omega)]
  rw [padded, all, Nat.sub_self, List.replicate_zero, List.append_nil]

/-- A first field that is there whole is the first of the padded bytes. -/
theorem padded_cons {field : RecordField σ} {fields : List (RecordField σ)} {bytes : List UInt8}
    (h : field.width ≤ bytes.length) :
    padded (field :: fields) bytes =
      bytes.take field.width ++ padded fields (bytes.drop field.width) := by
  have count : field.width + widths fields -
      (field.width + wholeFields fields (bytes.length - field.width)) =
      widths fields - wholeFields fields (bytes.length - field.width) := by omega
  rw [padded, padded, wholeFields, if_neg (Nat.not_lt.mpr h), widths_cons, count, List.length_drop,
    ← List.append_assoc, List.take_add]

/-- **Fields are read as if those that are not there whole were zeros.** -/
theorem readFields_eq {e : Exception} {buf : Buffer} {fields : List (RecordField σ)} {record : σ}
    {o : UInt64} (sound : ∀ field ∈ fields, FixedWidth e field.reader field.width field.set)
    (blank : Blank fields record) (ho : o.toNat ≤ buf.bytes.length) :
    readFields buf fields record o =
      some (setAll fields (padded fields (buf.bytes.drop o.toNat)) record) := by
  induction fields generalizing record o with
  | nil => rfl
  | cons field fields ih =>
    have own := sound field List.mem_cons_self
    rw [readFields]
    by_cases short : (buf.bytes.drop o.toNat).length < field.width
    · rw [own.short buf o ho (by rw [List.length_drop] at short; omega)]
      have none : padded (field :: fields) (buf.bytes.drop o.toNat) =
          List.replicate (widths (field :: fields)) 0 := by
        rw [padded, wholeFields, if_pos short]
        rfl
      rw [none, blank.1]
    · have enough := Nat.not_lt.mp short
      have width : ((buf.bytes.drop o.toNat).take field.width).length = field.width :=
        List.length_take_of_le enough
      have front : buf.bytes.drop o.toNat = (buf.bytes.drop o.toNat).take field.width ++
          (buf.bytes.drop o.toNat).drop field.width := (List.take_append_drop _ _).symm
      rw [own.take ho rfl enough]
      dsimp only
      rw [ih (fun field' h => sound field' (List.mem_cons_of_mem _ h)) (blank.2 _)
        (by rw [toNat_add_front ho front]; exact front_le ho front), drop_front ho front,
        padded_cons enough, setAll_append width]

end MidnightSdk.ByteReader
