import Mathlib.Data.List.Basic
import Mathlib.Tactic.Common

/-!
# Numbered fields written by their steps

A field is written as the step from the number in front of it, the length of its
value and the value. Step and length share one byte, four bits each, and go on in
up to two bytes more. A body is such fields and then, behind a marker, a payload.
-/

namespace MidnightSdk.DeltaOptions

structure Numbered where
  number : Nat
  value : List UInt8
  deriving DecidableEq, Repr

/-! ## Steps and lengths -/

/-- The greatest number two extension bytes can hold. -/
def greatest : Nat := 269 + 65535

def nibble (n : Nat) : Nat := if n < 13 then n else if n < 269 then 13 else 14

def extension (n : Nat) : List UInt8 :=
  if n < 13 then []
  else if n < 269 then [UInt8.ofNat (n - 13)]
  else [UInt8.ofNat ((n - 269) / 256), UInt8.ofNat ((n - 269) % 256)]

def readExtended (nib : Nat) (bytes : List UInt8) : Option (Nat × List UInt8) :=
  match nib, bytes with
  | 13, b :: rest => some (13 + b.toNat, rest)
  | 14, b :: c :: rest => some (269 + 256 * b.toNat + c.toNat, rest)
  | n, bytes => if n < 13 then some (n, bytes) else none

theorem nibble_lt (n : Nat) : nibble n < 15 := by
  unfold nibble
  split
  · omega
  · split <;> omega

theorem readExtended_short {n : Nat} (h : n < 13) (rest : List UInt8) :
    readExtended n rest = some (n, rest) := by
  unfold readExtended
  split
  · omega
  · omega
  · rw [if_pos h]

/-- A number is read back, and what stands behind it is left. -/
theorem readExtended_extension {n : Nat} (h : n ≤ greatest) (rest : List UInt8) :
    readExtended (nibble n) (extension n ++ rest) = some (n, rest) := by
  unfold greatest at h
  by_cases short : n < 13
  · rw [nibble, extension, if_pos short, if_pos short]
    exact readExtended_short short rest
  · by_cases one : n < 269
    · have back : (UInt8.ofNat (n - 13)).toNat = n - 13 := by
        rw [UInt8.toNat_ofNat']
        omega
      have sum : 13 + (n - 13) = n := by omega
      simp only [nibble, extension, if_neg short, if_pos one, List.cons_append, List.nil_append,
        readExtended, back, sum]
    · have high : (UInt8.ofNat ((n - 269) / 256)).toNat = (n - 269) / 256 := by
        rw [UInt8.toNat_ofNat']
        omega
      have low : (UInt8.ofNat ((n - 269) % 256)).toNat = (n - 269) % 256 := by
        rw [UInt8.toNat_ofNat']
        omega
      have sum : 269 + 256 * ((n - 269) / 256) + (n - 269) % 256 = n := by omega
      simp only [nibble, extension, if_neg short, if_neg one, List.cons_append, List.nil_append,
        readExtended, high, low, sum]

theorem readExtended_length {nib n : Nat} {bytes rest : List UInt8}
    (h : readExtended nib bytes = some (n, rest)) : rest.length ≤ bytes.length := by
  unfold readExtended at h
  split at h
  · cases h
    simp
  · cases h
    simp only [List.length_cons]
    omega
  · split at h
    · cases h
      exact Nat.le_refl _
    · cases h

/-! ## One field -/

/-- The byte holding both nibbles. -/
def head (step length : Nat) : UInt8 := UInt8.ofNat (16 * nibble step + nibble length)

def encodeOne (step : Nat) (value : List UInt8) : List UInt8 :=
  head step value.length :: (extension step ++ (extension value.length ++ value))

/-- The step, the value and what stands behind them. -/
def readOne : List UInt8 → Option (Nat × List UInt8 × List UInt8)
  | [] => none
  | b :: bytes => do
    let (step, bytes) ← readExtended (b.toNat / 16) bytes
    let (length, bytes) ← readExtended (b.toNat % 16) bytes
    if length ≤ bytes.length then some (step, bytes.take length, bytes.drop length) else none

theorem toNat_head (step length : Nat) :
    (head step length).toNat = 16 * nibble step + nibble length := by
  have := nibble_lt step
  have := nibble_lt length
  rw [head, UInt8.toNat_ofNat']
  omega

theorem head_ne_marker (step length : Nat) : head step length ≠ 0xFF := by
  intro h
  have both := toNat_head step length
  have := nibble_lt step
  have := nibble_lt length
  rw [h] at both
  have : (0xFF : UInt8).toNat = 255 := rfl
  omega

/-- What a field with any two numbers in its head reads as. -/
theorem readOne_head {step length : Nat} (hstep : step ≤ greatest) (hlength : length ≤ greatest)
    {bytes : List UInt8} (fits : length ≤ bytes.length) :
    readOne (head step length :: (extension step ++ (extension length ++ bytes))) =
      some (step, bytes.take length, bytes.drop length) := by
  have high : (head step length).toNat / 16 = nibble step := by
    have := nibble_lt length
    rw [toNat_head]
    omega
  have low : (head step length).toNat % 16 = nibble length := by
    have := nibble_lt length
    rw [toNat_head]
    omega
  simp only [readOne, high, low, readExtended_extension hstep, readExtended_extension hlength,
    Option.bind_eq_bind, Option.bind_some, if_pos fits]

theorem readOne_encodeOne {step : Nat} {value : List UInt8} (hstep : step ≤ greatest)
    (hvalue : value.length ≤ greatest) (rest : List UInt8) :
    readOne (encodeOne step value ++ rest) = some (step, value, rest) := by
  have fits : value.length ≤ (value ++ rest).length := by simp
  have found := readOne_head hstep hvalue fits
  rw [List.take_left, List.drop_left] at found
  simpa [encodeOne] using found

/-- Reading a field takes at least one byte. -/
theorem readOne_length {bytes value rest : List UInt8} {step : Nat}
    (h : readOne bytes = some (step, value, rest)) : rest.length < bytes.length := by
  cases bytes with
  | nil => cases h
  | cons b bytes =>
    simp only [readOne, Option.bind_eq_bind, Option.bind_eq_some_iff] at h
    obtain ⟨⟨first, behind⟩, hfirst, ⟨length, left⟩, hlength, h⟩ := h
    have hbehind : behind.length ≤ bytes.length := readExtended_length hfirst
    have hleft : left.length ≤ behind.length := readExtended_length hlength
    split at h
    · cases h
      simp only [List.length_drop, List.length_cons]
      omega
    · cases h

/-! ## A body -/

def encode : Nat → List Numbered → List UInt8
  | _, [] => []
  | prev, f :: fields => encodeOne (f.number - prev) f.value ++ encode f.number fields

/-- The marker stands only in front of a payload. -/
def marked (payload : List UInt8) : List UInt8 := if payload = [] then [] else 0xFF :: payload

/-- The numbers never go down, and each step and each length can be written. -/
inductive Writable : Nat → List Numbered → Prop
  | nil {prev : Nat} : Writable prev []
  | cons {prev : Nat} {f : Numbered} {fields : List Numbered} (ascends : prev ≤ f.number)
      (step : f.number - prev ≤ greatest) (length : f.value.length ≤ greatest)
      (rest : Writable f.number fields) : Writable prev (f :: fields)

def readFuel : Nat → Nat → List UInt8 → Option (List Numbered × List UInt8)
  | _, _, [] => some ([], [])
  | 0, _, _ :: _ => none
  | fuel + 1, prev, b :: bytes =>
    if b = 0xFF then if bytes = [] then none else some ([], bytes)
    else do
      let (step, value, rest) ← readOne (b :: bytes)
      let (fields, payload) ← readFuel fuel (prev + step) rest
      return (⟨prev + step, value⟩ :: fields, payload)

/-- The fields of a body behind the number `prev`, and its payload. -/
def read (prev : Nat) (bytes : List UInt8) : Option (List Numbered × List UInt8) :=
  readFuel bytes.length prev bytes

theorem readFuel_eq_read {fuel prev : Nat} {bytes : List UInt8} (enough : bytes.length ≤ fuel) :
    readFuel fuel prev bytes = read prev bytes := by
  induction fuel using Nat.strongRecOn generalizing prev bytes with
  | ind fuel ih =>
    cases bytes with
    | nil =>
      cases fuel <;> rfl
    | cons b bytes =>
      obtain ⟨fuel, rfl⟩ : ∃ n, fuel = n + 1 := ⟨fuel - 1, by simp at enough; omega⟩
      simp only [List.length_cons, Nat.add_le_add_iff_right] at enough
      simp only [read, List.length_cons, readFuel]
      split
      · rfl
      · cases found : readOne (b :: bytes) with
        | none => rfl
        | some triple =>
          obtain ⟨step, value, rest⟩ := triple
          have shorter := readOne_length found
          simp only [List.length_cons] at shorter
          have here := @ih fuel (by omega) (prev + step) rest (by omega)
          have there : readFuel bytes.length (prev + step) rest = read (prev + step) rest := by
            rcases Nat.lt_or_ge bytes.length (fuel + 1) with hlt | hge
            · exact ih bytes.length hlt (by omega)
            · omega
          simp only [Option.bind_eq_bind, Option.bind_some, here, there]

theorem read_marked (prev : Nat) (payload : List UInt8) :
    read prev (marked payload) = some ([], payload) := by
  unfold marked
  split
  · subst payload
    rfl
  · rename_i nonempty
    simp [read, readFuel, nonempty]

theorem read_of_readOne {prev step : Nat} {b : UInt8} {bytes value rest : List UInt8}
    (unmarked : b ≠ 0xFF) (h : readOne (b :: bytes) = some (step, value, rest)) :
    read prev (b :: bytes) =
      (read (prev + step) rest).map fun r => (⟨prev + step, value⟩ :: r.1, r.2) := by
  have shorter := readOne_length h
  simp only [List.length_cons] at shorter
  have there : readFuel bytes.length (prev + step) rest = read (prev + step) rest :=
    readFuel_eq_read (by omega)
  simp only [read, List.length_cons, readFuel, if_neg unmarked, h, Option.bind_eq_bind,
    Option.bind_some, there]
  cases readFuel rest.length (prev + step) rest <;> rfl

theorem read_marker (prev : Nat) (bytes : List UInt8) :
    read prev (0xFF :: bytes) = if bytes = [] then none else some ([], bytes) := by
  simp only [read, List.length_cons, readFuel, if_true]

theorem read_of_readOne_none {prev : Nat} {b : UInt8} {bytes : List UInt8} (unmarked : b ≠ 0xFF)
    (h : readOne (b :: bytes) = none) : read prev (b :: bytes) = none := by
  simp only [read, List.length_cons, readFuel, if_neg unmarked, h, Option.bind_eq_bind,
    Option.bind_none]

/-- **Round trip.** A body of writable fields is read back. -/
theorem read_encode {prev : Nat} {fields : List Numbered} (h : Writable prev fields)
    (payload : List UInt8) :
    read prev (encode prev fields ++ marked payload) = some (fields, payload) := by
  induction h with
  | nil => simpa [encode] using read_marked _ payload
  | @cons prev f fields ascends step length _ ih =>
    have one := readOne_encodeOne step length (encode f.number fields ++ marked payload)
    rw [encodeOne, List.cons_append] at one
    have number : prev + (f.number - prev) = f.number := by omega
    rw [encode, List.append_assoc, encodeOne, List.cons_append,
      read_of_readOne (head_ne_marker _ _) one, number, ih]
    rfl

end MidnightSdk.DeltaOptions
