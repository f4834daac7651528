import MidnightSdk.Library.BigEndian

/-!
# Pairs of numbers in DER

A sequence of two integers, in the short form of lengths. An integer is written in
as few bytes as leave its sign bit clear, and no other writing is read.
-/

namespace MidnightSdk.DerIntegers

open BigEndian

/-- The bytes of a number whose first bit stands for the sign. -/
def magnitude (n : Nat) : List UInt8 := beBytes ((n.log2 + 1) / 8 + 1) n

/-- A tag, a length below 128, and the contents. -/
def field (tag : UInt8) (contents : List UInt8) : List UInt8 :=
  tag :: UInt8.ofNat contents.length :: contents

def readField (tag : UInt8) : List UInt8 → Option (List UInt8 × List UInt8)
  | found :: length :: rest =>
    if found = tag ∧ length < 128 ∧ length.toNat ≤ rest.length then
      some (rest.take length.toNat, rest.drop length.toNat)
    else none
  | _ => none

def integer (n : Nat) : List UInt8 := field 0x02 (magnitude n)

def readInteger (bytes : List UInt8) : Option (Nat × List UInt8) := do
  let (contents, rest) ← readField 0x02 bytes
  if contents = magnitude (beValue contents) then some (beValue contents, rest) else none

def pair (r s : Nat) : List UInt8 := field 0x30 (integer r ++ integer s)

/-- The two numbers, and what stands behind them. -/
def readPair (bytes : List UInt8) : Option ((Nat × Nat) × List UInt8) := do
  let (contents, behind) ← readField 0x30 bytes
  let (r, rest) ← readInteger contents
  let (s, rest) ← readInteger rest
  if rest = [] then some ((r, s), behind) else none

theorem readField_field {tag : UInt8} {contents : List UInt8} (h : contents.length < 128)
    (rest : List UInt8) : readField tag (field tag contents ++ rest) = some (contents, rest) := by
  have short : (UInt8.ofNat contents.length).toNat = contents.length := by
    rw [UInt8.toNat_ofNat', Nat.mod_eq_of_lt (by omega)]
  have below : UInt8.ofNat contents.length < 128 := by
    rw [UInt8.lt_iff_toNat_lt, short]
    exact h
  rw [field, List.cons_append, List.cons_append, readField, short,
    if_pos ⟨rfl, below, by simp⟩, List.take_left, List.drop_left]

/-- A number below `2 ^ 256` takes at most one byte more than its 32. -/
theorem magnitude_length {n : Nat} (h : n < 2 ^ 256) : (magnitude n).length ≤ 33 := by
  rw [magnitude, beBytes_length]
  cases n with
  | zero => decide
  | succ n =>
    have : (n + 1).log2 < 256 := (Nat.log2_lt n.succ_ne_zero).mpr h
    omega

theorem value_magnitude (n : Nat) : beValue (magnitude n) = n := by
  apply beValue_beBytes_of_lt
  have wide : (256 : Nat) = 2 ^ 8 := rfl
  calc n < 2 ^ (n.log2 + 1) := Nat.lt_log2_self
    _ ≤ 2 ^ (8 * ((n.log2 + 1) / 8 + 1)) := Nat.pow_le_pow_right (by decide) (by omega)
    _ = 256 ^ ((n.log2 + 1) / 8 + 1) := by rw [wide, ← Nat.pow_mul]

theorem readInteger_integer {n : Nat} (h : n < 2 ^ 256) (rest : List UInt8) :
    readInteger (integer n ++ rest) = some (n, rest) := by
  have short := magnitude_length h
  rw [readInteger, integer, readField_field (by omega)]
  simp [value_magnitude]

theorem readPair_pair {r s : Nat} (hr : r < 2 ^ 256) (hs : s < 2 ^ 256) :
    readPair (pair r s) = some ((r, s), []) := by
  have short : (integer r ++ integer s).length < 128 := by
    have := magnitude_length hr
    have := magnitude_length hs
    simp only [integer, field, List.length_append, List.length_cons]
    omega
  have sequence := @readField_field 0x30 _ short []
  have second := readInteger_integer hs []
  rw [List.append_nil] at sequence second
  simp only [readPair, pair, sequence, Option.bind_eq_bind, Option.bind_some,
    readInteger_integer hr, second, if_true]

example : pair 1 0x80 = [0x30, 0x07, 0x02, 0x01, 0x01, 0x02, 0x02, 0x00, 0x80] := by decide

end MidnightSdk.DerIntegers
