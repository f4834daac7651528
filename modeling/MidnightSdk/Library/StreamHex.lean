import MidnightSdk.Library.Stoul

/-!
# Reading a number from a stream

`stream >> std::hex >> value` on a text of its own. A text with no digit where
the number should be leaves a zero, but one of blanks only leaves the variable as
it was.
-/

namespace MidnightSdk.StreamHex

open HexText Stoul

/-- What the variable holds afterwards; a minus sign negates in the unsigned type. -/
def extract (before : UInt32) (text : List Char) : UInt32 :=
  let shown := text.dropWhile isSpace
  if shown.isEmpty then before
  else
    let (negative, body) := dropSign shown
    let value := UInt32.ofNat (ofDigits (leadingDigits (dropPrefix body)))
    if negative then -value else value

/-- Two digits are read as their byte. -/
theorem extract_digits (before : UInt32) {hi lo : Char} {high low : Nat}
    (hhi : digitValue hi = some high) (hlo : digitValue lo = some low) :
    extract before [hi, lo] = UInt32.ofNat (16 * high + low) := by
  have digits : leadingDigits [hi, lo] = [high, low] := by
    simp only [leadingDigits, hhi, hlo]
  have shown : [hi, lo].dropWhile isSpace = [hi, lo] := by
    rw [List.dropWhile_cons, isSpace_of_digit (mem_of_digitValue hhi)]
    rfl
  have value : ofDigits [high, low] = 16 * high + low := by simp [ofDigits]
  rw [extract, shown, dropSign_of_digit (mem_of_digitValue hhi)]
  dsimp only
  rw [dropPrefix_short (by simp), digits, value]
  rfl

/-- The loop over `clean.substr(i, 2)`; each round has a variable of its own, which
holds `unset i` when nothing is stored in it. -/
def readPairs (unset : Nat → UInt32) : Nat → List Char → List UInt8
  | i, hi :: lo :: rest => (extract (unset i) [hi, lo]).toUInt8 :: readPairs unset (i + 2) rest
  | _, _ => []

theorem readPairs_length (unset : Nat → UInt32) :
    ∀ (i : Nat) (text : List Char), (readPairs unset i text).length = text.length / 2
  | _, [] => rfl
  | _, [_] => by simp [readPairs]
  | i, hi :: lo :: rest => by
    rw [readPairs, List.length_cons, readPairs_length unset (i + 2) rest, List.length_cons,
      List.length_cons]
    omega

theorem readPairs_spells (unset : Nat → UInt32) {text : List Char} {bytes : List UInt8}
    (h : Spells text bytes) (i : Nat) : readPairs unset i text = bytes := by
  induction h generalizing i with
  | nil => rfl
  | @byte hi lo text b bytes high low _ ih =>
    have hb := b.toNat_lt
    have whole : (UInt32.ofNat (16 * (b.toNat / 16) + b.toNat % 16)).toUInt8 = b := by
      apply UInt8.toNat_inj.mp
      rw [UInt32.toNat_toUInt8, UInt32.toNat_ofNat']
      omega
    rw [readPairs, extract_digits _ high low, whole, ih]

end MidnightSdk.StreamHex
