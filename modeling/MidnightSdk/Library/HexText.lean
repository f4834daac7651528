import Mathlib.Data.List.Basic

/-!
# Hexadecimal text

Which bytes a text of hexadecimal digits spells, in either case. This is the
meaning of such a text; how a program reads or writes one is not said here.
-/

namespace MidnightSdk.HexText

/-- The digits by value, the capital letters after the small ones. -/
def digits : List Char := "0123456789abcdefABCDEF".toList

/-- A digit's value is its place, the capital letters counted again from ten. -/
def digitValue (c : Char) : Option Nat :=
  let place := digits.idxOf c
  if place < 16 then some place else if place < 22 then some (place - 6) else none

/-- Two digits a byte, the high half first. -/
inductive Spells : List Char → List UInt8 → Prop
  | nil : Spells [] []
  | byte {hi lo : Char} {text : List Char} {b : UInt8} {bytes : List UInt8}
      (high : digitValue hi = some (b.toNat / 16)) (low : digitValue lo = some (b.toNat % 16))
      (rest : Spells text bytes) : Spells (hi :: lo :: text) (b :: bytes)

theorem digitValue_of_mem {c : Char} (h : c ∈ digits) : ∃ v < 16, digitValue c = some v := by
  have place : digits.idxOf c < 22 := List.idxOf_lt_length_iff.mpr h
  unfold digitValue
  by_cases h16 : digits.idxOf c < 16
  · exact ⟨digits.idxOf c, h16, if_pos h16⟩
  · refine ⟨digits.idxOf c - 6, by omega, ?_⟩
    rw [if_neg h16, if_pos place]

theorem mem_of_digitValue {c : Char} {v : Nat} (h : digitValue c = some v) : c ∈ digits := by
  apply List.idxOf_lt_length_iff.mp
  change digits.idxOf c < 22
  unfold digitValue at h
  by_cases h16 : digits.idxOf c < 16
  · omega
  · by_cases h22 : digits.idxOf c < 22
    · exact h22
    · rw [if_neg h16, if_neg h22] at h
      cases h

theorem Spells.length {text : List Char} {bytes : List UInt8} (h : Spells text bytes) :
    text.length = 2 * bytes.length := by
  induction h with
  | nil => rfl
  | byte _ _ _ ih =>
    rw [List.length_cons, List.length_cons, List.length_cons, ih]
    omega

theorem Spells.mem_digits {text : List Char} {bytes : List UInt8} (h : Spells text bytes) :
    ∀ c ∈ text, c ∈ digits := by
  induction h with
  | nil => simp
  | byte high low _ ih =>
    intro c hc
    rcases List.mem_cons.mp hc with rfl | hc
    · exact mem_of_digitValue high
    · rcases List.mem_cons.mp hc with rfl | hc
      · exact mem_of_digitValue low
      · exact ih c hc

/-- Every text of an even number of digits spells some bytes. -/
theorem exists_spells : ∀ {text : List Char}, (∀ c ∈ text, c ∈ digits) → text.length % 2 = 0 →
    ∃ bytes, Spells text bytes
  | [], _, _ => ⟨[], .nil⟩
  | [_], _, heven => absurd heven Nat.one_ne_zero
  | hi :: lo :: text, hdigits, heven => by
    obtain ⟨high, hhigh, vhigh⟩ := digitValue_of_mem (hdigits hi (by simp))
    obtain ⟨low, hlow, vlow⟩ := digitValue_of_mem (hdigits lo (by simp))
    rw [List.length_cons, List.length_cons] at heven
    have remaining : ∀ c ∈ text, c ∈ digits := by
      intro c hc
      exact hdigits c (List.mem_cons_of_mem hi (List.mem_cons_of_mem lo hc))
    obtain ⟨bytes, rest⟩ := exists_spells remaining (by omega)
    have byte : (UInt8.ofNat (16 * high + low)).toNat = 16 * high + low := by
      rw [UInt8.toNat_ofNat']
      omega
    refine ⟨UInt8.ofNat (16 * high + low) :: bytes, .byte ?_ ?_ rest⟩
    · rw [vhigh, byte]
      congr 1
      omega
    · rw [vlow, byte]
      congr 1
      omega

end MidnightSdk.HexText
