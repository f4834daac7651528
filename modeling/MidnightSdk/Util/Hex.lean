import MidnightSdk.Library.Cpp
import MidnightSdk.Library.HexText

/-!
# Hexadecimal strings

The hex helpers the subsystems share. A `std::string` is the list of its
characters.
-/

namespace MidnightSdk.Util

open Cpp HexText

/-- `value.rfind("0x", 0) == 0 || value.rfind("0X", 0) == 0` -/
def hasHexPrefix (value : List Char) : Bool :=
  ['0', 'x'].isPrefixOf value || ['0', 'X'].isPrefixOf value

def stripHexPrefix (value : List Char) : List Char :=
  if hasHexPrefix value then value.drop 2 else value

def ensureHexPrefix (value : List Char) : List Char :=
  if value.isEmpty then value
  else if hasHexPrefix value then value
  else ['0', 'x'] ++ value

/-- `std::isxdigit` -/
def isXDigit (c : Char) : Bool := digits.contains c

def isHexString (value : List Char) : Bool :=
  if value.isEmpty || value.length % 2 != 0 then false else value.all isXDigit

def hexNibble (c : Char) : Int :=
  if '0' ≤ c ∧ c ≤ '9' then (c.toNat : Int) - '0'.toNat
  else
    let lower := c.toLower
    if 'a' ≤ lower ∧ lower ≤ 'f' then 10 + ((lower.toNat : Int) - 'a'.toNat) else -1

/-- The digit string the encoder indexes. -/
def hexDigits : List Char := "0123456789abcdef".toList

def hexDigit (n : UInt8) : Char := (hexDigits[n.toNat]?).getD '0'

def bytesToHex (bytes : List UInt8) : List Char :=
  bytes.flatMap fun (byte : UInt8) => [hexDigit ((byte >>> 4) &&& 0x0F), hexDigit (byte &&& 0x0F)]

/-- The loop of the decoder, two characters at a time. -/
def hexPairs : List Char → Throws (List UInt8)
  | high :: low :: rest => do
    let hi := hexNibble high
    let lo := hexNibble low
    if hi < 0 ∨ lo < 0 then throw (.runtimeError "Invalid hex string: non-hex character")
    let bytes ← hexPairs rest
    return UInt8.ofNat (hi.toNat <<< 4 ||| lo.toNat) :: bytes
  | _ => return []

def hexToBytes (hexStr : List Char) : Throws (List UInt8) :=
  if hexStr.length % 2 ≠ 0 then .error (.runtimeError "Invalid hex string: odd length")
  else hexPairs hexStr

/-! ## What they read and write -/

/-- The reader's value of a digit is the digit's value. -/
theorem hexNibble_eq {c : Char} {v : Nat} (h : digitValue c = some v) : hexNibble c = v := by
  have all : digits.Forall fun c =>
      digitValue c = some (hexNibble c).toNat ∧ 0 ≤ hexNibble c := by decide
  obtain ⟨value, nonneg⟩ := List.forall_iff_forall_mem.mp all c (mem_of_digitValue h)
  rw [h, Option.some.injEq] at value
  omega

theorem hexPairs_spells {text : List Char} {bytes : List UInt8} (h : Spells text bytes) :
    hexPairs text = .ok bytes := by
  induction h with
  | nil => rfl
  | @byte hi lo text b bytes high low _ ih =>
    have hb := b.toNat_lt
    have joined : UInt8.ofNat ((b.toNat / 16) <<< 4 ||| b.toNat % 16) = b := by
      rw [← Nat.shiftLeft_add_eq_or_of_lt (by omega), Nat.shiftLeft_eq]
      apply UInt8.toNat_inj.mp
      rw [UInt8.toNat_ofNat']
      omega
    rw [hexPairs, hexNibble_eq high, hexNibble_eq low, ih]
    simp only [Int.toNat_natCast, joined]
    rw [if_neg (by omega)]
    rfl

theorem hexToBytes_spells {text : List Char} {bytes : List UInt8} (h : Spells text bytes) :
    hexToBytes text = .ok bytes := by
  have even := h.length
  unfold hexToBytes
  rw [if_neg (by omega)]
  exact hexPairs_spells h

theorem bytesToHex_spells (bytes : List UInt8) : Spells (bytesToHex bytes) bytes := by
  have digit : ∀ n < 16, digitValue (hexDigit (UInt8.ofNat n)) = some n := by decide
  induction bytes with
  | nil => exact .nil
  | cons b bytes ih =>
    have hb := b.toNat_lt
    have high : (b >>> 4) &&& 0x0F = UInt8.ofNat (b.toNat / 16) := by
      apply UInt8.toNat_inj.mp
      rw [UInt8.toNat_and, UInt8.toNat_shiftRight, UInt8.toNat_ofNat']
      change b.toNat >>> 4 &&& 2 ^ 4 - 1 = _
      rw [Nat.and_two_pow_sub_one_eq_mod, Nat.shiftRight_eq_div_pow]
      omega
    have low : b &&& 0x0F = UInt8.ofNat (b.toNat % 16) := by
      apply UInt8.toNat_inj.mp
      rw [UInt8.toNat_and, UInt8.toNat_ofNat']
      change b.toNat &&& 2 ^ 4 - 1 = _
      rw [Nat.and_two_pow_sub_one_eq_mod]
      omega
    unfold bytesToHex at ih ⊢
    rw [List.flatMap_cons, high, low]
    exact .byte (digit _ (by omega)) (digit _ (by omega)) ih

theorem bytesToHex_append (as bs : List UInt8) :
    bytesToHex (as ++ bs) = bytesToHex as ++ bytesToHex bs := List.flatMap_append

/-- Texts written for bytes are told apart as bytes too. -/
theorem bytesOf_bytesToHex_inj {as bs : List UInt8} :
    bytesOf (bytesToHex as) = bytesOf (bytesToHex bs) ↔ as = bs := by
  have ascii : digits.Forall fun c => Char.ofNat (UInt8.ofNat c.toNat).toNat = c := by decide
  have back (bytes : List UInt8) : textOf (bytesOf (bytesToHex bytes)) = bytesToHex bytes := by
    rw [textOf, bytesOf, List.map_map]
    refine (List.map_congr_left fun c hc => ?_).trans (List.map_id _)
    exact List.forall_iff_forall_mem.mp ascii c ((bytesToHex_spells bytes).mem_digits c hc)
  constructor
  · intro h
    have texts := congrArg textOf h
    rw [back, back] at texts
    have read := congrArg hexToBytes texts
    rw [hexToBytes_spells (bytesToHex_spells as), hexToBytes_spells (bytesToHex_spells bs)] at read
    exact Except.ok.inj read
  · rintro rfl
    rfl

/-! ## Letter case -/

theorem toLower_of_digitValue {c d : Char} {v : Nat} (hc : digitValue c = some v)
    (hd : digitValue d = some v) : c.toLower = d.toLower := by
  have small : digits.Forall fun c =>
      c.toLower = (hexDigits[(digitValue c).getD 0]?).getD '0' := by decide
  have lower {c : Char} (h : digitValue c = some v) :
      c.toLower = (hexDigits[v]?).getD '0' := by
    have place := List.forall_iff_forall_mem.mp small c (mem_of_digitValue h)
    rwa [h] at place
  rw [lower hc, lower hd]

theorem toLower_of_spells {text text' : List Char} {bytes : List UInt8} (h : Spells text bytes)
    (h' : Spells text' bytes) : text.map Char.toLower = text'.map Char.toLower := by
  induction h generalizing text' with
  | nil =>
    cases h'
    rfl
  | byte high low _ ih =>
    cases h' with
    | byte high' low' rest' =>
      simp only [List.map_cons, toLower_of_digitValue high high', toLower_of_digitValue low low',
        ih rest']

theorem toLower_bytesToHex (bytes : List UInt8) :
    (bytesToHex bytes).map Char.toLower = bytesToHex bytes := by
  have all : hexDigits.Forall fun c => c.toLower = c := by decide
  have digit (n : UInt8) : (hexDigit n).toLower = hexDigit n := by
    rw [hexDigit]
    cases found : hexDigits[n.toNat]? with
    | none => rfl
    | some c => exact List.forall_iff_forall_mem.mp all c (List.mem_of_getElem? found)
  induction bytes with
  | nil => rfl
  | cons b bytes ih =>
    unfold bytesToHex at ih ⊢
    simp only [List.flatMap_cons, List.map_append, List.map_cons, List.map_nil, digit, ih]

/-- Bytes are written as any text that spells them, in small letters. -/
theorem bytesToHex_of_spells {text : List Char} {bytes : List UInt8} (h : Spells text bytes) :
    bytesToHex bytes = text.map Char.toLower := by
  rw [← toLower_bytesToHex, toLower_of_spells (bytesToHex_spells bytes) h]

/-- Small and capital letters count alike, whether digits or not. -/
theorem digitValue_toLower (c : Char) : digitValue c.toLower = digitValue c := by
  have capitals : ∀ n ∈ List.range' 65 26,
      digitValue (Char.ofNat n).toLower = digitValue (Char.ofNat n) := by decide
  by_cases h : c.val ≥ 'A'.val ∧ c.val ≤ 'Z'.val
  · have range : 65 ≤ c.toNat ∧ c.toNat ≤ 90 := h
    have value := capitals c.toNat (List.mem_range'_1.mpr (by omega))
    rwa [Char.ofNat_toNat] at value
  · unfold Char.toLower
    rw [dif_neg h]

theorem spells_toLower {text : List Char} {bytes : List UInt8} :
    Spells (text.map Char.toLower) bytes ↔ Spells text bytes := by
  constructor
  · intro h
    generalize hlower : text.map Char.toLower = lower at h
    induction h generalizing text with
    | nil =>
      rw [List.map_eq_nil_iff.mp hlower]
      exact .nil
    | byte high low _ ih =>
      obtain ⟨hi, behind, rfl, rfl, hbehind⟩ := List.map_eq_cons_iff.mp hlower
      obtain ⟨lo, text, rfl, rfl, htext⟩ := List.map_eq_cons_iff.mp hbehind
      rw [digitValue_toLower] at high low
      exact .byte high low (ih htext)
  · intro h
    induction h with
    | nil => exact .nil
    | byte high low _ ih =>
      rw [← digitValue_toLower] at high low
      exact .byte high low ih

/-- Bytes are written as the small letters of a text exactly when the text spells them. -/
theorem bytesToHex_eq_iff {text : List Char} {bytes : List UInt8} :
    bytesToHex bytes = text.map Char.toLower ↔ Spells text bytes := by
  constructor
  · intro h
    rw [← spells_toLower, ← h]
    exact bytesToHex_spells bytes
  · exact bytesToHex_of_spells

/-! ## Prefixes -/

theorem hasHexPrefix_of_digits {text : List Char} (h : ∀ c ∈ text, c ∈ digits) :
    hasHexPrefix text = false := by
  by_contra hpre
  have marked : hasHexPrefix text = true := by simpa using hpre
  rw [hasHexPrefix, Bool.or_eq_true, List.isPrefixOf_iff_prefix,
    List.isPrefixOf_iff_prefix] at marked
  rcases marked with ⟨rest, rfl⟩ | ⟨rest, rfl⟩
  · exact absurd (h 'x' (by simp)) (by decide)
  · exact absurd (h 'X' (by simp)) (by decide)

/-- Digits behind a prefix, or none. -/
theorem stripHexPrefix_digits {lead text : List Char} (hlead : lead ∈ [[], ['0', 'x'], ['0', 'X']])
    (h : ∀ c ∈ text, c ∈ digits) : stripHexPrefix (lead ++ text) = text := by
  simp only [List.mem_cons, List.not_mem_nil, or_false] at hlead
  unfold stripHexPrefix
  rcases hlead with rfl | rfl | rfl
  · rw [List.nil_append, hasHexPrefix_of_digits h]
    rfl
  · rfl
  · rfl

theorem ensureHexPrefix_digits {text : List Char} (hne : text ≠ []) (h : ∀ c ∈ text, c ∈ digits) :
    ensureHexPrefix text = ['0', 'x'] ++ text := by
  have some : text.isEmpty = false := by simpa using hne
  rw [ensureHexPrefix, some, hasHexPrefix_of_digits h]
  rfl

theorem isHexString_digits {text : List Char} (hne : text ≠ []) (heven : text.length % 2 = 0)
    (h : ∀ c ∈ text, c ∈ digits) : isHexString text = true := by
  have all : text.all isXDigit = true := by
    rw [List.all_eq_true]
    intro c hc
    exact List.contains_iff_mem.mpr (h c hc)
  simp [isHexString, hne, heven, all]

/-- What passes for hex spells some bytes, at least one. -/
theorem isHexString_iff {text : List Char} :
    isHexString text = true ↔ text ≠ [] ∧ ∃ bytes, Spells text bytes := by
  constructor
  · intro h
    unfold isHexString at h
    split at h
    · cases h
    · rename_i hsome
      simp only [Bool.or_eq_true, List.isEmpty_iff, bne_iff_ne, not_or, not_not] at hsome
      refine ⟨hsome.1, exists_spells (fun c hc => ?_) hsome.2⟩
      exact List.contains_iff_mem.mp (List.all_eq_true.mp h c hc)
  · rintro ⟨hne, bytes, h⟩
    exact isHexString_digits hne (by rw [h.length]; omega) h.mem_digits

end MidnightSdk.Util
