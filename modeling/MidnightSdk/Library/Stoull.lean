import Mathlib.Algebra.Group.Int.Defs
import MidnightSdk.Library.Stoul

/-!
# Reading a number the way `strtoull` does

`std::stoull` in a given base, or in the one the text shows when the base is 0:
`0x` for sixteen, another leading zero for eight, else ten. As with `strtoul`,
reading stops at the first character that is no digit of the base.
-/

namespace MidnightSdk.Stoull

open Cpp HexText

/-- The values of the digits below the base the text starts with. -/
def leadingDigits (base : Nat) : List Char → List Nat
  | [] => []
  | c :: rest =>
    match digitValue c with
    | some v => if v < base then v :: leadingDigits base rest else []
    | none => []

def ofDigits (base : Nat) (ds : List Nat) : Nat := ds.foldl (fun n d => base * n + d) 0

/-- The base a text shows, and the text behind its mark. -/
def shownBase (text : List Char) : Nat × List Char :=
  if (Stoul.dropPrefix text).length < text.length then (16, Stoul.dropPrefix text)
  else if text.head? = some '0' then (8, text)
  else (10, text)

/-- The base to read in, and where its digits start. -/
def readingBase (base : Nat) (text : List Char) : Nat × List Char :=
  if base = 0 then shownBase text
  else if base = 16 then (16, Stoul.dropPrefix text)
  else (base, text)

/-- `std::stoull(text, nullptr, base)`; a minus sign negates in the unsigned type. -/
def stoull (base : Nat) (text : List Char) : Throws UInt64 :=
  let (negative, body) := Stoul.dropSign (text.dropWhile Stoul.isSpace)
  let (radix, body) := readingBase base body
  let ds := leadingDigits radix body
  if ds.isEmpty then .error (.invalidArgument "stoull")
  else if 2 ^ 64 ≤ ofDigits radix ds then .error (.outOfRange "stoull")
  else .ok (if negative then -UInt64.ofNat (ofDigits radix ds) else UInt64.ofNat (ofDigits radix ds))

/-- `std::stoul(text, nullptr, base)`; its type has 64 bits as well. -/
def stoul (base : Nat) (text : List Char) : Throws UInt64 :=
  match stoull base text with
  | .ok v => .ok v
  | .error (.outOfRange _) => .error (.outOfRange "stoul")
  | .error _ => .error (.invalidArgument "stoul")

/-- `std::stoi(text)` -/
def stoi (text : List Char) : Throws Int :=
  let (negative, body) := Stoul.dropSign (text.dropWhile Stoul.isSpace)
  let ds := leadingDigits 10 body
  let value : Int := if negative then -ofDigits 10 ds else ofDigits 10 ds
  if ds.isEmpty then .error (.invalidArgument "stoi")
  else if value < -2 ^ 31 ∨ 2 ^ 31 ≤ value then .error (.outOfRange "stoi")
  else .ok value

/-- In base ten a text behind `0x` is not reached. -/
theorem stoull_ten_of_hex (text : List Char) : stoull 10 ('0' :: 'x' :: text) = .ok 0 := by
  rfl

theorem leadingDigits_of_mapM {text : List Char} {ds : List Nat}
    (h : text.mapM digitValue = some ds) : leadingDigits 16 text = ds := by
  induction text generalizing ds with
  | nil =>
    cases h
    rfl
  | cons c rest ih =>
    simp only [List.mapM_cons, Option.bind_eq_bind, Option.bind_eq_some_iff, Option.pure_def,
      Option.some.injEq] at h
    obtain ⟨v, hv, vs, hvs, rfl⟩ := h
    obtain ⟨v', hlt, hv'⟩ := digitValue_of_mem (mem_of_digitValue hv)
    rw [hv, Option.some.injEq] at hv'
    rw [leadingDigits, hv]
    simp only [hv', hlt, if_true, ih hvs]

/-- With the base read off the text, digits behind `0x` are read in full, unless the
number does not fit. -/
theorem stoull_zero_of_hex {text : List Char} {ds : List Nat} (hsome : ds ≠ [])
    (h : text.mapM digitValue = some ds) :
    stoull 0 ('0' :: 'x' :: text) =
      if 2 ^ 64 ≤ Stoul.ofDigits ds then .error (.outOfRange "stoull")
      else .ok (UInt64.ofNat (Stoul.ofDigits ds)) := by
  have shown : Stoul.dropPrefix ('0' :: 'x' :: text) = text := by
    cases text with
    | nil =>
      cases h
      exact absurd rfl hsome
    | cons c rest =>
      simp only [List.mapM_cons, Option.bind_eq_bind, Option.bind_eq_some_iff] at h
      obtain ⟨v, hv, -⟩ := h
      simp [Stoul.dropPrefix, hv]
  have start : ('0' :: 'x' :: text).dropWhile Stoul.isSpace = '0' :: 'x' :: text := rfl
  have unsigned : Stoul.dropSign ('0' :: 'x' :: text) = (false, '0' :: 'x' :: text) := rfl
  have base : readingBase 0 ('0' :: 'x' :: text) = (16, text) := by
    have shorter : text.length < ('0' :: 'x' :: text).length := by
      simp only [List.length_cons]
      omega
    simp only [readingBase, shownBase, shown, if_true, if_pos shorter]
  have some : ds.isEmpty = false := by simpa using hsome
  simp only [stoull, start, unsigned, base, leadingDigits_of_mapM h, some, Bool.false_eq_true,
    if_false]
  rfl

/-! ## Decimal texts -/

theorem toNat_sub_lt_ten {c : Char} (h : c.isDigit = true) : c.toNat - '0'.toNat < 10 := by
  have high := (Char.isDigit_iff_toNat.mp h).2
  change c.toNat ≤ 57 at high
  change c.toNat - 48 < 10
  omega

theorem digitValue_of_isDigit {c : Char} (h : c.isDigit = true) :
    digitValue c = some (c.toNat - '0'.toNat) := by
  have each : ∀ d < 10, digitValue (Char.ofNat ('0'.toNat + d)) = some d := by decide
  have here := each (c.toNat - '0'.toNat) (toNat_sub_lt_ten h)
  rwa [Nat.add_sub_cancel' (Char.isDigit_iff_toNat.mp h).1, Char.ofNat_toNat] at here

theorem leadingDigits_ten {text : List Char} (h : ∀ c ∈ text, c.isDigit = true) :
    leadingDigits 10 text = text.map fun c => c.toNat - '0'.toNat := by
  induction text with
  | nil => rfl
  | cons c rest ih =>
    obtain ⟨here, later⟩ := List.forall_mem_cons.mp h
    rw [leadingDigits, digitValue_of_isDigit here]
    simp only [if_pos (toNat_sub_lt_ten here), ih later, List.map_cons]

/-- A number written in base ten is read, as long as it fits. -/
theorem stoull_ten_repr (n : Nat) :
    stoull 10 n.repr.toList =
      if 2 ^ 64 ≤ n then .error (.outOfRange "stoull") else .ok (UInt64.ofNat n) := by
  have digits : ∀ c ∈ Nat.toDigits 10 n, c.isDigit = true :=
    fun c hc => Nat.isDigit_of_mem_toDigits (by decide) (by decide) hc
  have some : leadingDigits 10 (Nat.toDigits 10 n) ≠ [] := by
    rw [leadingDigits_ten digits]
    simp
  have number : ofDigits 10 (leadingDigits 10 (Nat.toDigits 10 n)) = n := by
    rw [leadingDigits_ten digits, ofDigits, List.foldl_map]
    exact Nat.ofDigitChars_ten_toDigits
  have start : (Nat.toDigits 10 n).dropWhile Stoul.isSpace = Nat.toDigits 10 n ∧
      Stoul.dropSign (Nat.toDigits 10 n) = (false, Nat.toDigits 10 n) := by
    cases hn : Nat.toDigits 10 n with
    | nil => exact ⟨rfl, rfl⟩
    | cons c rest =>
      have digit := mem_of_digitValue (digitValue_of_isDigit
        (digits c (hn ▸ List.mem_cons_self)))
      exact ⟨by simp [Stoul.isSpace_of_digit digit],
        Stoul.dropSign_of_digit digit rest⟩
  simp only [stoull, Nat.toList_repr, start.1, start.2, readingBase]
  simp [some, number]

example : stoull 0 "017 blocks".toList = .ok 15 := by rfl

/-- No zero in front. -/
theorem toDigits_ten_leading {n : Nat} (hpos : 0 < n) :
    ∃ c rest, Nat.toDigits 10 n = c :: rest ∧ c ≠ '0' := by
  have digit : ∀ d < 10, 0 < d → Nat.digitChar d ≠ '0' := by decide
  induction n using Nat.strongRecOn with
  | ind n ih =>
    by_cases hn : n < 10
    · exact ⟨Nat.digitChar n, [], Nat.toDigits_of_lt_base hn, digit n hn hpos⟩
    · obtain ⟨c, rest, hrest, hc⟩ := ih (n / 10) (by omega) (by omega)
      refine ⟨c, rest ++ [Nat.digitChar (n % 10)], ?_, hc⟩
      rw [Nat.toDigits_of_base_le (by decide) (by omega), hrest, List.cons_append]

/-- The base a decimal number shows is ten, or it is a single zero. -/
theorem stoull_zero_repr (n : Nat) : stoull 0 n.repr.toList = stoull 10 n.repr.toList := by
  rw [Nat.toList_repr]
  rcases Nat.eq_zero_or_pos n with rfl | hpos
  · rw [Nat.toDigits_zero]
    rfl
  have digits : ∀ c ∈ Nat.toDigits 10 n, c.isDigit = true :=
    fun c hc => Nat.isDigit_of_mem_toDigits (by decide) (by decide) hc
  obtain ⟨c, rest, hn, leading⟩ := toDigits_ten_leading hpos
  have digit := mem_of_digitValue (digitValue_of_isDigit (digits c (hn ▸ List.mem_cons_self)))
  have whole : Stoul.dropPrefix (c :: rest) = c :: rest := by
    unfold Stoul.dropPrefix
    split
    · rename_i heq
      exact absurd (List.cons.inj heq).1 leading
    · rfl
  have base : readingBase 0 (c :: rest) = readingBase 10 (c :: rest) := by
    simp [readingBase, shownBase, whole, leading]
  have start : Stoul.dropSign ((c :: rest).dropWhile Stoul.isSpace) = (false, c :: rest) := by
    rw [List.dropWhile_cons_of_neg (by simp [Stoul.isSpace_of_digit digit]),
      Stoul.dropSign_of_digit digit]
  simp only [hn, stoull, start, base]

theorem mapM_toDigits (n : Nat) : ∃ ds, ds ≠ [] ∧ (Nat.toDigits 16 n).mapM digitValue = some ds ∧
    Stoul.ofDigits ds = n := by
  have digit : ∀ d < 16, digitValue (Nat.digitChar d) = some d := by decide
  induction n using Nat.strongRecOn with
  | ind n ih =>
    by_cases hn : n < 16
    · refine ⟨[n], by simp, ?_, by simp [Stoul.ofDigits]⟩
      rw [Nat.toDigits_of_lt_base hn]
      simp [digit n hn]
    · obtain ⟨ds, -, hread, hvalue⟩ := ih (n / 16) (by omega)
      have last := digit (n % 16) (Nat.mod_lt n (by decide))
      refine ⟨ds ++ [n % 16], by simp, ?_, ?_⟩
      · rw [Nat.toDigits_of_base_le (by decide) (by omega), List.mapM_append, hread]
        simp [last]
      · rw [Stoul.ofDigits, List.foldl_append]
        change 16 * Stoul.ofDigits ds + n % 16 = n
        omega

/-- A number in lower-case hexadecimal is read when the base is taken from the text. -/
theorem stoull_zero_toDigits (n : Nat) : stoull 0 ('0' :: 'x' :: Nat.toDigits 16 n) =
    if 2 ^ 64 ≤ n then .error (.outOfRange "stoull") else .ok (UInt64.ofNat n) := by
  obtain ⟨ds, hsome, hread, rfl⟩ := mapM_toDigits n
  exact stoull_zero_of_hex hsome hread

/-- The number that decimal digits make. -/
def decimalValue (digits : List Char) : Nat := ofDigits 10 (digits.map fun c => c.toNat - '0'.toNat)

theorem leadingDigits_ten_append {text rest : List Char} (h : ∀ c ∈ text, c.isDigit = true)
    (hrest : leadingDigits 10 rest = []) :
    leadingDigits 10 (text ++ rest) = text.map fun c => c.toNat - '0'.toNat := by
  induction text with
  | nil => exact hrest
  | cons c text ih =>
    obtain ⟨here, later⟩ := List.forall_mem_cons.mp h
    rw [List.cons_append, leadingDigits, digitValue_of_isDigit here]
    simp only [if_pos (toNat_sub_lt_ten here), ih later, List.map_cons]

/-- Neither a blank nor a sign stands in front of digits. -/
theorem start_of_digits {text : List Char} (h : ∀ c ∈ text, c.isDigit = true) (hsome : text ≠ [])
    (rest : List Char) :
    Stoul.dropSign ((text ++ rest).dropWhile Stoul.isSpace) = (false, text ++ rest) := by
  cases text with
  | nil => exact absurd rfl hsome
  | cons c text =>
    have digit := mem_of_digitValue (digitValue_of_isDigit (h c List.mem_cons_self))
    rw [List.cons_append, List.dropWhile_cons_of_neg (by simp [Stoul.isSpace_of_digit digit]),
      Stoul.dropSign_of_digit digit]

section Decimal
variable {text rest : List Char} (h : ∀ c ∈ text, c.isDigit = true) (hsome : text ≠ [])
  (hrest : leadingDigits 10 rest = [])
include h hsome hrest

/-- Decimal digits are read as far as they go. -/
theorem stoull_digits : stoull 10 (text ++ rest) =
    if 2 ^ 64 ≤ decimalValue text then .error (.outOfRange "stoull")
    else .ok (UInt64.ofNat (decimalValue text)) := by
  have digits := leadingDigits_ten_append h hrest
  have some : (text.map fun c => c.toNat - '0'.toNat).isEmpty = false := by simpa using hsome
  simp only [stoull, start_of_digits h hsome rest, readingBase, Nat.reduceEqDiff, if_false,
    digits, some, Bool.false_eq_true, decimalValue]
  rfl

theorem stoi_digits : stoi (text ++ rest) =
    if 2 ^ 31 ≤ decimalValue text then .error (.outOfRange "stoi")
    else .ok (decimalValue text) := by
  have digits := leadingDigits_ten_append h hrest
  have some : (text.map fun c => c.toNat - '0'.toNat).isEmpty = false := by simpa using hsome
  have range : ((decimalValue text : Int) < -2 ^ 31 ∨ 2 ^ 31 ≤ (decimalValue text : Int)) ↔
      2 ^ 31 ≤ decimalValue text := by omega
  rw [← if_congr range rfl rfl]
  simp only [stoi, start_of_digits h hsome rest, digits, some, Bool.false_eq_true, if_false,
    decimalValue]
  rfl

end Decimal

end MidnightSdk.Stoull
