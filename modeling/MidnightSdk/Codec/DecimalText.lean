import Mathlib.Data.List.TakeWhile
import MidnightSdk.Codec.ScaleDecoder
import MidnightSdk.Library.DecimalDigits

/-!
# A 128-bit number in decimal

Above 64 bits the text is put together by hand. The texts are padded the wrong way
round, the product is one with the text `0` whatever the high word is, and the sum
goes from the first digits to the last: what comes out is the low word's digits in
reverse.
-/

namespace MidnightSdk.Codec

open DecimalDigits

namespace U128

/-- A text in reverse behind zeros. -/
def padded (maxLen : Nat) (text : List Char) : List Char :=
  List.replicate (maxLen - text.length) '0' ++ text.reverse

/-- `padded[i] - '0'` -/
def digitAt (text : List Char) (i : Nat) : Nat := digit ((text[i]?).getD '0')

/-- The loop over the columns, with the carry it leaves. -/
def columnLoop (sum : Nat → Nat → Nat) (maxLen : Nat) : List Char × Nat :=
  (List.range maxLen).foldl (fun (newResult, carry) i =>
    (newResult ++ [Nat.digitChar (sum i carry % 10)], sum i carry / 10)) ([], 0)

/-- `while (carry > 0)`; the first argument is at least the number of rounds. -/
def flushCarry : Nat → Nat → List Char
  | 0, _ => []
  | fuel + 1, carry =>
    if carry > 0 then Nat.digitChar (carry % 10) :: flushCarry fuel (carry / 10) else []

/-- The columns, the carry behind them, and all of it turned round. -/
def columns (sum : Nat → Nat → Nat) (maxLen : Nat) : List Char :=
  let (newResult, carry) := columnLoop sum maxLen
  (newResult ++ flushCarry carry carry).reverse

/-- The digit of `result` stays the same in the inner loop, whose second bound never
stops it. -/
def multiply (result multiplier : List Char) : List Char :=
  let maxLen := max result.length multiplier.length + 1
  let paddedResult := padded maxLen result
  let paddedMultiplier := padded maxLen multiplier
  columns (fun i carry => (List.range (i + 1)).foldl (fun sum j =>
    sum + digitAt paddedResult (maxLen - 1 - i) *
      digitAt paddedMultiplier (maxLen - 1 - (i - j))) carry) maxLen

/-- The sum, before its zeros are dropped. -/
def add (result loStr : List Char) : List Char :=
  let maxLen := max result.length loStr.length + 1
  let paddedResult := padded maxLen result
  let paddedLo := padded maxLen loStr
  columns (fun i carry => carry + digitAt paddedResult (maxLen - 1 - i) +
    digitAt paddedLo (maxLen - 1 - i)) maxLen

/-- A text of zeros alone keeps them. -/
def removeLeadingZeros (text : List Char) : List Char :=
  match text.findIdx? (· != '0') with
  | some pos => text.drop pos
  | none => text

/-- The decimal text of the high word is made and not used. -/
def toDecimal (v : U128) : List Char :=
  if v.hi = 0 then Nat.toDigits 10 v.lo.toNat
  else
    let result := ['0']
    let multiplier := "18446744073709551616".toList
    let result := if v.hi > 0 then multiply result multiplier else result
    let result :=
      if v.lo > 0 then removeLeadingZeros (add result (Nat.toDigits 10 v.lo.toNat)) else result
    if result.isEmpty then ['0'] else result

def value (v : U128) : Nat := v.hi.toNat * 18446744073709551616 + v.lo.toNat

/-! ## The loops -/

/-- Columns that carry nothing are written as they are. -/
theorem columnLoop_of_small {sum : Nat → Nat → Nat} {maxLen : Nat} {text : List Char}
    (hlength : text.length = maxLen) (hdigits : ∀ c ∈ text, c.isDigit = true)
    (hsum : ∀ i < maxLen, sum i 0 = digitAt text i) : columnLoop sum maxLen = (text, 0) := by
  have taken (count : Nat) (hcount : count ≤ maxLen) :
      (List.range count).foldl (fun (newResult, carry) i =>
        (newResult ++ [Nat.digitChar (sum i carry % 10)], sum i carry / 10)) (([] : List Char), 0) =
        (text.take count, 0) := by
    induction count with
    | zero => rfl
    | succ count ih =>
      have inside : count < text.length := by omega
      have here : digitAt text count = digit text[count] := by
        rw [digitAt, List.getElem?_eq_getElem inside]
        rfl
      have isDigit := hdigits _ (List.getElem_mem inside)
      have small := digit_lt isDigit
      rw [List.range_succ, List.foldl_append, ih (by omega),
        List.take_succ_eq_append_getElem inside]
      simp only [List.foldl_cons, List.foldl_nil, hsum count (by omega), here,
        Nat.mod_eq_of_lt small, Nat.div_eq_of_lt small, digitChar_digit isDigit]
  rw [columnLoop, taken maxLen (Nat.le_refl _), List.take_of_length_le (Nat.le_of_eq hlength)]

theorem columns_of_small {sum : Nat → Nat → Nat} {maxLen : Nat} {text : List Char}
    (hlength : text.length = maxLen) (hdigits : ∀ c ∈ text, c.isDigit = true)
    (hsum : ∀ i < maxLen, sum i 0 = digitAt text i) : columns sum maxLen = text.reverse := by
  rw [columns, columnLoop_of_small hlength hdigits hsum]
  dsimp only
  rw [flushCarry, List.append_nil]

/-- Zeros behind a text are read where there is nothing as well. -/
theorem digitAt_append_zeros (text : List Char) (k i : Nat) :
    digitAt (text ++ List.replicate k '0') i = digitAt text i := by
  rw [digitAt, digitAt]
  by_cases inside : i < text.length
  · rw [List.getElem?_append_left inside]
  · rw [List.getElem?_append_right (by omega), List.getElem?_replicate,
      List.getElem?_eq_none (by omega)]
    split <;> rfl

/-- Read from the end, a padded text is the text and zeros. -/
theorem digitAt_padded {maxLen : Nat} {text : List Char} (hfits : text.length ≤ maxLen) {i : Nat}
    (hi : i < maxLen) : digitAt (padded maxLen text) (maxLen - 1 - i) = digitAt text i := by
  have length : (padded maxLen text).length = maxLen := by
    rw [padded, List.length_append, List.length_replicate, List.length_reverse]
    omega
  have turned : (padded maxLen text).reverse =
      text ++ List.replicate (maxLen - text.length) '0' := by
    rw [padded, List.reverse_append, List.reverse_reverse, List.reverse_replicate]
  have place : (padded maxLen text)[maxLen - 1 - i]? = (padded maxLen text).reverse[i]? := by
    rw [List.getElem?_reverse (by omega), length]
  rw [digitAt, place, turned]
  exact digitAt_append_zeros text _ i

theorem digitAt_zeros (k i : Nat) : digitAt (List.replicate k '0') i = 0 :=
  digitAt_append_zeros [] k i

/-! ## What comes out -/

theorem multiply_zero :
    multiply ['0'] "18446744073709551616".toList = List.replicate 21 '0' := by
  decide +kernel

/-- Added to zeros, a shorter text comes out in reverse. -/
theorem add_zeros {k : Nat} {text : List Char} (hshort : text.length ≤ k)
    (hdigits : ∀ c ∈ text, c.isDigit = true) :
    add (List.replicate k '0') text =
      List.replicate (k + 1 - text.length) '0' ++ text.reverse := by
  have room : max (List.replicate k '0').length text.length = k := by
    rw [List.length_replicate]
    omega
  have zeros : ∀ c ∈ List.replicate (k + 1 - text.length) '0', c.isDigit = true := by
    intro c hc
    rw [List.eq_of_mem_replicate hc]
    rfl
  have written := @columns_of_small (fun i carry =>
      carry + digitAt (padded (k + 1) (List.replicate k '0')) (k + 1 - 1 - i) +
        digitAt (padded (k + 1) text) (k + 1 - 1 - i)) (k + 1)
    (text ++ List.replicate (k + 1 - text.length) '0')
    (by rw [List.length_append, List.length_replicate]; omega)
    (fun c hc => (List.mem_append.mp hc).elim (hdigits c) (zeros c)) ?_
  · rw [add, room, written, List.reverse_append, List.reverse_replicate]
  · intro i hi
    have first : digitAt (padded (k + 1) (List.replicate k '0')) (k + 1 - 1 - i) = 0 := by
      rw [digitAt_padded (by simp) hi, digitAt_zeros]
    have second : digitAt (padded (k + 1) text) (k + 1 - 1 - i) =
        digitAt (text ++ List.replicate (k + 1 - text.length) '0') i := by
      rw [digitAt_padded (by omega) hi, digitAt_append_zeros]
    rw [first, second]
    omega

theorem removeLeadingZeros_eq {text : List Char} (h : ∃ c ∈ text, c ≠ '0') :
    removeLeadingZeros text = text.dropWhile (· == '0') := by
  induction text with
  | nil => exact absurd h (by simp)
  | cons c text ih =>
    by_cases hzero : c = '0'
    · subst hzero
      have later : ∃ c ∈ text, c ≠ '0' := by
        obtain ⟨c, hc, hne⟩ := h
        rcases List.mem_cons.mp hc with rfl | hc
        · exact absurd rfl hne
        · exact ⟨c, hc, hne⟩
      obtain ⟨pos, hpos⟩ : ∃ pos, text.findIdx? (· != '0') = some pos := by
        apply Option.isSome_iff_exists.mp
        rw [List.findIdx?_isSome, List.any_eq_true]
        obtain ⟨c, hc, hne⟩ := later
        exact ⟨c, hc, by simpa using hne⟩
      rw [List.dropWhile_cons_of_pos (by rfl), ← ih later, removeLeadingZeros, removeLeadingZeros,
        List.findIdx?_cons, hpos]
      rfl
    · rw [List.dropWhile_cons_of_neg (by simpa using hzero), removeLeadingZeros, List.findIdx?_cons]
      simp [hzero]

theorem toDecimal_of_hi_eq_zero {v : U128} (h : v.hi = 0) :
    v.toDecimal = Nat.toDigits 10 v.value := by
  have low : v.value = v.lo.toNat := by
    rw [value, h]
    exact Nat.zero_add _
  rw [toDecimal, if_pos h, low]

/-- With a high word and no low one there are 21 zeros. -/
theorem toDecimal_of_lo_eq_zero {v : U128} (hhi : v.hi ≠ 0) (hlo : v.lo = 0) :
    v.toDecimal = List.replicate 21 '0' := by
  have positive : v.hi > 0 := UInt64.pos_iff_ne_zero.mpr hhi
  rw [toDecimal, if_neg hhi]
  dsimp only
  rw [if_pos positive, multiply_zero, hlo, if_neg (by decide)]
  rfl

theorem length_toDigits_word (n : UInt64) : (Nat.toDigits 10 n.toNat).length ≤ 20 :=
  (Nat.length_toDigits_le_iff (by decide) (by decide)).mpr (Nat.lt_trans n.toNat_lt (by decide))

/-- With both words there is the low one in reverse. -/
theorem toDecimal_of_lo_ne_zero {v : U128} (hhi : v.hi ≠ 0) (hlo : v.lo ≠ 0) :
    v.toDecimal = (Nat.toDigits 10 v.lo.toNat).reverse.dropWhile (· == '0') := by
  have positive : v.hi > 0 := UInt64.pos_iff_ne_zero.mpr hhi
  have low : v.lo > 0 := UInt64.pos_iff_ne_zero.mpr hlo
  have number : 0 < v.lo.toNat := UInt64.lt_iff_toNat_lt.mp low
  have short := length_toDigits_word v.lo
  have digits : ∀ c ∈ Nat.toDigits 10 v.lo.toNat, c.isDigit = true := fun c hc =>
    Nat.isDigit_of_mem_toDigits (by decide) (by decide) hc
  have some := exists_digit_ne_zero number
  have some' : ∃ c ∈ List.replicate (21 + 1 - (Nat.toDigits 10 v.lo.toNat).length) '0' ++
      (Nat.toDigits 10 v.lo.toNat).reverse, c ≠ '0' := by
    obtain ⟨c, hc, hne⟩ := some
    exact ⟨c, List.mem_append_right _ (List.mem_reverse.mpr hc), hne⟩
  have zeros : ∀ k, (List.replicate k '0').dropWhile (· == '0') = [] := by
    intro k
    simp
  have text : removeLeadingZeros (add (List.replicate 21 '0') (Nat.toDigits 10 v.lo.toNat)) =
      (Nat.toDigits 10 v.lo.toNat).reverse.dropWhile (· == '0') := by
    rw [add_zeros (by omega) digits, removeLeadingZeros_eq some', List.dropWhile_append, zeros]
    rfl
  have left : (Nat.toDigits 10 v.lo.toNat).reverse.dropWhile (· == '0') ≠ [] := by
    intro h
    rw [List.dropWhile_eq_nil_iff] at h
    obtain ⟨c, hc, hne⟩ := some
    exact hne (by simpa using h c (List.mem_reverse.mpr hc))
  rw [toDecimal, if_neg hhi]
  dsimp only
  rw [if_pos positive, multiply_zero, if_pos low, text, if_neg (by simpa using left)]

/-- Nine high words are more than twenty digits hold. -/
theorem high_eq_zero {hi lo : Nat} (hnines : (hi * 18446744073709551616 + lo) % 9 = lo % 9)
    (hsmall : hi * 18446744073709551616 + lo < 100000000000000000000) : hi = 0 := by
  have product : 9 ∣ hi * 18446744073709551616 := by
    have difference := Nat.sub_mod_eq_zero_of_mod_eq hnines
    rw [Nat.add_sub_cancel] at difference
    exact Nat.dvd_of_mod_eq_zero difference
  have coprime : Nat.Coprime 9 18446744073709551616 := by decide
  have nines : 9 ∣ hi := coprime.dvd_of_dvd_mul_right product
  by_contra hne
  have nine : 9 * 18446744073709551616 ≤ hi * 18446744073709551616 :=
    Nat.mul_le_mul_right _ (Nat.le_of_dvd (Nat.pos_of_ne_zero hne) nines)
  have least := Nat.lt_of_le_of_lt (Nat.le_trans nine (Nat.le_add_right _ lo)) hsmall
  exact absurd least (by decide)

/-- **Which numbers are written right.** Those of 64 bits: the digits of the low word
make a number that agrees with it modulo nine and has no more than twenty digits, and
no number with a high word does. -/
theorem toDecimal_iff (v : U128) : v.toDecimal = Nat.toDigits 10 v.value ↔ v.hi = 0 := by
  refine ⟨fun h => ?_, toDecimal_of_hi_eq_zero⟩
  by_contra hhi
  have high : 0 < v.hi.toNat := UInt64.lt_iff_toNat_lt.mp (UInt64.pos_iff_ne_zero.mpr hhi)
  have positive : 0 < v.value := by
    unfold value
    omega
  by_cases hlo : v.lo = 0
  · rw [toDecimal_of_lo_eq_zero hhi hlo] at h
    exact toDigits_ne_zeros positive 21 h.symm
  · rw [toDecimal_of_lo_ne_zero hhi hlo] at h
    obtain ⟨nines, shorter⟩ := mod_nine_of_reversed h
    have short := length_toDigits_word v.lo
    have small : v.value < 100000000000000000000 :=
      (@Nat.length_toDigits_le_iff 10 v.value 20 (by decide) (by decide)).mp
        (Nat.le_trans shorter short)
    have none := high_eq_zero nines small
    omega

/-- The smallest number that is written wrong. -/
theorem toDecimal_two_pow_64 :
    toDecimal ⟨0, 1⟩ = List.replicate 21 '0' ∧
      toDecimal ⟨0, 1⟩ ≠ Nat.toDigits 10 (value ⟨0, 1⟩) := by
  have zeros : toDecimal ⟨0, 1⟩ = List.replicate 21 '0' :=
    toDecimal_of_lo_eq_zero (by decide) rfl
  refine ⟨zeros, ?_⟩
  rw [zeros]
  exact (toDigits_ne_zeros (by decide) 21).symm

end U128

end MidnightSdk.Codec
