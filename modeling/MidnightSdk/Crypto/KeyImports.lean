import MidnightSdk.Crypto.Bip340Signer
import MidnightSdk.Crypto.Sr25519Signer

/-!
# Importing secret keys

Three signers take a secret key as hex text and read it two characters at a time from
a stream, without asking whether anything was read. They differ in the prefixes they know
and in what lengths they refuse; what is no digit none of them refuses.
-/

namespace MidnightSdk.Crypto

open Cpp HexText

/-- The constructor from hex text, up to its call of `set_key`. -/
def Bip340Signer.keyOfHex (unset : Nat → UInt32) (hexSk : List Char) : Throws (Bytes 32) :=
  let cleanHex := stripPrefix hexSk
  if h : cleanHex.length ≠ 64 then
    .error (.invalidArgument "BIP-340 private key must be 32 bytes")
  else .ok ⟨StreamHex.readPairs unset 0 cleanHex, by
    rw [StreamHex.readPairs_length, not_not.mp h]⟩

theorem Bip340Signer.ofHex_eq (lib : SignerLibrary) (unwritten : Unwritten) (hexSk : List Char) :
    ofHex lib unwritten hexSk = keyOfHex unwritten.byte hexSk >>= setKey lib := by
  unfold ofHex keyOfHex
  by_cases h : (stripPrefix hexSk).length ≠ 64
  · simp only [dif_pos h]
    rfl
  · simp only [dif_neg h]
    rfl

namespace Sr25519Signer

/-- `hex_to_bytes` of this file. -/
def hexToBytes (unset : Nat → UInt32) (hex : List Char) : Throws (List UInt8) :=
  let clean := Util.stripHexPrefix hex
  if clean.length % 2 ≠ 0 then .error (.invalidArgument "Invalid hex string length")
  else .ok (StreamHex.readPairs unset 0 clean)

def secretKeyFromHex (unset : Nat → UInt32) (hex : List Char) : Throws (Bytes 64) := do
  let bytes ← hexToBytes unset hex
  if h : bytes.length ≠ 64 then .error (.invalidArgument "Secret key must be 64 bytes")
  else return ⟨bytes, not_not.mp h⟩

end Sr25519Signer

/-- Nothing is refused; bytes that the text does not reach are zero. -/
def BlsSigner.secretKeyFromHex (unset : Nat → UInt32) (hex : List Char) : Bytes 32 :=
  ⟨(List.range 32).map fun i =>
    if i * 2 < hex.length then
      (StreamHex.extract (unset i) ((hex.drop (i * 2)).take 2)).toUInt8
    else 0, by simp⟩

/-- If there is a key, it is written as the text in small letters without its prefix. -/
def Faithful {size : Nat} (s : List Char) (imported : Throws (Bytes size)) : Prop :=
  IfReturns (fun key => Util.bytesToHex key.1 = (Util.stripHexPrefix s).map Char.toLower) imported

/-! ## Reading two at a time -/

theorem faithful_error {size : Nat} {s : List Char} {e : Exception} :
    Faithful s (.error e : Throws (Bytes size)) := by
  intro key h
  cases h

/-- A key is the right one when the text spells it. -/
theorem faithful_ok {size : Nat} {s : List Char} {key : Bytes size} :
    Faithful s (.ok key) ↔ Spells (Util.stripHexPrefix s) key.1 := by
  rw [← Util.bytesToHex_eq_iff]
  constructor
  · intro h
    exact h key rfl
  · intro h key' hkey
    cases hkey
    exact h

/-- What is read is spelled only where every character is a digit. -/
theorem spells_readPairs_iff (unset : Nat → UInt32) {text : List Char}
    (heven : text.length % 2 = 0) :
    Spells text (StreamHex.readPairs unset 0 text) ↔ ∀ c ∈ text, c ∈ digits := by
  constructor
  · exact Spells.mem_digits
  · intro hdigits
    obtain ⟨bytes, h⟩ := exists_spells hdigits heven
    rwa [StreamHex.readPairs_spells unset h]

/-- Slices of a text that spells bytes are read as these. -/
theorem extract_slice {text : List Char} {bytes : List UInt8} (h : Spells text bytes)
    (before : UInt32) (i : Nat) (hi : i < bytes.length) :
    (StreamHex.extract before ((text.drop (i * 2)).take 2)).toUInt8 = bytes[i] := by
  induction h generalizing i with
  | nil => cases hi
  | @byte high low text b bytes hhigh hlow rest ih =>
    cases i with
    | zero =>
      have first : Spells [high, low] [b] := .byte hhigh hlow .nil
      exact (List.cons.inj (StreamHex.readPairs_spells (fun _ => before) first 0)).1
    | succ i =>
      rw [Nat.succ_mul, List.drop_succ_cons, List.drop_succ_cons]
      exact ih i (Nat.lt_of_succ_lt_succ hi)

/-! ## When a key is the text's -/

/-- Only the capital prefix is not taken off. -/
theorem stripHexPrefix_eq {s : List Char} (h : ¬['0', 'X'].isPrefixOf s = true) :
    Util.stripHexPrefix s = Bip340Signer.stripPrefix s := by
  have small : Util.hasHexPrefix s = ['0', 'x'].isPrefixOf s := by
    rw [Util.hasHexPrefix, Bool.not_eq_true _ |>.mp h, Bool.or_false]
  rw [Util.stripHexPrefix, small, Bip340Signer.stripPrefix]

theorem faithful_bip340_iff (unset : Nat → UInt32) (s : List Char) :
    Faithful s (Bip340Signer.keyOfHex unset s) ↔
      ((Bip340Signer.stripPrefix s).length = 64 →
        ∀ c ∈ Bip340Signer.stripPrefix s, c ∈ digits) := by
  unfold Bip340Signer.keyOfHex
  by_cases size : (Bip340Signer.stripPrefix s).length = 64
  · simp only [size, ne_eq, not_true_eq_false, dif_neg, not_false_eq_true, faithful_ok,
      true_implies]
    by_cases capital : ['0', 'X'].isPrefixOf s = true
    · obtain ⟨rest, rfl⟩ := List.isPrefixOf_iff_prefix.mp capital
      refine iff_of_false ?_ ?_
      · -- the prefix is counted among the 64
        intro spelled
        have length := spelled.length
        have whole : rest.length + 2 = 64 := size
        rw [StreamHex.readPairs_length, size] at length
        change rest.length = 64 at length
        omega
      · intro hdigits
        have mark : 'X' ∈ ['0', 'X'] ++ rest := by simp
        exact absurd (hdigits 'X' mark) (by decide)
    · rw [stripHexPrefix_eq capital, spells_readPairs_iff unset (by omega)]
  · simp only [size, ne_eq, not_false_eq_true, dif_pos, false_implies, iff_true]
    exact faithful_error

theorem faithful_sr25519_iff (unset : Nat → UInt32) (s : List Char) :
    Faithful s (Sr25519Signer.secretKeyFromHex unset s) ↔
      ((Util.stripHexPrefix s).length = 128 → ∀ c ∈ Util.stripHexPrefix s, c ∈ digits) := by
  unfold Sr25519Signer.secretKeyFromHex Sr25519Signer.hexToBytes
  have read := StreamHex.readPairs_length unset 0 (Util.stripHexPrefix s)
  by_cases odd : (Util.stripHexPrefix s).length % 2 ≠ 0
  · have other : (Util.stripHexPrefix s).length ≠ 128 := by omega
    simp only [if_pos odd, other, false_implies, iff_true]
    exact faithful_error
  · simp only [if_neg odd, ok_bind]
    by_cases size : (Util.stripHexPrefix s).length = 128
    · have bytes : ¬(StreamHex.readPairs unset 0 (Util.stripHexPrefix s)).length ≠ 64 := by omega
      rw [dif_neg bytes]
      simp only [size, true_implies]
      rw [← spells_readPairs_iff unset (not_not.mp odd)]
      exact faithful_ok
    · have bytes : (StreamHex.readPairs unset 0 (Util.stripHexPrefix s)).length ≠ 64 := by omega
      rw [dif_pos bytes]
      simp only [size, false_implies, iff_true]
      exact faithful_error

theorem spells_zeros {text : List Char} {n : Nat} :
    Spells text (List.replicate n 0) ↔ text = List.replicate (2 * n) '0' := by
  have zero : digits.Forall fun c => digitValue c = some 0 → c = '0' := by decide
  have zero {c : Char} (h : digitValue c = some 0) : c = '0' :=
    List.forall_iff_forall_mem.mp zero c (mem_of_digitValue h) h
  induction n generalizing text with
  | zero =>
    constructor
    · intro h
      cases h
      rfl
    · rintro rfl
      exact .nil
  | succ n ih =>
    rw [Nat.mul_succ, List.replicate_succ, List.replicate_succ, List.replicate_succ]
    constructor
    · intro h
      cases h with
      | byte high low rest => rw [zero high, zero low, ih.mp rest]
    · rintro rfl
      exact .byte (by decide) (by decide) (ih.mpr rfl)

/-- A list that is its own front behind an `a` has nothing else. -/
theorem eq_replicate_of_shifted {α : Type} {l : List α} {a : α} (h : l = a :: l.dropLast) :
    l = List.replicate l.length a := by
  apply List.eq_replicate_iff.mpr
  refine ⟨rfl, ?_⟩
  have each (i : Nat) (hi : i < l.length) : l[i] = a := by
    induction i with
    | zero => rw [List.getElem_of_eq h, List.getElem_cons_zero]
    | succ i ih =>
      rw [List.getElem_of_eq h, List.getElem_cons_succ, List.getElem_dropLast]
      exact ih (by omega)
  intro b hb
  obtain ⟨i, hi, rfl⟩ := List.getElem_of_mem hb
  exact each i hi

namespace BlsSigner

theorem secretKeyFromHex_getElem (unset : Nat → UInt32) {s : List Char} {i : Nat}
    (hi : i < (secretKeyFromHex unset s).1.length) (hs : i * 2 < s.length) :
    (secretKeyFromHex unset s).1[i] =
      (StreamHex.extract (unset i) ((s.drop (i * 2)).take 2)).toUInt8 := by
  simp only [secretKeyFromHex, List.getElem_map, List.getElem_range, if_pos hs]

theorem secretKeyFromHex_spells (unset : Nat → UInt32) {s : List Char} {bytes : List UInt8}
    (h : Spells s bytes) (size : bytes.length = 32) : (secretKeyFromHex unset s).1 = bytes := by
  have length := h.length
  apply List.ext_getElem ((secretKeyFromHex unset s).2.trans size.symm)
  intro i hi _
  rw [secretKeyFromHex_getElem unset hi (by omega), extract_slice h]

/-- A prefix is read as a zero byte, and the last byte is lost for it. -/
theorem secretKeyFromHex_prefix (unset : Nat → UInt32) {x : Char} (hx : x ∈ ['x', 'X'])
    {text : List Char} {bytes : List UInt8} (h : Spells text bytes) (size : bytes.length = 32) :
    (secretKeyFromHex unset ('0' :: x :: text)).1 = 0 :: bytes.dropLast := by
  have length := h.length
  have lead (before : UInt32) : (StreamHex.extract before ['0', x]).toUInt8 = 0 := by
    simp only [List.mem_cons, List.not_mem_nil, or_false] at hx
    rcases hx with rfl | rfl
    · rfl
    · rfl
  apply List.ext_getElem
  · rw [(secretKeyFromHex unset _).2, List.length_cons, List.length_dropLast, size]
  · intro i hi hi'
    rw [List.length_cons, List.length_dropLast, size] at hi'
    rw [secretKeyFromHex_getElem unset hi (by simp only [List.length_cons]; omega)]
    cases i with
    | zero => exact lead _
    | succ i =>
      rw [List.getElem_cons_succ, List.getElem_dropLast, Nat.succ_mul, List.drop_succ_cons,
        List.drop_succ_cons, extract_slice h]

end BlsSigner

/-- The text of a key is read right when nothing stands before its digits; behind a prefix only
that of zeros is. -/
theorem faithful_bls_iff (unset : Nat → UInt32) (s : List Char) :
    Faithful s (.ok (BlsSigner.secretKeyFromHex unset s)) ↔
      s.length = 64 ∧ (∀ c ∈ s, c ∈ digits) ∨
        ∃ x ∈ ['x', 'X'], s = '0' :: x :: List.replicate 64 '0' := by
  have size := (BlsSigner.secretKeyFromHex unset s).2
  rw [faithful_ok]
  by_cases marked : ∃ x ∈ ['x', 'X'], ∃ text, s = '0' :: x :: text
  · obtain ⟨x, hx, text, rfl⟩ := marked
    have bare : Util.stripHexPrefix ('0' :: x :: text) = text := by
      simp only [List.mem_cons, List.not_mem_nil, or_false] at hx
      rcases hx with rfl | rfl
      · rfl
      · rfl
    have noDigit : x ∉ digits := by
      have both : ['x', 'X'].Forall (· ∉ digits) := by decide
      exact List.forall_iff_forall_mem.mp both x hx
    rw [bare]
    constructor
    · intro h
      have shifted := BlsSigner.secretKeyFromHex_prefix unset hx h size
      rw [eq_replicate_of_shifted shifted, size, spells_zeros] at h
      exact .inr ⟨x, hx, by rw [h]⟩
    · rintro (⟨-, hdigits⟩ | ⟨x', -, same⟩)
      · exact absurd (hdigits x (by simp)) noDigit
      · simp only [List.cons.injEq, true_and] at same
        have h := (@spells_zeros text 32).mpr same.2
        rw [BlsSigner.secretKeyFromHex_prefix unset hx h List.length_replicate]
        exact h
  · have bare : Util.stripHexPrefix s = s := by
      rw [Util.stripHexPrefix, if_neg]
      intro hpre
      rw [Util.hasHexPrefix, Bool.or_eq_true, List.isPrefixOf_iff_prefix,
        List.isPrefixOf_iff_prefix] at hpre
      rcases hpre with ⟨text, rfl⟩ | ⟨text, rfl⟩
      · exact marked ⟨'x', by simp, text, rfl⟩
      · exact marked ⟨'X', by simp, text, rfl⟩
    rw [bare]
    constructor
    · intro h
      exact .inl ⟨by rw [h.length, size], h.mem_digits⟩
    · rintro (⟨length, hdigits⟩ | ⟨x, hx, same⟩)
      · obtain ⟨bytes, h⟩ := exists_spells hdigits (by omega)
        have count := h.length
        rwa [BlsSigner.secretKeyFromHex_spells unset h (by omega)]
      · exact absurd ⟨x, hx, _, same⟩ marked

/-- **Which keys are imported right**: where the length is checked, those of digits only; the
third importer takes every text, and only 64 digits, or zeros behind a prefix, for what they are. -/
theorem imports_faithful_iff (unset : Nat → UInt32) (s : List Char) :
    (Faithful s (Bip340Signer.keyOfHex unset s) ↔
      ((Bip340Signer.stripPrefix s).length = 64 →
        ∀ c ∈ Bip340Signer.stripPrefix s, c ∈ digits)) ∧
    (Faithful s (Sr25519Signer.secretKeyFromHex unset s) ↔
      ((Util.stripHexPrefix s).length = 128 → ∀ c ∈ Util.stripHexPrefix s, c ∈ digits)) ∧
    (Faithful s (.ok (BlsSigner.secretKeyFromHex unset s)) ↔
      s.length = 64 ∧ (∀ c ∈ s, c ∈ digits) ∨
        ∃ x ∈ ['x', 'X'], s = '0' :: x :: List.replicate 64 '0') :=
  ⟨faithful_bip340_iff unset s, faithful_sr25519_iff unset s, faithful_bls_iff unset s⟩

/-- A sign for every other digit is taken for a key of ones. -/
theorem not_faithful_signs :
    let signs (n : Nat) := (List.replicate n ['+', '1']).flatten
    ¬Faithful (signs 32) (Bip340Signer.keyOfHex (fun _ => 0) (signs 32)) ∧
      ¬Faithful (signs 64) (Sr25519Signer.secretKeyFromHex (fun _ => 0) (signs 64)) ∧
      ¬Faithful (signs 32) (.ok (BlsSigner.secretKeyFromHex (fun _ => 0) (signs 32))) := by
  have sign : '+' ∉ digits := by decide
  refine ⟨?_, ?_, ?_⟩
  · rw [faithful_bip340_iff]
    exact fun h => sign (h rfl '+' (by decide))
  · rw [faithful_sr25519_iff]
    exact fun h => sign (h rfl '+' (by decide))
  · rw [faithful_bls_iff]
    rintro (⟨-, hdigits⟩ | ⟨x, -, same⟩)
    · exact sign (hdigits '+' (by decide))
    · exact absurd (List.cons.inj same).1 (by decide)

end MidnightSdk.Crypto
