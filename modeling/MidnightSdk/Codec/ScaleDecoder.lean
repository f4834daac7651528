import MidnightSdk.Library.ByteReader
import MidnightSdk.Library.Compact

/-!
# The SCALE decoder

Every routine checks that its bytes are there and then reads them through the
offset. The big-integer form of a compact number checks for the bytes after its
first one but not for that one.
-/

namespace MidnightSdk.Codec

open Cpp ByteReader LittleEndian

structure U128 where
  lo : UInt64
  hi : UInt64
  deriving DecidableEq, Repr

namespace ScaleDecoder

def insufficientData : Exception := .runtimeError "SCALE decode: insufficient data"

def checkRemaining (needed : UInt64) : Reader Unit := require insufficientData needed

def decodeU8 : Reader UInt8 := do
  checkRemaining 1
  let o ← offset
  let b ← byteAt o
  advance 1
  return b

def decodeU16Le : Reader UInt16 := do
  checkRemaining 2
  let o ← offset
  let b0 ← byteAt o
  let b1 ← byteAt (o + 1)
  advance 2
  return b0.toUInt16 ||| b1.toUInt16 <<< 8

/-- Four bytes at the offset as a 32-bit word. -/
def wordAt (o : UInt64) : Reader UInt32 := do
  let b0 ← byteAt o
  let b1 ← byteAt (o + 1)
  let b2 ← byteAt (o + 2)
  let b3 ← byteAt (o + 3)
  return b0.toUInt32 ||| b1.toUInt32 <<< 8 ||| b2.toUInt32 <<< 16 ||| b3.toUInt32 <<< 24

def decodeU32Le : Reader UInt32 := do
  checkRemaining 4
  let o ← offset
  let val ← wordAt o
  advance 4
  return val

def decodeU64Le : Reader UInt64 := do
  checkRemaining 8
  let o ← offset
  let val ← orBytes o 0 0 8
  advance 8
  return val

def decodeU128Le : Reader U128 := do
  checkRemaining 16
  let o ← offset
  let lo ← orBytes o 0 0 8
  let hi ← orBytes (o + 8) 0 0 8
  advance 16
  return ⟨lo, hi⟩

def decodeBool : Reader Bool := do
  let b ← decodeU8
  return b != 0

/-- The branch for big integers. The check comes before the offset passes the
first byte. -/
def decodeBig (first : UInt8) : Reader UInt64 := do
  let bytesNeeded := (first >>> 2) + 4
  checkRemaining bytesNeeded.toUInt64
  advance 1
  let o ← offset
  let lo ← orBytes o 0 0 (min bytesNeeded.toNat 16)
  advance bytesNeeded.toUInt64
  return lo

def decodeCompact : Reader UInt64 := do
  checkRemaining 1
  let o ← offset
  let first ← byteAt o
  if first &&& 0x03 = 0x00 then do
    advance 1
    return (first >>> 2).toUInt64
  else if first &&& 0x03 = 0x01 then do
    let val ← decodeU16Le
    return (val >>> 2).toUInt64
  else if first &&& 0x03 = 0x02 then do
    let val ← decodeU32Le
    return (val >>> 2).toUInt64
  else decodeBig first

def decodeRaw (len : UInt64) : Reader (List UInt8) := do
  checkRemaining len
  let o ← offset
  let result ← copyRange o (o + len)
  advance len
  return result

def decodeBytes : Reader (List UInt8) := do
  let len ← decodeCompact
  decodeRaw len

def decodeString : Reader (List UInt8) := do
  let bytes ← decodeBytes
  return bytes

/-! ## Fixed widths -/

theorem or_two_bytes (b0 b1 : UInt8) :
    b0.toUInt16 ||| b1.toUInt16 <<< 8 = UInt16.ofNat (leValue [b0, b1]) := by
  have h0 := b0.toNat_lt
  have h1 := b1.toNat_lt
  have high : (b1.toUInt16 <<< 8).toNat = b1.toNat <<< 8 := by
    rw [UInt16.toNat_shiftLeft, UInt8.toNat_toUInt16, Nat.mod_eq_of_lt]
    · rfl
    · change b1.toNat <<< 8 < 2 ^ 16
      rw [Nat.shiftLeft_eq]
      omega
  apply UInt16.toNat_inj.mp
  rw [UInt16.toNat_or, high, UInt8.toNat_toUInt16, or_shiftLeft h0, UInt16.toNat_ofNat']
  simp only [leValue]
  omega

theorem or_four_bytes (b0 b1 b2 b3 : UInt8) :
    b0.toUInt32 ||| b1.toUInt32 <<< 8 ||| b2.toUInt32 <<< 16 ||| b3.toUInt32 <<< 24 =
      UInt32.ofNat (leValue [b0, b1, b2, b3]) := by
  have h0 := b0.toNat_lt
  have h1 := b1.toNat_lt
  have h2 := b2.toNat_lt
  have h3 := b3.toNat_lt
  have shifted (b : UInt8) (shift : UInt32) (h : shift.toNat ≤ 24) :
      (b.toUInt32 <<< shift).toNat = b.toNat <<< shift.toNat := by
    have hb := b.toNat_lt
    rw [UInt32.toNat_shiftLeft, UInt8.toNat_toUInt32, Nat.mod_eq_of_lt (a := shift.toNat) (by omega),
      Nat.mod_eq_of_lt]
    rw [Nat.shiftLeft_eq]
    calc b.toNat * 2 ^ shift.toNat < 2 ^ 8 * 2 ^ shift.toNat :=
          Nat.mul_lt_mul_of_pos_right hb (Nat.two_pow_pos _)
      _ = 2 ^ (8 + shift.toNat) := (Nat.pow_add ..).symm
      _ ≤ 2 ^ 32 := Nat.pow_le_pow_right (by decide) (by omega)
  apply UInt32.toNat_inj.mp
  rw [UInt32.toNat_or, UInt32.toNat_or, UInt32.toNat_or, shifted b1 8 (by decide),
    shifted b2 16 (by decide), shifted b3 24 (by decide), UInt8.toNat_toUInt32]
  change b0.toNat ||| b1.toNat <<< 8 ||| b2.toNat <<< 16 ||| b3.toNat <<< 24 = _
  rw [or_shiftLeft h0, or_shiftLeft (i := 16) (by omega), or_shiftLeft (i := 24) (by omega),
    UInt32.toNat_ofNat']
  simp only [leValue]
  omega

theorem decodeU8_fixed : FixedWidth insufficientData decodeU8 1 (·.headD 0) := by
  apply FixedWidth.checked (by decide)
  intro xs hxs buf o tail ho h
  obtain ⟨b, rfl⟩ := List.length_eq_one_iff.mp hxs
  have first : byteAt o buf o = .ok b o := by
    simpa using byteAt_front ho h (k := 0) rfl o
  rw [offset_bind, bind_of_ok first]
  rfl

theorem decodeU16Le_fixed :
    FixedWidth insufficientData decodeU16Le 2 fun xs => UInt16.ofNat (leValue xs) := by
  apply FixedWidth.checked (by decide)
  intro xs hxs buf o tail ho h
  obtain ⟨b0, b1, rfl⟩ := List.length_eq_two.mp hxs
  have first : byteAt o buf o = .ok b0 o := by
    simpa using byteAt_front ho h (k := 0) rfl o
  have second : byteAt (o + 1) buf o = .ok b1 o := byteAt_front ho h rfl o
  rw [offset_bind, bind_of_ok first, bind_of_ok second, or_two_bytes]
  rfl

theorem decodeU32Le_fixed :
    FixedWidth insufficientData decodeU32Le 4 fun xs => UInt32.ofNat (leValue xs) := by
  apply FixedWidth.checked (by decide)
  intro xs hxs buf o tail ho h
  obtain ⟨b0, rest, rfl⟩ := List.exists_cons_of_length_eq_add_one hxs
  obtain ⟨b1, b2, b3, rfl⟩ := List.length_eq_three.mp (Nat.succ.inj hxs)
  have first : byteAt o buf o = .ok b0 o := by
    simpa using byteAt_front ho h (k := 0) rfl o
  have second : byteAt (o + 1) buf o = .ok b1 o := byteAt_front ho h rfl o
  have third : byteAt (o + 2) buf o = .ok b2 o := byteAt_front ho h rfl o
  have fourth : byteAt (o + 3) buf o = .ok b3 o := byteAt_front ho h rfl o
  have word : wordAt o buf o = .ok (UInt32.ofNat (leValue [b0, b1, b2, b3])) o := by
    rw [wordAt, bind_of_ok first, bind_of_ok second, bind_of_ok third, bind_of_ok fourth, or_four_bytes]
    rfl
  rw [offset_bind, bind_of_ok word]
  rfl

theorem decodeU64Le_fixed :
    FixedWidth insufficientData decodeU64Le 8 fun xs => UInt64.ofNat (leValue xs) := by
  apply FixedWidth.checked (n := 8) (by decide)
  intro xs hxs buf o tail ho h
  have word := orBytes_all ho h o hxs.symm
  rw [List.take_of_length_le (by omega)] at word
  rw [offset_bind, bind_of_ok word]
  rfl

theorem decodeBool_fixed :
    FixedWidth insufficientData decodeBool 1 ((· != 0) ∘ (·.headD 0)) :=
  decodeU8_fixed.map (· != 0)

theorem decodeU128Le_fixed :
    FixedWidth insufficientData decodeU128Le 16 fun xs =>
      ⟨UInt64.ofNat (leValue (xs.take 8)), UInt64.ofNat (leValue (xs.drop 8))⟩ := by
  apply FixedWidth.checked (n := 16) (by decide)
  intro xs hxs buf o tail ho h
  have halves : buf.bytes.drop o.toNat = xs.take 8 ++ (xs.drop 8 ++ tail) := by
    rw [h, ← List.append_assoc, List.take_append_drop]
  have low : (xs.take 8).length = 8 := List.length_take_of_le (by omega)
  have high : (xs.drop 8).length = 8 := by
    rw [List.length_drop]
    omega
  have next := drop_front ho halves
  have inside := front_le ho halves
  have moved := toNat_add_front ho halves
  rw [low] at next moved
  have lo := orBytes_all ho halves o low.symm
  have hi := orBytes_all (by omega) next o high.symm
  rw [List.take_of_length_le (by omega)] at lo hi
  rw [offset_bind, bind_of_ok lo]
  exact bind_of_ok hi

/-! ## Compact numbers -/

/-- At these bytes the check of a compact number sees all it will read: a
big-integer form is either complete or lacks more than its last byte. -/
def CompactFits (front : List UInt8) : Prop :=
  ∀ first rest, front = first :: rest → first.toNat % 4 = 3 →
    front.length ≠ first.toNat / 4 + 4

theorem toNat_mode (first : UInt8) : (first &&& 0x03).toNat = first.toNat % 4 := by
  rw [UInt8.toNat_and]
  exact Nat.and_two_pow_sub_one_eq_mod first.toNat 2

theorem toNat_quarter (first : UInt8) : (first >>> 2).toNat = first.toNat / 4 := by
  rw [UInt8.toNat_shiftRight]
  exact Nat.shiftRight_eq_div_pow first.toNat 2

theorem mode_eq_iff (first mode : UInt8) : first &&& 0x03 = mode ↔ first.toNat % 4 = mode.toNat := by
  rw [← UInt8.toNat_inj, toNat_mode]

/-- Past its first byte a compact number is read by its mode. -/
theorem decodeCompact_cons {buf : Buffer} {o : UInt64} {first : UInt8} {rest : List UInt8}
    (ho : o.toNat ≤ buf.bytes.length) (h : buf.bytes.drop o.toNat = first :: rest) :
    decodeCompact buf o =
      if first.toNat % 4 = 0 then .ok (UInt64.ofNat (first.toNat / 4)) (o + 1)
      else if first.toNat % 4 = 1 then
        (decodeU16Le >>= fun val => pure (val >>> 2).toUInt64) buf o
      else if first.toNat % 4 = 2 then
        (decodeU32Le >>= fun val => pure (val >>> 2).toUInt64) buf o
      else decodeBig first buf o := by
  have front : buf.bytes.drop o.toNat = [first] ++ rest := h
  have check : checkRemaining 1 buf o = .ok () o := require_front ho front (Nat.le_refl 1)
  have read : byteAt o buf o = .ok first o := by
    simpa using byteAt_front ho front (k := 0) rfl o
  have value : (first >>> 2).toUInt64 = UInt64.ofNat (first.toNat / 4) := by
    apply UInt64.toNat_inj.mp
    have := first.toNat_lt
    rw [UInt8.toNat_toUInt64, toNat_quarter, UInt64.toNat_ofNat']
    omega
  rw [decodeCompact, bind_of_ok check, offset_bind, bind_of_ok read]
  simp only [mode_eq_iff, value]
  split_ifs <;> first | rfl | contradiction

section Big
variable {buf : Buffer} {o : UInt64} {first : UInt8} {rest : List UInt8}

theorem toNat_bytesNeeded (first : UInt8) : ((first >>> 2) + 4).toNat = first.toNat / 4 + 4 := by
  have := first.toNat_lt
  rw [UInt8.toNat_add, toNat_quarter]
  change (first.toNat / 4 + 4) % 256 = _
  omega

theorem decodeBig_short (ho : o.toNat ≤ buf.bytes.length)
    (h : buf.bytes.length < o.toNat + (first.toNat / 4 + 4)) :
    decodeBig first buf o = .throws insufficientData o := by
  have := first.toNat_lt
  have needed : ((first >>> 2) + 4).toUInt64.toNat = first.toNat / 4 + 4 := by
    rw [UInt8.toNat_toUInt64, toNat_bytesNeeded]
  exact bind_of_throws (require_short ho (by omega) (by omega))

/-- When the check passes, the bytes after the first are gathered. -/
theorem decodeBig_checked (ho : o.toNat ≤ buf.bytes.length)
    (h : buf.bytes.drop o.toNat = first :: rest) (hn : first.toNat / 4 + 4 ≤ rest.length + 1) :
    decodeBig first buf o =
      (orBytes (o + 1) 0 0 (min (first.toNat / 4 + 4) 16) >>= fun lo =>
        advance (UInt64.ofNat (first.toNat / 4 + 4)) >>= fun _ => pure lo) buf (o + 1) := by
  have needed : ((first >>> 2) + 4).toUInt64.toNat = first.toNat / 4 + 4 := by
    rw [UInt8.toNat_toUInt64, toNat_bytesNeeded]
  have word : ((first >>> 2) + 4).toUInt64 = UInt64.ofNat (first.toNat / 4 + 4) := by
    rw [← needed, UInt64.ofNat_toNat]
  have front : buf.bytes.drop o.toNat = (first :: rest) ++ [] := by rw [h, List.append_nil]
  have check : checkRemaining ((first >>> 2) + 4).toUInt64 buf o = .ok () o :=
    require_front ho front (by rw [needed]; exact hn)
  rw [decodeBig, bind_of_ok check, advance_bind, offset_bind, toNat_bytesNeeded, word]

/-- The offset after the first byte, and what is there. -/
theorem past_first (ho : o.toNat ≤ buf.bytes.length) (h : buf.bytes.drop o.toNat = first :: rest) :
    (o + 1).toNat = o.toNat + 1 ∧ o.toNat + 1 + rest.length = buf.bytes.length ∧
      buf.bytes.drop (o + 1).toNat = rest := by
  have front : buf.bytes.drop o.toNat = [first] ++ rest := h
  have moved := toNat_add_front ho front
  have next := drop_front ho front
  have total := congrArg List.length h
  rw [List.length_drop, List.length_cons] at total
  rw [show UInt64.ofNat [first].length = 1 from rfl] at moved next
  exact ⟨moved, by omega, next⟩

theorem decodeBig_complete (ho : o.toNat ≤ buf.bytes.length)
    (h : buf.bytes.drop o.toNat = first :: rest) (hn : first.toNat / 4 + 4 ≤ rest.length) :
    decodeBig first buf o =
      .ok (UInt64.ofNat (leValue (rest.take (first.toNat / 4 + 4))))
        (o + 1 + UInt64.ofNat (first.toNat / 4 + 4)) := by
  obtain ⟨moved, total, next⟩ := past_first ho h
  have split : buf.bytes.drop (o + 1).toNat =
      rest.take (min (first.toNat / 4 + 4) 16) ++ rest.drop (min (first.toNat / 4 + 4) 16) := by
    rw [next, List.take_append_drop]
  have word := orBytes_all (by omega) split (o + 1) (List.length_take_of_le (by omega)).symm
  have eight : (rest.take (min (first.toNat / 4 + 4) 16)).take 8 =
      (rest.take (first.toNat / 4 + 4)).take 8 := by
    rw [List.take_take, List.take_take]
    congr 1
    omega
  rw [decodeBig_checked ho h (by omega), bind_of_ok word, eight, ofNat_leValue_take]
  rfl

/-- With exactly one byte missing the reader leaves the vector: it reads past
the end, or, for forms longer than the bytes it gathers, moves the offset past it. -/
theorem decodeBig_incomplete (ho : o.toNat ≤ buf.bytes.length)
    (h : buf.bytes.drop o.toNat = first :: rest) (hn : first.toNat / 4 + 4 = rest.length + 1) :
    (∃ index, decodeBig first buf o = .outOfBounds index) ∨
      ∃ v o', decodeBig first buf o = .ok v o' ∧ o'.toNat = buf.bytes.length + 1 := by
  obtain ⟨moved, total, next⟩ := past_first ho h
  have small := buf.small
  rw [decodeBig_checked ho h (by omega)]
  by_cases h16 : first.toNat / 4 + 4 ≤ 16
  · left
    have past : ∃ index,
        orBytes (o + 1) 0 0 (min (first.toNat / 4 + 4) 16) buf (o + 1) = .outOfBounds index :=
      orBytes_outOfBounds (o + 1) (by omega) (by omega)
    obtain ⟨index, hread⟩ := past
    exact ⟨index, bind_of_outOfBounds hread⟩
  · right
    have split : buf.bytes.drop (o + 1).toNat = rest.take 16 ++ rest.drop 16 := by
      rw [next, List.take_append_drop]
    have count : min (first.toNat / 4 + 4) 16 = (rest.take 16).length := by
      rw [List.length_take_of_le (by omega)]
      omega
    have word := orBytes_all (by omega) split (o + 1) count
    refine ⟨_, o + 1 + UInt64.ofNat (first.toNat / 4 + 4), by rw [bind_of_ok word]; rfl, ?_⟩
    rw [UInt64.toNat_add, moved, UInt64.toNat_ofNat']
    omega

end Big

theorem quarter_u16 {n : Nat} (h : n < 2 ^ 16) :
    (UInt16.ofNat n >>> 2).toUInt64 = UInt64.ofNat (n / 4) := by
  apply UInt64.toNat_inj.mp
  rw [UInt16.toNat_toUInt64, UInt16.toNat_shiftRight, UInt16.toNat_ofNat', UInt64.toNat_ofNat',
    Nat.shiftRight_eq_div_pow, Nat.mod_eq_of_lt h]
  change n / 4 = _
  omega

theorem quarter_u32 {n : Nat} (h : n < 2 ^ 32) :
    (UInt32.ofNat n >>> 2).toUInt64 = UInt64.ofNat (n / 4) := by
  apply UInt64.toNat_inj.mp
  rw [UInt32.toNat_toUInt64, UInt32.toNat_shiftRight, UInt32.toNat_ofNat', UInt64.toNat_ofNat',
    Nat.shiftRight_eq_div_pow, Nat.mod_eq_of_lt h]
  change n / 4 = _
  omega

section Agreement
variable {buf : Buffer} {o : UInt64}

/-- Where the format has a number, the decoder returns it in 64 bits and moves
past it. -/
theorem decodeCompact_some (ho : o.toNat ≤ buf.bytes.length) {v : Nat} {tail : List UInt8}
    (h : Compact.decode (buf.bytes.drop o.toNat) = some (v, tail)) :
    ∃ header, header ≠ [] ∧ buf.bytes.drop o.toNat = header ++ tail ∧
      decodeCompact buf o = .ok (UInt64.ofNat v) (o + UInt64.ofNat header.length) := by
  cases hfront : buf.bytes.drop o.toNat with
  | nil =>
    rw [hfront] at h
    cases h
  | cons first rest =>
    rw [hfront] at h
    rw [decodeCompact_cons ho hfront]
    rw [Compact.decode] at h
    split at h
    · rename_i hmode
      cases h
      exact ⟨[first], by simp, rfl, by rw [if_pos hmode]; rfl⟩
    · rename_i hmode
      obtain ⟨⟨n, tail'⟩, htake, hn⟩ := Option.map_eq_some_iff.mp h
      cases hn
      obtain ⟨hlen, rfl, rfl⟩ := Compact.takeLe_eq_some.mp htake
      have bound := leValue_lt ((first :: rest).take 2)
      rw [List.length_take_of_le hlen] at bound
      refine ⟨_, by simp, (List.take_append_drop 2 _).symm, ?_⟩
      rw [if_neg (by omega), if_pos hmode,
        (decodeU16Le_fixed.map fun val => (val >>> 2).toUInt64).take ho hfront hlen]
      rw [Function.comp_apply, quarter_u16 bound]
    · rename_i hmode
      obtain ⟨⟨n, tail'⟩, htake, hn⟩ := Option.map_eq_some_iff.mp h
      cases hn
      obtain ⟨hlen, rfl, rfl⟩ := Compact.takeLe_eq_some.mp htake
      have bound := leValue_lt ((first :: rest).take 4)
      rw [List.length_take_of_le hlen] at bound
      refine ⟨_, by simp, (List.take_append_drop 4 _).symm, ?_⟩
      rw [if_neg (by omega), if_neg (by omega), if_pos hmode,
        (decodeU32Le_fixed.map fun val => (val >>> 2).toUInt64).take ho hfront hlen]
      rw [Function.comp_apply, quarter_u32 bound]
    · rename_i h0 h1 h2
      obtain ⟨hlen, rfl, rfl⟩ := Compact.takeLe_eq_some.mp h
      refine ⟨first :: rest.take (first.toNat / 4 + 4), by simp,
        by rw [List.cons_append, List.take_append_drop], ?_⟩
      have past : o + 1 + UInt64.ofNat (first.toNat / 4 + 4) =
          o + UInt64.ofNat (first.toNat / 4 + 4 + 1) := by
        rw [UInt64.add_assoc, UInt64.add_comm 1, UInt64.ofNat_add (first.toNat / 4 + 4) 1]
        rfl
      rw [if_neg h0, if_neg h1, if_neg h2, decodeBig_complete ho hfront hlen, List.length_cons,
        List.length_take_of_le hlen, past]

/-- Where it has none, the decoder throws, unless one byte is missing. -/
theorem decodeCompact_none (ho : o.toNat ≤ buf.bytes.length)
    (hfit : CompactFits (buf.bytes.drop o.toNat))
    (h : Compact.decode (buf.bytes.drop o.toNat) = none) :
    decodeCompact buf o = .throws insufficientData o := by
  have len : (buf.bytes.drop o.toNat).length = buf.bytes.length - o.toNat := List.length_drop
  cases hfront : buf.bytes.drop o.toNat with
  | nil =>
    rw [hfront, List.length_nil] at len
    apply bind_of_throws
    apply require_short ho (by decide)
    change _ < _ + 1
    omega
  | cons first rest =>
    rw [hfront] at h len
    rw [List.length_cons] at len
    rw [decodeCompact_cons ho hfront]
    rw [Compact.decode] at h
    split at h
    · cases h
    · rename_i hmode
      have short := Compact.takeLe_eq_none.mp (Option.map_eq_none_iff.mp h)
      rw [List.length_cons] at short
      rw [if_neg (by omega), if_pos hmode]
      exact bind_of_throws (decodeU16Le_fixed.short buf o ho (by omega))
    · rename_i hmode
      have short := Compact.takeLe_eq_none.mp (Option.map_eq_none_iff.mp h)
      rw [List.length_cons] at short
      rw [if_neg (by omega), if_neg (by omega), if_pos hmode]
      exact bind_of_throws (decodeU32Le_fixed.short buf o ho (by omega))
    · rename_i h0 h1 h2
      have h0 : first.toNat % 4 ≠ 0 := h0
      have h1 : first.toNat % 4 ≠ 1 := h1
      have h2 : first.toNat % 4 ≠ 2 := h2
      have short := Compact.takeLe_eq_none.mp h
      have complete := hfit first rest hfront (by omega)
      rw [hfront, List.length_cons] at complete
      rw [if_neg h0, if_neg h1, if_neg h2]
      exact decodeBig_short ho (by omega)

/-- **What a complete number is returned as.** Its low eight bytes, with the offset
behind all of it: the number itself exactly when it fits the 64 bits of the result. -/
theorem decodeCompact_low_bytes (buf : Buffer) (o : UInt64) (v : Nat) (tail : List UInt8)
    (ho : o.toNat ≤ buf.bytes.length)
    (h : Compact.decode (buf.bytes.drop o.toNat) = some (v, tail)) :
    ∃ word o', decodeCompact buf o = .ok word o' ∧ buf.bytes.drop o'.toNat = tail ∧
      word.toNat = v % 2 ^ 64 ∧ (word.toNat = v ↔ v < 2 ^ 64) := by
  obtain ⟨header, -, hfront, hread⟩ := decodeCompact_some ho h
  have low : (UInt64.ofNat v).toNat = v % 2 ^ 64 := UInt64.toNat_ofNat'
  refine ⟨_, _, hread, drop_front ho hfront, low, ?_⟩
  rw [low]
  constructor
  · intro same
    rw [← same]
    exact Nat.mod_lt v (by decide)
  · intro small
    exact Nat.mod_eq_of_lt small

/-- The four bytes of a number behind one byte that is not read. -/
theorem decodeCompact_low_bytes_middle :
    ∃ word o', decodeCompact ⟨[9, 0x02, 0x00, 0x04, 0x00, 7], by decide⟩ 1 = .ok word o' ∧
      word.toNat = 65536 := by
  obtain ⟨word, o', hread, -, -, hword⟩ :=
    decodeCompact_low_bytes ⟨[9, 0x02, 0x00, 0x04, 0x00, 7], by decide⟩ 1 65536 [7] (by decide)
      (by decide)
  exact ⟨word, o', hread, hword.mpr (by decide)⟩

/-- The number `2 ^ 64`, complete in nine bytes behind its first one, is returned as
zero. -/
theorem decodeCompact_truncates :
    Compact.decode [0x17, 0, 0, 0, 0, 0, 0, 0, 0, 1] = some (18446744073709551616, []) ∧
      decodeCompact ⟨[0x17, 0, 0, 0, 0, 0, 0, 0, 0, 1], by decide⟩ 0 = .ok 0 10 := by
  constructor <;> decide +kernel

end Agreement

/-! ## Runs of bytes -/

theorem decodeRaw_reads {len : UInt64} {xs : List UInt8} (hlen : len.toNat = xs.length) :
    Reads (decodeRaw len) xs xs := by
  intro buf o tail ho h
  have check : checkRemaining len buf o = .ok () o := require_front ho h (by omega)
  have moved : len = UInt64.ofNat xs.length := by rw [← hlen, UInt64.ofNat_toNat]
  rw [decodeRaw, bind_of_ok check, offset_bind, bind_of_ok (copyRange_front ho h hlen), advance_bind,
    moved]
  rfl

/-- Asked for more than is left, the reader throws where it stands: the check
fails, or its sum wraps and the vector is too long to be made. -/
theorem decodeRaw_throws (buf : Buffer) {o : UInt64} (len : UInt64) (ho : o.toNat ≤ 2 ^ 63)
    (h : buf.bytes.length < o.toNat + len.toNat) : ∃ e, decodeRaw len buf o = .throws e o := by
  have small := buf.small
  have := len.toNat_lt
  by_cases hcheck : o + len > buf.size
  · exact ⟨insufficientData, bind_of_throws (if_pos hcheck)⟩
  · have wraps : 2 ^ 63 ≤ len.toNat := by
      rw [gt_iff_lt, UInt64.lt_iff_toNat_lt, UInt64.toNat_add, buf.toNat_size] at hcheck
      omega
    have span : o + len - o = len := by rw [UInt64.add_comm, UInt64.add_sub_cancel]
    have check : checkRemaining len buf o = .ok () o := if_neg hcheck
    have long : copyRange o (o + len) buf o =
        .throws (.lengthError "cannot create std::vector larger than max_size()") o := by
      rw [copyRange, span]
      exact if_pos wraps
    exact ⟨_, by rw [decodeRaw, bind_of_ok check, offset_bind, bind_of_throws long]⟩

/-- A number as its compact form, whatever follows. -/
theorem decodeCompact_reads (n : UInt64) : Reads decodeCompact (Compact.encode n.toNat) n := by
  intro buf o tail ho h
  have number := Compact.decode_encode (n := n.toNat)
    (Nat.lt_of_lt_of_le n.toNat_lt (by decide)) tail
  rw [← h] at number
  obtain ⟨header, -, hheader, hread⟩ := decodeCompact_some ho number
  have same : header = Compact.encode n.toNat := List.append_cancel_right (hheader.symm.trans h)
  rw [hread, same, UInt64.ofNat_toNat]

theorem decodeBytes_reads {data : List UInt8} (h : data.length < 2 ^ 64) :
    Reads decodeBytes (Compact.encode data.length ++ data) data := by
  have count : (UInt64.ofNat data.length).toNat = data.length := by
    rw [UInt64.toNat_ofNat', Nat.mod_eq_of_lt h]
  have header := decodeCompact_reads (UInt64.ofNat data.length)
  rw [count] at header
  exact header.bind (decodeRaw_reads count)

end ScaleDecoder

end MidnightSdk.Codec
