import Mathlib.Data.Nat.Log
import MidnightSdk.Library.LittleEndian

/-!
# SCALE compact integers

The format over the natural numbers: the low two bits of the first byte say
whether a number takes one, two or four bytes, or how many bytes follow.
-/

namespace MidnightSdk.Compact

open LittleEndian

def byteLength (n : Nat) : Nat := Nat.log 256 n + 1

def encode (n : Nat) : List UInt8 :=
  if n < 2 ^ 6 then leBytes 1 (4 * n)
  else if n < 2 ^ 14 then leBytes 2 (4 * n + 1)
  else if n < 2 ^ 30 then leBytes 4 (4 * n + 2)
  else UInt8.ofNat (4 * (byteLength n - 4) + 3) :: leBytes (byteLength n) n

/-- The number in the first `k` bytes and what follows them. -/
def takeLe (k : Nat) (bytes : List UInt8) : Option (Nat × List UInt8) :=
  if k ≤ bytes.length then some (leValue (bytes.take k), bytes.drop k) else none

/-- The number at the front of the bytes, and the rest. -/
def decode : List UInt8 → Option (Nat × List UInt8)
  | [] => none
  | b :: bs =>
    match b.toNat % 4 with
    | 0 => some (b.toNat / 4, bs)
    | 1 => (takeLe 2 (b :: bs)).map fun p => (p.1 / 4, p.2)
    | 2 => (takeLe 4 (b :: bs)).map fun p => (p.1 / 4, p.2)
    | _ => takeLe (b.toNat / 4 + 4) bs

theorem takeLe_eq_some {k v : Nat} {bytes tail : List UInt8} :
    takeLe k bytes = some (v, tail) ↔
      k ≤ bytes.length ∧ leValue (bytes.take k) = v ∧ bytes.drop k = tail := by
  unfold takeLe
  split <;> simp [*]

theorem takeLe_eq_none {k : Nat} {bytes : List UInt8} :
    takeLe k bytes = none ↔ bytes.length < k := by
  unfold takeLe
  split
  · simp [*]
  · simp only [true_iff]
    omega

theorem takeLe_leBytes (k n : Nat) (rest : List UInt8) :
    takeLe k (leBytes k n ++ rest) = some (n % 256 ^ k, rest) := by
  have len := leBytes_length k n
  rw [takeLe, if_pos (by simp), List.take_left' len, List.drop_left' len, leValue_leBytes]

theorem lt_byteLength (n : Nat) : n < 256 ^ byteLength n :=
  Nat.lt_pow_succ_log_self (by decide) n

theorem byteLength_le {n k : Nat} (hk : k ≠ 0) (h : n < 256 ^ k) : byteLength n ≤ k :=
  Nat.log_lt_of_lt_pow' hk h

theorem pow_le_leValue (bs : List UInt8) {b : UInt8} (hb : b ≠ 0) :
    256 ^ bs.length ≤ leValue (bs ++ [b]) := by
  have pos : 0 < b.toNat := Nat.pos_of_ne_zero fun h => hb (UInt8.toNat_inj.mp h)
  rw [leValue_concat]
  exact Nat.le_trans (Nat.le_mul_of_pos_right _ pos) (Nat.le_add_left ..)

/-- No byte of a number is spent on leading zeros. -/
theorem byteLength_leValue (bs : List UInt8) {b : UInt8} (hb : b ≠ 0) :
    byteLength (leValue (bs ++ [b])) = bs.length + 1 := by
  have below := leValue_lt (bs ++ [b])
  rw [List.length_append, List.length_singleton] at below
  have log : Nat.log 256 (leValue (bs ++ [b])) = bs.length :=
    Nat.log_eq_of_pow_le_of_lt_pow (pow_le_leValue bs hb) below
  rw [byteLength, log]

theorem four_le_byteLength {n : Nat} (h : 2 ^ 30 ≤ n) : 4 ≤ byteLength n := by
  have : 3 ≤ Nat.log 256 n := Nat.le_log_of_pow_le (by decide) (Nat.le_trans (by decide) h)
  rw [byteLength]
  omega

/-- The first byte of a short form carries the low six bits and the mode. -/
theorem decode_short {k n mode : Nat} (hk : k = 1 ∧ mode = 0 ∨ k = 2 ∧ mode = 1 ∨ k = 4 ∧ mode = 2)
    (hn : 4 * n + mode < 256 ^ k) (rest : List UInt8) :
    decode (leBytes k (4 * n + mode) ++ rest) = some (n, rest) := by
  have first (m : Nat) : (UInt8.ofNat (4 * n + m)).toNat % 4 = m % 4 := by
    rw [UInt8.toNat_ofNat']
    omega
  have number (m : Nat) (hm : m < 4) : (4 * n + m) / 4 = n := by omega
  rcases hk with ⟨rfl, rfl⟩ | ⟨rfl, rfl⟩ | ⟨rfl, rfl⟩
  · simp only [leBytes, List.cons_append, List.nil_append, decode, first]
    simp only [UInt8.toNat_ofNat', Option.some.injEq, Prod.mk.injEq, and_true]
    omega
  · have taken := takeLe_leBytes 2 (4 * n + 1) rest
    rw [Nat.mod_eq_of_lt hn] at taken
    rw [leBytes, List.cons_append] at taken ⊢
    simp only [decode, first, taken, Option.map_some]
    rw [number 1 (by decide)]
  · have taken := takeLe_leBytes 4 (4 * n + 2) rest
    rw [Nat.mod_eq_of_lt hn] at taken
    rw [leBytes, List.cons_append] at taken ⊢
    simp only [decode, first, taken, Option.map_some]
    rw [number 2 (by decide)]

/-- Every number the format can hold is read back, whatever follows it. -/
theorem decode_encode {n : Nat} (h : n < 256 ^ 67) (rest : List UInt8) :
    decode (encode n ++ rest) = some (n, rest) := by
  unfold encode
  split
  · exact decode_short (Or.inl ⟨rfl, rfl⟩) (by omega) rest
  · split
    · exact decode_short (Or.inr (Or.inl ⟨rfl, rfl⟩)) (by omega) rest
    · split
      · exact decode_short (Or.inr (Or.inr ⟨rfl, rfl⟩)) (by omega) rest
      · rename_i hbig
        have four := four_le_byteLength (Nat.not_lt.mp hbig)
        have most : byteLength n ≤ 67 := byteLength_le (by decide) h
        have mode : (UInt8.ofNat (4 * (byteLength n - 4) + 3)).toNat = 4 * (byteLength n - 4) + 3 := by
          rw [UInt8.toNat_ofNat']
          omega
        have count : (4 * (byteLength n - 4) + 3) / 4 + 4 = byteLength n := by omega
        have three : (4 * (byteLength n - 4) + 3) % 4 = 3 := by omega
        rw [List.cons_append]
        simp only [decode, mode, three, count, takeLe_leBytes]
        rw [Nat.mod_eq_of_lt (lt_byteLength n)]

theorem encode_length_le {n k : Nat} (hk : 4 ≤ k) (h : n < 256 ^ k) : (encode n).length ≤ k + 1 := by
  have := byteLength_le (by omega) h
  unfold encode
  split_ifs <;> simp only [List.length_cons, leBytes_length] <;> omega

/-- The long form of a number is its bytes behind their count. -/
theorem encode_leValue (bs : List UInt8) {b : UInt8} (hb : b ≠ 0) (hlong : 4 ≤ bs.length) :
    encode (leValue (bs ++ [b])) =
      UInt8.ofNat (4 * (bs.length + 1 - 4) + 3) :: (bs ++ [b]) := by
  have large : 256 ^ 4 ≤ leValue (bs ++ [b]) :=
    Nat.le_trans (Nat.pow_le_pow_right (by decide) hlong) (pow_le_leValue bs hb)
  have back := leBytes_leValue (bs ++ [b])
  rw [List.length_append, List.length_singleton] at back
  rw [encode, if_neg (by omega), if_neg (by omega), if_neg (by omega), byteLength_leValue bs hb, back]

end MidnightSdk.Compact
