import Mathlib.Algebra.Order.Group.Nat
import Mathlib.Tactic.Ring

/-!
# Base-128 numbers

Seven bits a byte, least significant first, the top bit set on every byte but the
last. `encode` writes the shortest form; a reader accepts any terminated one.
-/

namespace MidnightSdk.Base128

def encode (n : Nat) : List UInt8 :=
  if n < 128 then [UInt8.ofNat n] else UInt8.ofNat (n % 128 + 128) :: encode (n / 128)
termination_by n
decreasing_by omega

/-- The value of the low seven bits of every byte. -/
def value : List UInt8 → Nat
  | [] => 0
  | b :: bs => b.toNat % 128 + 128 * value bs

/-- Every byte goes on but the last. -/
inductive Terminated : List UInt8 → Prop
  | last {b : UInt8} (h : b.toNat < 128) : Terminated [b]
  | more {b : UInt8} {bs : List UInt8} (h : 128 ≤ b.toNat) (rest : Terminated bs) :
      Terminated (b :: bs)

theorem Terminated.length_pos {bs : List UInt8} (h : Terminated bs) : 0 < bs.length := by
  cases h <;> simp

/-- All bytes in front of the last one go on. -/
theorem Terminated.eq_concat {bs : List UInt8} (h : Terminated bs) :
    ∃ more b, bs = more ++ [b] ∧ b.toNat < 128 ∧ ∀ x ∈ more, 128 ≤ x.toNat := by
  induction h with
  | @last b hb => exact ⟨[], b, rfl, hb, nofun⟩
  | @more c bs hc _ ih =>
    obtain ⟨more, b, rfl, hb, hmore⟩ := ih
    exact ⟨c :: more, b, rfl, hb, List.forall_mem_cons.mpr ⟨hc, hmore⟩⟩

/-- The first bytes end a number, or none of them does. -/
theorem terminated_or_endless (bytes : List UInt8) (width : Nat) :
    (∃ field rest, bytes = field ++ rest ∧ Terminated field ∧ field.length ≤ width) ∨
      ∀ b ∈ bytes.take width, 128 ≤ b.toNat := by
  induction width generalizing bytes with
  | zero => exact .inr (by simp)
  | succ width ih =>
    cases bytes with
    | nil => exact .inr (by simp)
    | cons b bytes =>
      by_cases hb : b.toNat < 128
      · exact .inl ⟨[b], bytes, rfl, .last hb, by simp⟩
      · rcases ih bytes with ⟨field, rest, rfl, terminated, short⟩ | endless
        · exact .inl ⟨b :: field, rest, rfl, .more (by omega) terminated, by simpa using short⟩
        · refine .inr ?_
          rw [List.take_succ_cons]
          exact List.forall_mem_cons.mpr ⟨by omega, endless⟩

theorem terminated_encode (n : Nat) : Terminated (encode n) := by
  induction n using Nat.strongRecOn with
  | ind n ih =>
    rw [encode]
    split
    · refine .last ?_
      rw [UInt8.toNat_ofNat']
      omega
    · refine .more ?_ (ih (n / 128) (by omega))
      rw [UInt8.toNat_ofNat']
      omega

/-- Reading gives the number that was written. -/
theorem value_encode (n : Nat) : value (encode n) = n := by
  induction n using Nat.strongRecOn with
  | ind n ih =>
    rw [encode]
    split
    · simp only [value, UInt8.toNat_ofNat']
      omega
    · rw [value, ih (n / 128) (by omega), UInt8.toNat_ofNat']
      omega

theorem length_encode_le {k n : Nat} (h : n < 128 ^ (k + 1)) : (encode n).length ≤ k + 1 := by
  induction k generalizing n with
  | zero =>
    rw [encode, if_pos (by omega)]
    rfl
  | succ k ih =>
    rw [encode]
    split
    · simp
    · have shorter : n / 128 < 128 ^ (k + 1) := by
        rw [Nat.pow_succ] at h
        omega
      have := ih shorter
      rw [List.length_cons]
      omega

theorem value_lt (bs : List UInt8) : value bs < 128 ^ bs.length := by
  induction bs with
  | nil => simp [value]
  | cons b bs ih =>
    rw [value, List.length_cons, Nat.pow_succ']
    omega

theorem value_append (bs cs : List UInt8) :
    value (bs ++ cs) = value bs + 128 ^ bs.length * value cs := by
  induction bs with
  | nil => simp [value]
  | cons b bs ih =>
    rw [List.cons_append, value, ih, value, List.length_cons]
    ring

/-- The bytes from the third on count 16384 and more. -/
theorem value_take_two (bs : List UInt8) :
    value bs = value (bs.take 2) + 16384 * value (bs.drop 2) := by
  match bs with
  | [] => rfl
  | [a] =>
    rw [List.take_of_length_le (by simp), List.drop_eq_nil_of_le (by simp)]
    rfl
  | a :: b :: bs =>
    simp only [value, List.take, List.drop]
    omega

theorem value_take_two_lt (bs : List UInt8) : value (bs.take 2) < 16384 :=
  Nat.lt_of_lt_of_le (value_lt _) (Nat.pow_le_pow_right (by decide) (List.length_take_le 2 bs))

/-- The number in front, in at most so many bytes, and what stands behind it. -/
def read : Nat → List UInt8 → Option (Nat × List UInt8)
  | 0, _ => none
  | _ + 1, [] => none
  | width + 1, b :: rest =>
    if b.toNat < 128 then some (b.toNat, rest)
    else do
      let (n, rest) ← read width rest
      return (b.toNat % 128 + 128 * n, rest)

theorem read_terminated {field : List UInt8} (h : Terminated field) {width : Nat}
    (hwidth : field.length ≤ width) (rest : List UInt8) :
    read width (field ++ rest) = some (value field, rest) := by
  induction h generalizing width with
  | @last b hb =>
    cases width with
    | zero => cases hwidth
    | succ width =>
      rw [List.singleton_append, read, if_pos hb, value, value, Nat.mod_eq_of_lt hb]
      rfl
  | @more b bs hb _ ih =>
    cases width with
    | zero => cases hwidth
    | succ width =>
      have behind := ih (Nat.le_of_succ_le_succ hwidth)
      rw [List.cons_append, read, if_neg (Nat.not_lt.mpr hb), behind]
      rfl

end MidnightSdk.Base128
