import MidnightSdk.Library.LittleEndian

/-!
# Big-endian bytes

A number as a fixed count of bytes, most significant first, and back.
-/

namespace MidnightSdk.BigEndian

open LittleEndian

def beValue (bytes : List UInt8) : Nat := leValue bytes.reverse

/-- The last `k` big-endian bytes of a number. -/
def beBytes (k n : Nat) : List UInt8 := (leBytes k n).reverse

@[simp] theorem beBytes_length (k n : Nat) : (beBytes k n).length = k := by simp [beBytes]

theorem beValue_lt (bytes : List UInt8) : beValue bytes < 256 ^ bytes.length := by
  have below := leValue_lt bytes.reverse
  rwa [List.length_reverse] at below

theorem beValue_beBytes_of_lt {k n : Nat} (h : n < 256 ^ k) : beValue (beBytes k n) = n := by
  rw [beValue, beBytes, List.reverse_reverse, leValue_leBytes_of_lt h]

theorem beBytes_beValue (bytes : List UInt8) : beBytes bytes.length (beValue bytes) = bytes := by
  rw [beBytes, beValue, ← List.length_reverse, leBytes_leValue, List.reverse_reverse]

theorem beValue_inj {as bs : List UInt8} (h : as.length = bs.length) :
    beValue as = beValue bs ↔ as = bs := by
  constructor
  · intro same
    rw [← beBytes_beValue as, ← beBytes_beValue bs, same, h]
  · rintro rfl
    rfl

theorem beValue_cons (b : UInt8) (bytes : List UInt8) :
    beValue (b :: bytes) = b.toNat * 256 ^ bytes.length + beValue bytes := by
  rw [beValue, List.reverse_cons, leValue_concat, List.length_reverse, Nat.mul_comm, Nat.add_comm]
  rfl

theorem beValue_concat (bytes : List UInt8) (b : UInt8) :
    beValue (bytes ++ [b]) = 256 * beValue bytes + b.toNat := by
  rw [beValue, List.reverse_append, List.reverse_singleton, List.singleton_append, leValue,
    Nat.add_comm]
  rfl

end MidnightSdk.BigEndian
