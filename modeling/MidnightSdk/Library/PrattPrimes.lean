import Mathlib.NumberTheory.LucasPrimality
import Mathlib.Data.List.Prime

/-!
# Certified primes

A number is prime when something has order `m - 1` modulo it, which the prime factors
of `m - 1` tell. A certificate lists those factors, and may use the primes certified
before it.
-/

namespace MidnightSdk

/-- `base ^ exponent % m` by squaring, for an exponent of at most `bits` bits. -/
def powMod (m : ℕ) : (bits base exponent : ℕ) → ℕ
  | 0, _, _ => 1 % m
  | bits + 1, base, exponent =>
    let rest := powMod m bits (base * base % m) (exponent / 2)
    if exponent % 2 = 1 then base * rest % m else rest

theorem powMod_eq (m : ℕ) {bits base exponent : ℕ} (h : exponent < 2 ^ bits) :
    powMod m bits base exponent = base ^ exponent % m := by
  induction bits generalizing base exponent with
  | zero =>
    obtain rfl : exponent = 0 := by omega
    rfl
  | succ bits ih =>
    rw [pow_succ] at h
    have halved : (base * base) ^ (exponent / 2) = base ^ (2 * (exponent / 2)) := by
      rw [← pow_two, ← pow_mul]
    rw [powMod, ih (by omega), ← Nat.pow_mod, halved]
    by_cases odd : exponent % 2 = 1
    · have whole : exponent = 2 * (exponent / 2) + 1 := by omega
      rw [if_pos odd, Nat.mul_mod_mod, ← pow_succ', ← whole]
    · have whole : exponent = 2 * (exponent / 2) := by omega
      rw [if_neg odd, ← whole]

theorem pow_eq_one_iff {m bits base exponent : ℕ} (hm : 1 < m) (h : exponent < 2 ^ bits) :
    (base : ZMod m) ^ exponent = 1 ↔ powMod m bits base exponent = 1 := by
  rw [powMod_eq m h, ← Nat.cast_pow, ← Nat.cast_one, ZMod.natCast_eq_natCast_iff',
    Nat.mod_eq_of_lt hm]

/-- A generator of the units, and the factors of `modulus - 1` as often as they divide it. -/
structure Pratt where
  modulus : ℕ
  generator : ℕ
  factors : List ℕ

namespace Pratt

/-- The factors are among the known primes, and the generator has the right order. -/
def Certifies (known : List ℕ) (c : Pratt) : Prop :=
  1 < c.modulus ∧ c.modulus < 2 ^ 256 ∧ c.factors.prod = c.modulus - 1 ∧
    powMod c.modulus 256 c.generator (c.modulus - 1) = 1 ∧
    ∀ q ∈ c.factors, q ∈ known ∧ powMod c.modulus 256 c.generator ((c.modulus - 1) / q) ≠ 1

instance (known : List ℕ) (c : Pratt) : Decidable (c.Certifies known) :=
  inferInstanceAs (Decidable (_ ∧ _))

theorem prime {known : List ℕ} {c : Pratt} (hknown : ∀ q ∈ known, q.Prime)
    (h : c.Certifies known) : c.modulus.Prime := by
  obtain ⟨above, below, product, power, orders⟩ := h
  apply lucas_primality c.modulus c.generator
  · exact (pow_eq_one_iff above (by omega)).mpr power
  · intro q hq divides
    rw [← product] at divides
    obtain ⟨f, hf, hqf⟩ := (hq.prime.dvd_prod_iff).mp divides
    obtain ⟨hmem, order⟩ := orders f hf
    obtain rfl : q = f := (Nat.prime_dvd_prime_iff_eq hq (hknown f hmem)).mp hqf
    have fits : (c.modulus - 1) / q < 2 ^ 256 := by
      have := Nat.div_le_self (c.modulus - 1) q
      omega
    exact mt (pow_eq_one_iff above fits).mp order

/-- Each certificate of a list may use the primes before it. -/
def CertifyAll : (known : List ℕ) → List Pratt → Prop
  | _, [] => True
  | known, c :: rest => c.Certifies known ∧ CertifyAll (c.modulus :: known) rest

def decideAll : (known : List ℕ) → (cs : List Pratt) → Decidable (CertifyAll known cs)
  | _, [] => isTrue trivial
  | known, c :: rest =>
    have := decideAll (c.modulus :: known) rest
    inferInstanceAs (Decidable (_ ∧ _))

instance (known : List ℕ) (cs : List Pratt) : Decidable (CertifyAll known cs) :=
  decideAll known cs

theorem all_prime {known : List ℕ} {cs : List Pratt} (hknown : ∀ q ∈ known, q.Prime)
    (h : CertifyAll known cs) : ∀ q ∈ cs.map Pratt.modulus, q.Prime := by
  induction cs generalizing known with
  | nil => simp
  | cons c rest ih =>
    obtain ⟨first, later⟩ := h
    have further : ∀ q ∈ c.modulus :: known, q.Prime :=
      List.forall_mem_cons.mpr ⟨prime hknown first, hknown⟩
    rw [List.map_cons, List.forall_mem_cons]
    exact ⟨prime hknown first, ih further later⟩

end Pratt

end MidnightSdk
