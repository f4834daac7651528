import Mathlib.Algebra.Order.Group.Nat
import Mathlib.Data.List.Induction
import Mathlib.Data.Nat.Bitwise

/-!
# Checksums from a shift register

A register of `n + 1` symbols of `k` bits takes in a symbol at the low end and
feeds back what leaves at the high end, by any function. A symbol that has not
left yet is only shifted, so the last `n + 1` symbols of a text can be chosen to
bring the register to any value, in exactly one way.
-/

namespace MidnightSdk.PolyChecksum

variable (k n : Nat) (feedback : Nat → Nat)

def step (c v : Nat) : Nat := (c % 2 ^ (k * n)) <<< k ^^^ v ^^^ feedback (c >>> (k * n))

def absorb (c : Nat) (vs : List Nat) : Nat := vs.foldl (step k n feedback) c

/-- The symbols side by side, the first one highest. -/
def packed (vs : List Nat) : Nat := vs.foldl (fun a v => a <<< k ^^^ v) 0

/-- The `n + 1` symbols of a register, the highest first. -/
def symbols (m : Nat) : List Nat := (List.range (n + 1)).map fun i => (m >>> (k * (n - i))) % 2 ^ k

variable {k n feedback}

/-! ## Packing -/

theorem packed_snoc (vs : List Nat) (v : Nat) : packed k (vs ++ [v]) = packed k vs <<< k ^^^ v := by
  rw [packed, List.foldl_append]
  rfl

theorem packed_lt {vs : List Nat} (h : ∀ v ∈ vs, v < 2 ^ k) :
    packed k vs < 2 ^ (k * vs.length) := by
  induction vs using List.reverseRecOn with
  | nil => simp [packed]
  | append_singleton vs v ih =>
    have before := ih fun u hu => h u (List.mem_append_left _ hu)
    have last := h v (by simp)
    rw [packed_snoc, List.length_append, List.length_singleton, Nat.mul_succ]
    apply Nat.xor_lt_two_pow
    · rw [Nat.shiftLeft_eq, Nat.pow_add]
      exact Nat.mul_lt_mul_of_pos_right before (Nat.two_pow_pos k)
    · exact Nat.lt_of_lt_of_le last (Nat.pow_le_pow_right (by decide) (Nat.le_add_left ..))

/-- A symbol below the others does not touch them. -/
theorem shift_xor_symbol {a v : Nat} (h : v < 2 ^ k) :
    (a <<< k ^^^ v) >>> k = a ∧ (a <<< k ^^^ v) % 2 ^ k = v := by
  constructor
  · rw [Nat.shiftRight_xor_distrib, Nat.shiftLeft_shiftRight, Nat.shiftRight_eq_div_pow,
      Nat.div_eq_of_lt h, Nat.xor_zero]
  · rw [Nat.xor_mod_two_pow, Nat.shiftLeft_eq, Nat.mul_mod_left, Nat.zero_xor, Nat.mod_eq_of_lt h]

theorem shift_xor_low (x : Nat) : (x >>> k) <<< k ^^^ x % 2 ^ k = x := by
  apply Nat.eq_of_testBit_eq
  intro i
  rw [Nat.testBit_xor, Nat.testBit_shiftLeft, Nat.testBit_shiftRight, Nat.testBit_mod_two_pow]
  by_cases h : i < k
  · simp [h, Nat.not_le_of_lt h]
  · have high : k + (i - k) = i := by omega
    simp [h, high, Nat.le_of_not_lt h]

theorem packed_inj {us vs : List Nat} (hu : ∀ u ∈ us, u < 2 ^ k) (hv : ∀ v ∈ vs, v < 2 ^ k)
    (hlength : us.length = vs.length) (h : packed k us = packed k vs) : us = vs := by
  induction us using List.reverseRecOn generalizing vs with
  | nil => exact (List.length_eq_zero_iff.mp hlength.symm).symm
  | append_singleton us u ih =>
    cases vs using List.reverseRecOn with
    | nil => simp at hlength
    | append_singleton vs v =>
      have lastu := shift_xor_symbol (a := packed k us) (hu u (by simp))
      have lastv := shift_xor_symbol (a := packed k vs) (hv v (by simp))
      rw [packed_snoc, packed_snoc] at h
      have same : u = v := by rw [← lastu.2, h, lastv.2]
      have rest : packed k us = packed k vs := by rw [← lastu.1, h, lastv.1]
      rw [same, ih (fun w hw => hu w (List.mem_append_left _ hw))
        (fun w hw => hv w (List.mem_append_left _ hw)) (by simpa using hlength) rest]

theorem symbols_lt (m : Nat) : ∀ v ∈ symbols k n m, v < 2 ^ k := by
  intro v hv
  obtain ⟨i, -, rfl⟩ := List.mem_map.mp hv
  exact Nat.mod_lt _ (Nat.two_pow_pos k)

theorem length_symbols (m : Nat) : (symbols k n m).length = n + 1 := by
  simp [symbols]

/-- A register is its symbols. -/
theorem packed_symbols {m : Nat} (h : m < 2 ^ (k * (n + 1))) : packed k (symbols k n m) = m := by
  have taken (count : Nat) (hcount : count ≤ n + 1) :
      packed k ((List.range count).map fun i => (m >>> (k * (n - i))) % 2 ^ k) =
        m >>> (k * (n + 1 - count)) := by
    induction count with
    | zero => simp [packed, Nat.shiftRight_eq_div_pow, Nat.div_eq_of_lt h]
    | succ count ih =>
      have next : k * (n + 1 - count) = k * (n - count) + k := by
        rw [← Nat.mul_succ, Nat.succ_eq_add_one]
        congr 1
        omega
      have last : n + 1 - (count + 1) = n - count := by omega
      rw [List.range_succ, List.map_append, List.map_singleton, packed_snoc, ih (by omega), next,
        last, Nat.shiftRight_add]
      exact shift_xor_low _
  have all := taken (n + 1) (Nat.le_refl _)
  rwa [Nat.sub_self, Nat.mul_zero, Nat.shiftRight_zero] at all

/-! ## Absorbing -/

theorem step_lt (hfeedback : ∀ x, feedback x < 2 ^ (k * (n + 1))) (c : Nat) {v : Nat}
    (hv : v < 2 ^ (k * (n + 1))) : step k n feedback c v < 2 ^ (k * (n + 1)) := by
  refine Nat.xor_lt_two_pow (Nat.xor_lt_two_pow ?_ hv) (hfeedback _)
  rw [Nat.shiftLeft_eq, Nat.mul_succ, Nat.pow_add]
  exact Nat.mul_lt_mul_of_pos_right (Nat.mod_lt _ (Nat.two_pow_pos _)) (Nat.two_pow_pos k)

/-- What sits below the high end does not feed back. -/
theorem step_xor {d : Nat} (h : d < 2 ^ (k * n)) (c v : Nat) :
    step k n feedback (c ^^^ d) v = step k n feedback c 0 ^^^ (d <<< k ^^^ v) := by
  have gone : d >>> (k * n) = 0 := by rw [Nat.shiftRight_eq_div_pow, Nat.div_eq_of_lt h]
  rw [step, step, Nat.xor_mod_two_pow, Nat.mod_eq_of_lt h, Nat.shiftLeft_xor_distrib,
    Nat.shiftRight_xor_distrib, gone, Nat.xor_zero, Nat.xor_zero]
  ac_rfl

theorem absorb_snoc (c : Nat) (vs : List Nat) (v : Nat) :
    absorb k n feedback c (vs ++ [v]) = step k n feedback (absorb k n feedback c vs) v := by
  rw [absorb, List.foldl_append]
  rfl

/-- The last symbols are in the register as they are, over what zeros leave. -/
theorem absorb_eq (c : Nat) {vs : List Nat} (hv : ∀ v ∈ vs, v < 2 ^ k)
    (hlength : vs.length ≤ n + 1) :
    absorb k n feedback c vs =
      absorb k n feedback c (List.replicate vs.length 0) ^^^ packed k vs := by
  induction vs using List.reverseRecOn with
  | nil => simp [absorb, packed]
  | append_singleton vs v ih =>
    rw [List.length_append, List.length_singleton] at hlength ⊢
    have small : packed k vs < 2 ^ (k * n) := by
      refine Nat.lt_of_lt_of_le (packed_lt fun u hu => hv u (List.mem_append_left _ hu)) ?_
      exact Nat.pow_le_pow_right (by decide) (Nat.mul_le_mul_left k (by omega))
    rw [absorb_snoc, ih (fun u hu => hv u (List.mem_append_left _ hu)) (by omega), step_xor small,
      List.replicate_succ', absorb_snoc, packed_snoc]

/-- **One choice of the last symbols reaches a value of the register.** -/
theorem absorb_eq_iff (hfeedback : ∀ x, feedback x < 2 ^ (k * (n + 1))) (c : Nat) {target : Nat}
    (htarget : target < 2 ^ (k * (n + 1))) {vs : List Nat} (hv : ∀ v ∈ vs, v < 2 ^ k)
    (hlength : vs.length = n + 1) :
    absorb k n feedback c vs = target ↔
      vs = symbols k n (absorb k n feedback c (List.replicate (n + 1) 0) ^^^ target) := by
  have zeros : absorb k n feedback c (List.replicate (n + 1) 0) < 2 ^ (k * (n + 1)) := by
    rw [List.replicate_succ', absorb_snoc]
    exact step_lt hfeedback _ (Nat.two_pow_pos _)
  have register := packed_symbols (Nat.xor_lt_two_pow zeros htarget)
  rw [absorb_eq c hv (Nat.le_of_eq hlength), hlength]
  constructor
  · intro h
    refine packed_inj hv (symbols_lt _) (hlength.trans (length_symbols _).symm) ?_
    rw [register, ← h, ← Nat.xor_assoc, Nat.xor_self, Nat.zero_xor]
  · intro h
    rw [h, register, ← Nat.xor_assoc, Nat.xor_self, Nat.zero_xor]

/-! ## Errors -/

/-- The symbol that enters is seen at the low end. -/
theorem step_eq_xor (c v : Nat) : step k n feedback c v = step k n feedback c 0 ^^^ v := by
  rw [step, step, Nat.xor_zero]
  ac_rfl

theorem step_right_inj {c v w : Nat} (h : step k n feedback c v = step k n feedback c w) :
    v = w := by
  rw [step_eq_xor c v, step_eq_xor c w] at h
  exact Nat.xor_right_injective h

/-- A feedback whose low symbol tells apart what left the register loses nothing. -/
theorem step_left_inj
    (hdistinct : ∀ x < 2 ^ k, ∀ y < 2 ^ k, feedback x % 2 ^ k = feedback y % 2 ^ k → x = y)
    {c d v : Nat} (hc : c < 2 ^ (k * (n + 1))) (hd : d < 2 ^ (k * (n + 1)))
    (h : step k n feedback c v = step k n feedback d v) : c = d := by
  have leaves {x : Nat} (hx : x < 2 ^ (k * (n + 1))) : x >>> (k * n) < 2 ^ k := by
    rw [Nat.shiftRight_eq_div_pow]
    apply Nat.div_lt_of_lt_mul
    rwa [← Nat.pow_add, ← Nat.mul_succ]
  have lowest (x : Nat) :
      step k n feedback x v % 2 ^ k = (v ^^^ feedback (x >>> (k * n))) % 2 ^ k := by
    rw [step, Nat.xor_assoc, Nat.xor_mod_two_pow, Nat.shiftLeft_eq, Nat.mul_mod_left, Nat.zero_xor]
  have fed : feedback (c >>> (k * n)) % 2 ^ k = feedback (d >>> (k * n)) % 2 ^ k := by
    have low := congrArg (· % 2 ^ k) h
    simp only [lowest, Nat.xor_mod_two_pow] at low
    exact Nat.xor_right_injective low
  have high : c >>> (k * n) = d >>> (k * n) := hdistinct _ (leaves hc) _ (leaves hd) fed
  have low : c % 2 ^ (k * n) = d % 2 ^ (k * n) := by
    rw [step, step, high] at h
    have shifted := Nat.xor_left_injective (Nat.xor_left_injective h)
    simpa using congrArg (· >>> k) shifted
  rw [← shift_xor_low c, high, low, shift_xor_low]

theorem absorb_lt (hfeedback : ∀ x, feedback x < 2 ^ (k * (n + 1))) {c : Nat}
    (hc : c < 2 ^ (k * (n + 1))) {vs : List Nat} (hv : ∀ v ∈ vs, v < 2 ^ (k * (n + 1))) :
    absorb k n feedback c vs < 2 ^ (k * (n + 1)) := by
  induction vs using List.reverseRecOn with
  | nil => exact hc
  | append_singleton vs v _ =>
    rw [absorb_snoc]
    exact step_lt hfeedback _ (hv v (by simp))

section Detection
variable (hfeedback : ∀ x, feedback x < 2 ^ (k * (n + 1)))
  (hdistinct : ∀ x < 2 ^ k, ∀ y < 2 ^ k, feedback x % 2 ^ k = feedback y % 2 ^ k → x = y)
include hfeedback hdistinct

/-- Two registers stay apart whatever they take in. -/
theorem absorb_left_inj {c d : Nat} (hc : c < 2 ^ (k * (n + 1))) (hd : d < 2 ^ (k * (n + 1)))
    {vs : List Nat} (hv : ∀ v ∈ vs, v < 2 ^ (k * (n + 1)))
    (h : absorb k n feedback c vs = absorb k n feedback d vs) : c = d := by
  induction vs using List.reverseRecOn with
  | nil => exact h
  | append_singleton vs v ih =>
    have before : ∀ u ∈ vs, u < 2 ^ (k * (n + 1)) := fun u hu => hv u (List.mem_append_left _ hu)
    rw [absorb_snoc, absorb_snoc] at h
    apply ih before
    exact step_left_inj hdistinct (absorb_lt hfeedback hc before) (absorb_lt hfeedback hd before) h

/-- **One changed symbol is seen**, however many follow it. -/
theorem absorb_replaced (c : Nat) {front back : List Nat} {v w : Nat}
    (hv : v < 2 ^ (k * (n + 1))) (hw : w < 2 ^ (k * (n + 1)))
    (hback : ∀ u ∈ back, u < 2 ^ (k * (n + 1)))
    (h : absorb k n feedback c (front ++ v :: back) = absorb k n feedback c (front ++ w :: back)) :
    v = w := by
  simp only [absorb, List.foldl_append, List.foldl_cons] at h
  apply step_right_inj
  exact absorb_left_inj hfeedback hdistinct (step_lt hfeedback _ hv) (step_lt hfeedback _ hw)
    hback h

/-- **Two neighbours exchanged are seen**: the first one of them is shifted but
does not feed back before the second one is in. -/
theorem absorb_exchanged (c : Nat) {front back : List Nat} {v w : Nat} (hn : 0 < n)
    (hv : v < 2 ^ k) (hw : w < 2 ^ k) (hback : ∀ u ∈ back, u < 2 ^ (k * (n + 1)))
    (h : absorb k n feedback c (front ++ v :: w :: back) =
      absorb k n feedback c (front ++ w :: v :: back)) : v = w := by
  have wider {u m : Nat} (hm : 1 ≤ m) (hu : u < 2 ^ k) : u < 2 ^ (k * m) :=
    Nat.lt_of_lt_of_le hu (Nat.pow_le_pow_right (by decide) (Nat.le_mul_of_pos_right k hm))
  have wide {u : Nat} (hu : u < 2 ^ k) : u < 2 ^ (k * (n + 1)) := wider (Nat.le_add_left 1 n) hu
  simp only [absorb, List.foldl_append, List.foldl_cons] at h
  have both := absorb_left_inj hfeedback hdistinct (step_lt hfeedback _ (wide hw))
    (step_lt hfeedback _ (wide hv)) hback h
  generalize front.foldl (step k n feedback) c = r at both
  rw [step_eq_xor r v, step_eq_xor r w, step_xor (wider hn hv), step_xor (wider hn hw)] at both
  have low := congrArg (· % 2 ^ k) (Nat.xor_right_injective both)
  simp only [(shift_xor_symbol hv).2, (shift_xor_symbol hw).2] at low
  exact low.symm

end Detection

end MidnightSdk.PolyChecksum
