import Mathlib.Algebra.Order.Group.Nat
import Mathlib.Data.List.GetD
import Mathlib.Data.Nat.Log

/-!
# Hash trees with padding

A tree is built level by level over any type, with any function joining two
nodes, and a last odd node is joined with a pad. Branches lead back to the root;
where the joining function does not collide, a walk along a branch starts at the
leaf, and the root tells the lists apart up to the pad and the level they are.
-/

namespace MidnightSdk.PaddedMerkle

variable {β : Type} (pair : β → β → β) (pad : β)

/-- One level up. -/
def parents : List β → List β
  | [] => []
  | [x] => [pair x pad]
  | x :: y :: rest => pair x y :: parents rest

def level : Nat → List β → List β
  | 0, xs => xs
  | k + 1, xs => level k (parents pair pad xs)

/-- A step of a walk: the sibling, and whether it is on the left. -/
def join (x : β) (step : β × Bool) : β := if step.2 then pair step.1 x else pair x step.1

def walk (x : β) (steps : List (β × Bool)) : β := steps.foldl (join pair) x

/-- The siblings on the way from a place, as many levels as asked for. -/
def branch : Nat → List β → Nat → List (β × Bool)
  | 0, _, _ => []
  | k + 1, xs, i =>
    (xs.getD (if i % 2 = 0 then i + 1 else i - 1) pad, decide (i % 2 = 1)) ::
      branch k (parents pair pad xs) (i / 2)

variable {pair pad}

/-! ## Levels -/

theorem length_parents (xs : List β) : (parents pair pad xs).length = (xs.length + 1) / 2 := by
  fun_induction parents pair pad xs with
  | case1 => simp
  | case2 x => simp
  | case3 x y rest ih =>
    rw [List.length_cons, ih, List.length_cons, List.length_cons]
    omega

theorem getD_parents (xs : List β) {j : Nat} (h : 2 * j < xs.length) :
    (parents pair pad xs).getD j pad = pair (xs.getD (2 * j) pad) (xs.getD (2 * j + 1) pad) := by
  fun_induction parents pair pad xs generalizing j with
  | case1 => exact absurd h (Nat.not_lt_zero _)
  | case2 x =>
    obtain rfl : j = 0 := by
      rw [List.length_singleton] at h
      omega
    rfl
  | case3 x y rest ih =>
    cases j with
    | zero => rfl
    | succ j =>
      rw [List.length_cons, List.length_cons] at h
      exact ih (by omega)

theorem level_succ (k : Nat) (xs : List β) :
    level pair pad (k + 1) xs = parents pair pad (level pair pad k xs) := by
  induction k generalizing xs with
  | zero => rfl
  | succ k ih => rw [level, ih, level]

theorem level_add (j k : Nat) (xs : List β) :
    level pair pad j (level pair pad k xs) = level pair pad (j + k) xs := by
  induction k generalizing xs with
  | zero => rfl
  | succ k ih => rw [level, ih, ← Nat.add_assoc, level]

theorem length_level_le_iff (k m : Nat) (xs : List β) :
    (level pair pad k xs).length ≤ m ↔ xs.length ≤ 2 ^ k * m := by
  induction k generalizing xs with
  | zero => rw [level, Nat.pow_zero, Nat.one_mul]
  | succ k ih =>
    have double : 2 ^ (k + 1) * m = 2 * (2 ^ k * m) := by rw [Nat.pow_succ', Nat.mul_assoc]
    rw [level, ih, length_parents, double]
    omega

theorem lt_length_level_iff (k j : Nat) (xs : List β) :
    j < (level pair pad k xs).length ↔ 2 ^ k * j < xs.length := by
  rw [← not_iff_not, Nat.not_lt, Nat.not_lt, length_level_le_iff]

/-! ## Walks up a branch -/

/-- One step joins a place with its sibling. -/
theorem join_sibling (xs : List β) {i : Nat} (h : i < xs.length) :
    join pair (xs.getD i pad)
        (xs.getD (if i % 2 = 0 then i + 1 else i - 1) pad, decide (i % 2 = 1)) =
      (parents pair pad xs).getD (i / 2) pad := by
  rw [getD_parents xs (by omega), join]
  by_cases even : i % 2 = 0
  · have odd : ¬ i % 2 = 1 := by omega
    have left : 2 * (i / 2) = i := by omega
    simp only [even, left, if_true]
    rfl
  · have odd : i % 2 = 1 := by omega
    have left : 2 * (i / 2) = i - 1 := by omega
    have right : i - 1 + 1 = i := by omega
    simp only [odd, decide_true, left, right, if_true]
    rfl

/-- A branch leads to the node above. -/
theorem walk_branch (k : Nat) (xs : List β) {i : Nat} (h : i < xs.length) :
    walk pair (xs.getD i pad) (branch pair pad k xs i) =
      (level pair pad k xs).getD (i / 2 ^ k) pad := by
  induction k generalizing xs i with
  | zero => simp [branch, walk, level]
  | succ k ih =>
    have above : i / 2 < (parents pair pad xs).length := by
      rw [length_parents]
      omega
    rw [branch, walk, List.foldl_cons, join_sibling xs h, level, Nat.pow_succ',
      ← Nat.div_div_eq_div_mul]
    exact ih _ above

theorem length_branch (k : Nat) (xs : List β) (i : Nat) :
    (branch pair pad k xs i).length = k := by
  induction k generalizing xs i with
  | zero => rfl
  | succ k ih => rw [branch, List.length_cons, ih]

theorem branch_take {j k : Nat} (h : j ≤ k) (xs : List β) (i : Nat) :
    (branch pair pad k xs i).take j = branch pair pad j xs i := by
  induction j generalizing k xs i with
  | zero => rfl
  | succ j ih =>
    cases k with
    | zero => omega
    | succ k => rw [branch, branch, List.take_succ_cons, ih (Nat.le_of_succ_le_succ h)]

/-! ## Pairs that are joined -/

variable (pair pad)

def levelPairs : List β → List (β × β)
  | [] => []
  | [x] => [(x, pad)]
  | x :: y :: rest => (x, y) :: levelPairs rest

/-- The pairs joined in building some levels. -/
def builtPairs : Nat → List β → List (β × β)
  | 0, _ => []
  | k + 1, xs => levelPairs pad xs ++ builtPairs k (parents pair pad xs)

def stepPair (x : β) (step : β × Bool) : β × β := if step.2 then (step.1, x) else (x, step.1)

/-- The place a walk along these sides starts at. -/
def place : List (β × Bool) → Nat
  | [] => 0
  | step :: rest => 2 * place rest + if step.2 then 1 else 0

/-- The pairs joined on a walk. -/
def walkedPairs (x : β) : List (β × Bool) → List (β × β)
  | [] => []
  | step :: rest => stepPair x step :: walkedPairs (join pair x step) rest

/-- Different pairs of these have different parents. -/
def Separates (pairs : List (β × β)) : Prop :=
  ∀ p ∈ pairs, ∀ q ∈ pairs, pair p.1 p.2 = pair q.1 q.2 → p = q

/-- None of these pairs has the pad for a parent. -/
def Avoids (pairs : List (β × β)) : Prop := ∀ p ∈ pairs, pair p.1 p.2 ≠ pad

variable {pair pad}

theorem Separates.mono {pairs pairs' : List (β × β)} (h : Separates pair pairs)
    (hsub : ∀ p ∈ pairs', p ∈ pairs) : Separates pair pairs' :=
  fun p hp q hq => h p (hsub p hp) q (hsub q hq)

theorem Avoids.mono {pairs pairs' : List (β × β)} (h : Avoids pair pad pairs)
    (hsub : ∀ p ∈ pairs', p ∈ pairs) : Avoids pair pad pairs' :=
  fun p hp => h p (hsub p hp)

theorem join_eq (x : β) (step : β × Bool) :
    join pair x step = pair (stepPair x step).1 (stepPair x step).2 := by
  unfold join stepPair
  split <;> rfl

theorem parents_eq_map (xs : List β) :
    parents pair pad xs = (levelPairs pad xs).map fun p => pair p.1 p.2 := by
  fun_induction levelPairs pad xs with
  | case1 => rfl
  | case2 x => rfl
  | case3 x y rest ih => rw [parents, ih, List.map_cons]

theorem getD_mem_levelPairs (xs : List β) {j : Nat} (h : 2 * j < xs.length) :
    (xs.getD (2 * j) pad, xs.getD (2 * j + 1) pad) ∈ levelPairs pad xs := by
  fun_induction levelPairs pad xs generalizing j with
  | case1 => exact absurd h (Nat.not_lt_zero _)
  | case2 x =>
    obtain rfl : j = 0 := by
      rw [List.length_singleton] at h
      omega
    exact List.mem_singleton.mpr rfl
  | case3 x y rest ih =>
    cases j with
    | zero => exact List.mem_cons_self
    | succ j =>
      rw [List.length_cons, List.length_cons] at h
      exact List.mem_cons_of_mem _ (ih (by omega))

theorem builtPairs_add (j k : Nat) (xs : List β) :
    builtPairs pair pad (j + k) xs =
      builtPairs pair pad j xs ++ builtPairs pair pad k (level pair pad j xs) := by
  induction j generalizing xs with
  | zero => rw [Nat.zero_add, builtPairs, List.nil_append, level]
  | succ j ih => rw [Nat.succ_add, builtPairs, ih, builtPairs, level, List.append_assoc]

/-! What holds of the leaves, the pad and every parent holds of all that is joined. -/

theorem parents_forall {P : β → Prop} (hpair : ∀ a b, P (pair a b)) (xs : List β) :
    ∀ x ∈ parents pair pad xs, P x := by
  rw [parents_eq_map]
  intro x hx
  obtain ⟨p, -, rfl⟩ := List.mem_map.mp hx
  exact hpair p.1 p.2

theorem level_forall {P : β → Prop} (hpair : ∀ a b, P (pair a b)) (k : Nat) {xs : List β}
    (h : ∀ x ∈ xs, P x) : ∀ x ∈ level pair pad k xs, P x := by
  induction k generalizing xs with
  | zero => exact h
  | succ k ih => exact ih (parents_forall hpair xs)

theorem builtPairs_forall {P : β → Prop} (hpair : ∀ a b, P (pair a b)) (hpad : P pad) (k : Nat)
    {xs : List β} (h : ∀ x ∈ xs, P x) :
    ∀ p ∈ builtPairs pair pad k xs, P p.1 ∧ P p.2 := by
  have here {xs : List β} (h : ∀ x ∈ xs, P x) : ∀ p ∈ levelPairs pad xs, P p.1 ∧ P p.2 := by
    fun_induction levelPairs pad xs with
    | case1 => exact nofun
    | case2 x => simpa [hpad] using h
    | case3 x y rest ih =>
      obtain ⟨hx, hy, hrest⟩ : P x ∧ P y ∧ ∀ z ∈ rest, P z := by simpa using h
      exact List.forall_mem_cons.mpr ⟨⟨hx, hy⟩, ih hrest⟩
  induction k generalizing xs with
  | zero => exact nofun
  | succ k ih =>
    intro p hp
    exact (List.mem_append.mp hp).elim (here h p) (ih (parents_forall hpair xs) p)

theorem walkedPairs_forall {P : β → Prop} (hpair : ∀ a b, P (pair a b)) (steps : List (β × Bool))
    {x : β} (hx : P x) (h : ∀ step ∈ steps, P step.1) :
    ∀ p ∈ walkedPairs pair x steps, P p.1 ∧ P p.2 := by
  induction steps generalizing x with
  | nil => exact nofun
  | cons step rest ih =>
    obtain ⟨hstep, hrest⟩ := List.forall_mem_cons.mp h
    have joined : P (join pair x step) := by
      rw [join_eq]
      exact hpair _ _
    refine List.forall_mem_cons.mpr ⟨?_, ih joined hrest⟩
    unfold stepPair
    split
    · exact ⟨hstep, hx⟩
    · exact ⟨hx, hstep⟩

/-! ## Walks that reach the root -/

theorem place_lt (steps : List (β × Bool)) : place steps < 2 ^ steps.length := by
  induction steps with
  | nil => exact Nat.one_pos
  | cons step rest ih =>
    rw [place, List.length_cons, Nat.pow_succ']
    split <;> omega

theorem testBit_place (steps : List (β × Bool)) (j : Nat) (h : j < steps.length) :
    (steps[j]).2 = (place steps).testBit j := by
  induction steps generalizing j with
  | nil => cases h
  | cons step rest ih =>
    cases j with
    | zero =>
      rw [place, Nat.testBit_zero, List.getElem_cons_zero]
      cases step.2 <;> simp
    | succ j =>
      have half : place (step :: rest) / 2 = place rest := by
        rw [place]
        split <;> omega
      rw [Nat.testBit_succ, half]
      exact ih j (Nat.lt_of_succ_lt_succ h)

/-- A walk along the bits of a place that ends at the node above the place starts
at the place. Beyond the end of the list it starts at the pad, or joins something
to the pad. The pairs are compared from the top down. -/
theorem walk_sound (steps : List (β × Bool)) (xs : List β) (x : β) (i : Nat)
    (hbits : ∀ j (h : j < steps.length), (steps[j]).2 = i.testBit j)
    (hseparates : Separates pair (builtPairs pair pad steps.length xs ++ walkedPairs pair x steps))
    (hreaches : walk pair x steps =
      (level pair pad steps.length xs).getD (i / 2 ^ steps.length) pad) :
    (i < xs.length → x = xs.getD i pad) ∧
      (xs.length ≤ i → x = pad ∨ ∃ p ∈ walkedPairs pair x steps, pair p.1 p.2 = pad) := by
  induction steps generalizing xs x i with
  | nil =>
    rw [List.length_nil, Nat.pow_zero, Nat.div_one, level] at hreaches
    refine ⟨fun _ => hreaches, fun hbeyond => Or.inl ?_⟩
    rw [← List.getD_eq_default xs pad hbeyond]
    exact hreaches
  | cons step rest ih =>
    have first : step.2 = decide (i % 2 = 1) := by
      rw [← Nat.testBit_zero]
      exact hbits 0 (Nat.succ_pos _)
    have bits : ∀ j (h : j < rest.length), (rest[j]).2 = (i / 2).testBit j := by
      intro j h
      rw [← Nat.testBit_succ]
      exact hbits (j + 1) (Nat.succ_lt_succ h)
    have above : walk pair (join pair x step) rest =
        (level pair pad rest.length (parents pair pad xs)).getD (i / 2 / 2 ^ rest.length) pad := by
      rw [Nat.div_div_eq_div_mul, ← Nat.pow_succ']
      exact hreaches
    have separates : Separates pair (builtPairs pair pad rest.length (parents pair pad xs) ++
        walkedPairs pair (join pair x step) rest) := by
      apply hseparates.mono
      intro p hp
      rcases List.mem_append.mp hp with hp | hp
      · exact List.mem_append_left _ (List.mem_append_right _ hp)
      · exact List.mem_append_right _ (List.mem_cons_of_mem _ hp)
    obtain ⟨inside, beyond⟩ := ih (parents pair pad xs) (join pair x step) (i / 2) bits separates above
    rw [length_parents] at inside beyond
    by_cases hreal : 2 * (i / 2) < xs.length
    · have joined := inside (by omega)
      rw [getD_parents xs hreal, join_eq] at joined
      have same := hseparates _ (List.mem_append_right _ List.mem_cons_self) _
        (List.mem_append_left _ (List.mem_append_left _ (getD_mem_levelPairs xs hreal))) joined
      have start : x = xs.getD i pad := by
        rw [stepPair, first] at same
        by_cases hodd : i % 2 = 1
        · rw [if_pos (decide_eq_true hodd)] at same
          rw [(Prod.mk.inj same).2, show 2 * (i / 2) + 1 = i by omega]
        · rw [if_neg (by simpa using hodd)] at same
          rw [(Prod.mk.inj same).1, show 2 * (i / 2) = i by omega]
      refine ⟨fun _ => start, fun hbeyond => Or.inl ?_⟩
      rw [start, List.getD_eq_default xs pad hbeyond]
    · refine ⟨fun hinside => absurd hinside (by omega), fun _ => Or.inr ?_⟩
      rcases beyond (by omega) with hpad | ⟨p, hp, hpad⟩
      · exact ⟨stepPair x step, List.mem_cons_self, (join_eq x step).symm.trans hpad⟩
      · exact ⟨p, List.mem_cons_of_mem _ hp, hpad⟩

/-! ## Roots -/

variable (pair pad)

def height (xs : List β) : Nat := Nat.clog 2 xs.length

def root (xs : List β) : β := (level pair pad (height xs) xs).getD 0 pad

/-- A last odd node gets the pad beside it. -/
def evened (xs : List β) : List β := if xs.length % 2 = 1 then xs ++ [pad] else xs

/-- A list as its lowest level is joined: nothing stands for one pad, and one node
is joined with nothing. -/
def completed (xs : List β) : List β :=
  if xs = [] then [pad] else if xs.length = 1 then xs else evened pad xs

variable {pair pad}

theorem height_le_iff (xs : List β) (k : Nat) : height xs ≤ k ↔ xs.length ≤ 2 ^ k :=
  Nat.clog_le_iff_le_pow (by decide)

theorem height_level (k : Nat) (xs : List β) : height (level pair pad k xs) = height xs - k := by
  have bound (m : Nat) : height (level pair pad k xs) ≤ m ↔ height xs - k ≤ m := by
    rw [height_le_iff, length_level_le_iff, ← Nat.pow_add, ← height_le_iff]
    omega
  exact Nat.le_antisymm ((bound _).mpr (Nat.le_refl _)) ((bound _).mp (Nat.le_refl _))

theorem root_forall {P : β → Prop} (hpair : ∀ a b, P (pair a b)) (hpad : P pad) {xs : List β}
    (h : ∀ x ∈ xs, P x) : P (root pair pad xs) := by
  have all : ∀ x ∈ level pair pad (height xs) xs, P x := level_forall hpair (height xs) h
  rw [root]
  cases htop : level pair pad (height xs) xs with
  | nil => exact hpad
  | cons x rest => exact all x (htop ▸ List.mem_cons_self)

theorem root_level {k : Nat} {xs : List β} (h : k ≤ height xs) :
    root pair pad (level pair pad k xs) = root pair pad xs := by
  rw [root, height_level, level_add, Nat.sub_add_cancel h, root]

/-- A walk that ends at the root starts at the node its sides lead to, as many levels
below the root as it has steps. -/
theorem walk_root {steps : List (β × Bool)} {xs : List β} {x : β} (h : steps.length ≤ height xs)
    (hseparates : Separates pair (builtPairs pair pad (height xs) xs ++ walkedPairs pair x steps))
    (hreaches : walk pair x steps = root pair pad xs) :
    (place steps < (level pair pad (height xs - steps.length) xs).length →
        x = (level pair pad (height xs - steps.length) xs).getD (place steps) pad) ∧
      ((level pair pad (height xs - steps.length) xs).length ≤ place steps →
        x = pad ∨ ∃ p ∈ walkedPairs pair x steps, pair p.1 p.2 = pad) := by
  have split : builtPairs pair pad (height xs) xs =
      builtPairs pair pad (height xs - steps.length) xs ++
        builtPairs pair pad steps.length (level pair pad (height xs - steps.length) xs) := by
    rw [← builtPairs_add, Nat.sub_add_cancel h]
  apply walk_sound steps _ x (place steps) (testBit_place steps)
  · apply hseparates.mono
    intro p hp
    rw [split]
    rcases List.mem_append.mp hp with hp | hp
    · exact List.mem_append_left _ (List.mem_append_right _ hp)
    · exact List.mem_append_right _ hp
  · rw [hreaches, root, level_add, Nat.add_sub_cancel' h, Nat.div_eq_of_lt (place_lt steps)]

theorem parents_evened (xs : List β) :
    parents pair pad (evened pad xs) = parents pair pad xs := by
  unfold evened
  split
  · rename_i hodd
    fun_induction parents pair pad xs with
    | case1 => cases hodd
    | case2 x => rfl
    | case3 x y rest ih =>
      rw [List.length_cons, List.length_cons] at hodd
      rw [List.cons_append, List.cons_append, parents, ih (by omega)]
  · rfl

theorem height_evened {xs : List β} (h : 2 ≤ xs.length) : height (evened pad xs) = height xs := by
  have bound (k : Nat) : height (evened pad xs) ≤ k ↔ height xs ≤ k := by
    rw [height_le_iff, height_le_iff, evened]
    split
    · rw [List.length_append, List.length_singleton]
      cases k with
      | zero => omega
      | succ k =>
        rw [Nat.pow_succ]
        omega
    · rfl
  exact Nat.le_antisymm ((bound _).mpr (Nat.le_refl _)) ((bound _).mp (Nat.le_refl _))

theorem height_pos_iff (xs : List β) : 0 < height xs ↔ 2 ≤ xs.length := by
  rw [← not_iff_not, Nat.not_lt, height_le_iff]
  omega

theorem root_completed (xs : List β) : root pair pad (completed pad xs) = root pair pad xs := by
  unfold completed
  split_ifs with hnil hone
  · subst hnil
    rfl
  · rfl
  · have long : 2 ≤ xs.length := by
      have some := List.length_pos_iff.mpr hnil
      omega
    obtain ⟨k, hk⟩ := Nat.exists_eq_succ_of_ne_zero ((height_pos_iff xs).mpr long).ne'
    rw [root, root, height_evened long, hk, level, level, parents_evened]

/-! ## Equal roots -/

theorem Separates.map_inj {ps qs : List (β × β)} (h : Separates pair (ps ++ qs))
    (hmap : (ps.map fun p => pair p.1 p.2) = qs.map fun q => pair q.1 q.2) : ps = qs := by
  induction ps generalizing qs with
  | nil => exact (List.map_eq_nil_iff.mp hmap.symm).symm
  | cons p ps ih =>
    cases qs with
    | nil => cases hmap
    | cons q qs =>
      obtain ⟨head, tail⟩ := List.cons.inj hmap
      obtain rfl := h p (by simp) q (by simp) head
      have rest : Separates pair (ps ++ qs) := by
        apply h.mono
        intro r hr
        rcases List.mem_append.mp hr with hr | hr
        · exact List.mem_append_left _ (List.mem_cons_of_mem _ hr)
        · exact List.mem_append_right _ (List.mem_cons_of_mem _ hr)
      rw [ih rest tail]

theorem evened_eq_flatMap (xs : List β) :
    evened pad xs = (levelPairs pad xs).flatMap fun p => [p.1, p.2] := by
  fun_induction levelPairs pad xs with
  | case1 => rfl
  | case2 x => rfl
  | case3 x y rest ih =>
    rw [List.flatMap_cons, ← ih, evened, evened, List.length_cons, List.length_cons]
    by_cases hodd : rest.length % 2 = 1
    · rw [if_pos hodd, if_pos (by omega)]
      rfl
    · rw [if_neg hodd, if_neg (by omega)]
      rfl

/-- A level is known from the one above it, up to the pad. -/
theorem evened_inj {xs ys : List β} (h : Separates pair (levelPairs pad xs ++ levelPairs pad ys))
    (hparents : parents pair pad xs = parents pair pad ys) : evened pad xs = evened pad ys := by
  rw [parents_eq_map, parents_eq_map] at hparents
  rw [evened_eq_flatMap, evened_eq_flatMap, h.map_inj hparents]

/-- Without a pad in them, two levels evened alike are alike. -/
theorem eq_of_evened {xs ys : List β} (hx : pad ∉ xs) (hy : pad ∉ ys)
    (h : evened pad xs = evened pad ys) : xs = ys := by
  unfold evened at h
  split_ifs at h
  · exact List.append_cancel_right h
  · exact absurd (h ▸ List.mem_append_right xs (List.mem_singleton.mpr rfl)) hy
  · exact absurd (h.symm ▸ List.mem_append_right ys (List.mem_singleton.mpr rfl)) hx
  · exact h

theorem pad_notMem_parents {xs : List β} (h : Avoids pair pad (levelPairs pad xs)) :
    pad ∉ parents pair pad xs := by
  rw [parents_eq_map]
  intro hmem
  obtain ⟨p, hp, hpad⟩ := List.mem_map.mp hmem
  exact h p hp hpad

/-- What is asked of the pairs joined in two trees. -/
structure Sound (pair : β → β → β) (pad : β) (pairs : List (β × β)) : Prop where
  separates : Separates pair pairs
  avoids : Avoids pair pad pairs

theorem Sound.mono {pairs pairs' : List (β × β)} (h : Sound pair pad pairs)
    (hsub : ∀ p ∈ pairs', p ∈ pairs) : Sound pair pad pairs' :=
  ⟨h.separates.mono hsub, h.avoids.mono hsub⟩

/-- Lists with a level above them in common are one list, up to the pad. The levels
are compared from the top down; only the lowest one may hold a pad. -/
theorem evened_of_level (k : Nat) {xs ys : List β}
    (h : Sound pair pad (builtPairs pair pad (k + 1) xs ++ builtPairs pair pad (k + 1) ys))
    (hlevel : level pair pad (k + 1) xs = level pair pad (k + 1) ys) :
    evened pad xs = evened pad ys := by
  induction k generalizing xs ys with
  | zero =>
    rw [builtPairs, builtPairs, builtPairs, builtPairs, List.append_nil, List.append_nil] at h
    exact evened_inj h.separates hlevel
  | succ k ih =>
    have here : Sound pair pad (levelPairs pad xs ++ levelPairs pad ys) := by
      apply h.mono
      intro p hp
      rcases List.mem_append.mp hp with hp | hp
      · exact List.mem_append_left _ (List.mem_append_left _ hp)
      · exact List.mem_append_right _ (List.mem_append_left _ hp)
    have above : Sound pair pad (builtPairs pair pad (k + 1) (parents pair pad xs) ++
        builtPairs pair pad (k + 1) (parents pair pad ys)) := by
      apply h.mono
      intro p hp
      rcases List.mem_append.mp hp with hp | hp
      · exact List.mem_append_left _ (List.mem_append_right _ hp)
      · exact List.mem_append_right _ (List.mem_append_right _ hp)
    have hparents := eq_of_evened
      (pad_notMem_parents (here.avoids.mono fun p => List.mem_append_left _))
      (pad_notMem_parents (here.avoids.mono fun p => List.mem_append_right _)) (ih above hlevel)
    exact evened_inj here.separates hparents

theorem exists_singleton_level {xs : List β} (h : xs ≠ []) :
    level pair pad (height xs) xs = [root pair pad xs] := by
  have most : (level pair pad (height xs) xs).length ≤ 1 := by
    rw [length_level_le_iff, Nat.mul_one, ← height_le_iff]
  have least : 0 < (level pair pad (height xs) xs).length := by
    rw [lt_length_level_iff, Nat.mul_zero]
    exact List.length_pos_iff.mpr h
  obtain ⟨r, hr⟩ := List.length_eq_one_iff.mp (Nat.le_antisymm most least)
  rw [root, hr]
  rfl

/-- Trees of one height with one root are built over one list, up to the pad. -/
theorem completed_inj {xs ys : List β} (hheight : height xs = height ys)
    (h : Sound pair pad (builtPairs pair pad (height xs) xs ++ builtPairs pair pad (height ys) ys))
    (hroot : root pair pad xs = root pair pad ys) : completed pad xs = completed pad ys := by
  by_cases hflat : height xs = 0
  · have short (zs : List β) (hz : height zs = 0) : completed pad zs = [root pair pad zs] := by
      have length := (height_le_iff zs 0).mp (Nat.le_of_eq hz)
      cases zs with
      | nil => rfl
      | cons z zs =>
        obtain rfl : zs = [] := by
          rw [List.length_cons, Nat.pow_zero] at length
          exact List.length_eq_zero_iff.mp (by omega)
        rw [root, hz]
        rfl
    rw [short xs hflat, short ys (hheight ▸ hflat), hroot]
  · have hx : 2 ≤ xs.length := (height_pos_iff xs).mp (Nat.pos_of_ne_zero hflat)
    have hy : 2 ≤ ys.length := (height_pos_iff ys).mp (hheight ▸ Nat.pos_of_ne_zero hflat)
    have long (zs : List β) (hz : 2 ≤ zs.length) : completed pad zs = evened pad zs := by
      rw [completed, if_neg (by rintro rfl; simp at hz), if_neg (by omega)]
    have tops : level pair pad (height xs) xs = level pair pad (height ys) ys := by
      rw [exists_singleton_level (List.length_pos_iff.mp (by omega)),
        exists_singleton_level (List.length_pos_iff.mp (by omega)), hroot]
    obtain ⟨k, hk⟩ := Nat.exists_eq_succ_of_ne_zero hflat
    rw [← hheight, hk] at h tops
    rw [long xs hx, long ys hy]
    exact evened_of_level k h tops

/-- A tree has the root of another one whose level it is built over. -/
theorem root_eq_of_completed {xs ys : List β} {k : Nat} (hk : k ≤ height ys)
    (h : completed pad xs = completed pad (level pair pad k ys)) :
    root pair pad xs = root pair pad ys := by
  rw [← root_completed xs, h, root_completed, root_level hk]

theorem completed_of_root {xs ys : List β} (hheight : height xs ≤ height ys)
    (h : Sound pair pad (builtPairs pair pad (height xs) xs ++ builtPairs pair pad (height ys) ys))
    (hroot : root pair pad xs = root pair pad ys) :
    completed pad xs = completed pad (level pair pad (height ys - height xs) ys) := by
  have same : height xs = height (level pair pad (height ys - height xs) ys) := by
    rw [height_level]
    omega
  apply completed_inj same
  · rw [← same]
    have split : builtPairs pair pad (height ys) ys =
        builtPairs pair pad (height ys - height xs) ys ++
          builtPairs pair pad (height xs) (level pair pad (height ys - height xs) ys) := by
      rw [← builtPairs_add, Nat.sub_add_cancel hheight]
    apply h.mono
    intro p hp
    rw [split]
    rcases List.mem_append.mp hp with hp | hp
    · exact List.mem_append_left _ hp
    · exact List.mem_append_right _ (List.mem_append_right _ hp)
  · rw [root_level (Nat.sub_le _ _), hroot]

/-- **Which lists have one root.** One of them is a level of the other one's tree,
up to the pad beside a last odd node. -/
theorem root_eq_iff {xs ys : List β}
    (h : Sound pair pad (builtPairs pair pad (height xs) xs ++ builtPairs pair pad (height ys) ys)) :
    root pair pad xs = root pair pad ys ↔
      (∃ k ≤ height ys, completed pad xs = completed pad (level pair pad k ys)) ∨
        ∃ k ≤ height xs, completed pad ys = completed pad (level pair pad k xs) := by
  constructor
  · intro hroot
    rcases Nat.le_total (height xs) (height ys) with hheight | hheight
    · exact Or.inl ⟨_, Nat.sub_le _ _, completed_of_root hheight h hroot⟩
    · refine Or.inr ⟨_, Nat.sub_le _ _, completed_of_root hheight ?_ hroot.symm⟩
      exact h.mono fun p hp => List.mem_append.mpr (List.mem_append.mp hp).symm
  · rintro (⟨k, hk, hcompleted⟩ | ⟨k, hk, hcompleted⟩)
    · exact root_eq_of_completed hk hcompleted
    · exact (root_eq_of_completed hk hcompleted).symm

/-- Lists of one length with one root are one list. -/
theorem eq_of_root {xs ys : List β} (hlength : xs.length = ys.length)
    (h : Sound pair pad (builtPairs pair pad (height xs) xs ++ builtPairs pair pad (height ys) ys))
    (hroot : root pair pad xs = root pair pad ys) : xs = ys := by
  have same := completed_inj (by rw [height, height, hlength]) h hroot
  unfold completed evened at same
  by_cases hnil : xs = []
  · subst hnil
    exact (List.length_eq_zero_iff.mp hlength.symm).symm
  · have some : ys ≠ [] := by
      rintro rfl
      exact hnil (List.length_eq_zero_iff.mp hlength)
    rw [if_neg hnil, if_neg some, hlength] at same
    split_ifs at same
    · exact same
    · exact List.append_cancel_right same
    · exact same

/-! ## Cut lists -/

theorem parents_take (m : Nat) (xs : List β) :
    parents pair pad (xs.take (2 * m)) = (parents pair pad xs).take m := by
  induction m generalizing xs with
  | zero => rfl
  | succ m ih =>
    cases xs with
    | nil => rfl
    | cons x xs =>
      cases xs with
      | nil => simp [Nat.mul_succ, parents]
      | cons y rest =>
        rw [Nat.mul_succ, List.take_succ_cons, List.take_succ_cons, parents, parents,
          List.take_succ_cons, ih]

theorem level_take (k m : Nat) (xs : List β) :
    level pair pad k (xs.take (2 ^ k * m)) = (level pair pad k xs).take m := by
  induction k generalizing xs with
  | zero => rw [level, level, Nat.pow_zero, Nat.one_mul]
  | succ k ih => rw [level, level, Nat.pow_succ', Nat.mul_assoc, parents_take, ih]

end MidnightSdk.PaddedMerkle
