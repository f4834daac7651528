import MidnightSdk.Library.Cpp
import MidnightSdk.Library.PaddedMerkle

/-!
# Merkle trees

The tree keeps every level down from its leaves. A path has a sibling for each
level kept, the root's included; a proof is folded along the positions it brings
itself, and its index is not read.
-/

namespace MidnightSdk.Crypto

open Cpp PaddedMerkle

def depth : Nat := 32

def hashSize : Nat := 32

def zeros : List UInt8 := List.replicate hashSize 0

/-- What is kept of a leaf: as many bytes as a hash has, filled up with zeros. -/
def normalizedLeaf (leaf : List UInt8) : List UInt8 :=
  leaf.take hashSize ++ List.replicate (hashSize - leaf.length) 0

structure MerkleTree where
  leaves : List (List UInt8)
  nodes : List (List (List UInt8))
  root : List UInt8
  deriving DecidableEq, Repr

section
variable (blake2b256 : List UInt8 → Bytes 32)

def hashPair (left right : List UInt8) : List UInt8 := (blake2b256 (left ++ right)).1

/-- The loop over `i` that joins two nodes, or the last one with zeros. -/
def nextLevel (currentLevel : List (List UInt8)) : List (List UInt8) :=
  parents (hashPair blake2b256) zeros currentLevel

/-- The loop over the levels: those stored, and the last one reached. -/
def levelLoop : Nat → List (List UInt8) → List (List (List UInt8)) × List (List UInt8)
  | 0, currentLevel => ([], currentLevel)
  | count + 1, currentLevel =>
    if currentLevel.length ≤ 1 then ([currentLevel], currentLevel)
    else
      let (nodes, last) := levelLoop count (nextLevel blake2b256 currentLevel)
      (currentLevel :: nodes, last)

/-- Levels that are not reached stay empty. -/
def fromLeaves (leaves : List (List UInt8)) : MerkleTree :=
  let normalizedLeaves := leaves.map normalizedLeaf
  let (stored, last) := levelLoop blake2b256 depth normalizedLeaves
  { leaves := normalizedLeaves,
    nodes := stored ++ List.replicate (depth - stored.length) [],
    root := last.headD zeros }

end

namespace MerkleTree

def getLeaf (t : MerkleTree) (index : Nat) : Option (List UInt8) := t.leaves[index]?

/-- The loop over the levels; it ends at an empty one. -/
def pathLoop : List (List (List UInt8)) → Nat → List (List UInt8)
  | [], _ => []
  | level :: rest, idx =>
    if level.isEmpty then []
    else
      let siblingIdx := if idx % 2 = 0 then idx + 1 else idx - 1
      let sibling := if siblingIdx < level.length then level.getD siblingIdx [] else zeros
      sibling :: pathLoop rest (idx / 2)

def getPath (t : MerkleTree) (leafIndex : Nat) : Option (List (List UInt8)) :=
  if leafIndex ≥ t.leaves.length then none else some (pathLoop (t.nodes.take depth) leafIndex)

end MerkleTree

structure MerkleProof where
  leaf : List UInt8
  siblings : List (List UInt8)
  siblingPositions : List Nat
  leafIndex : Nat
  deriving DecidableEq, Repr

namespace MerkleProof

section
variable (blake2b256 : List UInt8 → Bytes 32)

/-- The loop over the siblings, beside what is left of the positions. -/
def foldLoop : List (List UInt8) → List Nat → List UInt8 → List UInt8
  | [], _, current => current
  | _ :: siblings, [], current => foldLoop siblings [] (hashPair blake2b256 current zeros)
  | sibling :: siblings, position :: positions, current =>
    foldLoop siblings positions
      (if position = 0 then hashPair blake2b256 sibling current
        else hashPair blake2b256 current sibling)

def computeRoot (p : MerkleProof) : List UInt8 :=
  foldLoop blake2b256 p.siblings p.siblingPositions p.leaf

/-- Texts of different sizes are not equal. -/
def verify (p : MerkleProof) (expectedRoot : List UInt8) : Bool :=
  if p.leaf.isEmpty || expectedRoot.isEmpty then false
  else decide (p.computeRoot blake2b256 = expectedRoot)

end

end MerkleProof

/-! ## Some hashes -/

def ones : List UInt8 := List.replicate hashSize 1

def zerosOnes : Bytes 32 :=
  ⟨[0x03, 0x7f, 0x2d, 0xa1, 0xed, 0xda, 0xee, 0x43, 0x6a, 0x85, 0xdc, 0xcc,
    0x07, 0x22, 0x45, 0xe4, 0x7b, 0xc4, 0x0f, 0x15, 0x9a, 0x9c, 0x43, 0x5e,
    0x27, 0x51, 0x29, 0x96, 0x36, 0xb1, 0xef, 0x03], rfl⟩

def onesZeros : Bytes 32 :=
  ⟨[0xb7, 0x20, 0x07, 0x02, 0xf3, 0xbd, 0x78, 0xab, 0x4f, 0x99, 0xd1, 0x87,
    0x7f, 0xf9, 0x23, 0xa7, 0x06, 0xf1, 0x0d, 0xe4, 0x75, 0xae, 0xda, 0x08,
    0xf0, 0x41, 0x8b, 0xc4, 0x81, 0xc0, 0xc4, 0xd4], rfl⟩

def onesAbove : Bytes 32 :=
  ⟨[0x21, 0x8a, 0x43, 0xcb, 0xca, 0x67, 0x4c, 0x8e, 0x59, 0xa0, 0xaf, 0xf5,
    0x69, 0x5d, 0xd2, 0x88, 0x94, 0x9a, 0x52, 0xcf, 0x1f, 0x79, 0xb7, 0xbf,
    0xaa, 0x4c, 0x5c, 0x1f, 0x14, 0xdc, 0x72, 0x78], rfl⟩

/-- Blake2b where it is needed: at zeros and ones joined, and at the two hashes joined. -/
def blakeOfOnes (text : List UInt8) : Bytes 32 :=
  if text = zeros ++ ones then zerosOnes
  else if text = ones ++ zeros then onesZeros
  else if text = zerosOnes.1 ++ onesZeros.1 then onesAbove
  else ⟨zeros, rfl⟩

/-! ## The tree -/

section
variable (blake2b256 : List UInt8 → Bytes 32)

@[simp] theorem length_normalizedLeaf (leaf : List UInt8) :
    (normalizedLeaf leaf).length = hashSize := by
  rw [normalizedLeaf, List.length_append, List.length_take, List.length_replicate]
  omega

theorem normalizedLeaf_of_length {leaf : List UInt8} (h : leaf.length = hashSize) :
    normalizedLeaf leaf = leaf := by
  rw [normalizedLeaf, List.take_of_length_le (Nat.le_of_eq h), h]
  exact List.append_nil leaf

theorem map_normalizedLeaf {leaves : List (List UInt8)} (h : ∀ leaf ∈ leaves, leaf.length = hashSize) :
    leaves.map normalizedLeaf = leaves :=
  (List.map_congr_left fun leaf hleaf => normalizedLeaf_of_length (h leaf hleaf)).trans
    (List.map_id leaves)

/-- The levels up to the one with the root are stored, as far as the depth goes. -/
theorem levelLoop_eq (count : Nat) (xs : List (List UInt8)) :
    levelLoop blake2b256 count xs =
      ((List.range (min (height xs + 1) count)).map
        fun k => level (hashPair blake2b256) zeros k xs,
      level (hashPair blake2b256) zeros (min (height xs) count) xs) := by
  induction count generalizing xs with
  | zero => rw [levelLoop, Nat.min_zero, Nat.min_zero, level, List.range_zero, List.map_nil]
  | succ count ih =>
    rw [levelLoop]
    by_cases hlast : xs.length ≤ 1
    · have flat : height xs = 0 := Nat.le_zero.mp ((height_le_iff xs 0).mpr hlast)
      rw [if_pos hlast, flat, Nat.zero_min, Nat.min_eq_left (by omega)]
      rfl
    · have high : 0 < height xs := (height_pos_iff xs).mpr (by omega)
      have above : height (nextLevel blake2b256 xs) = height xs - 1 := height_level 1 xs
      obtain ⟨k, hk⟩ := Nat.exists_eq_succ_of_ne_zero high.ne'
      rw [hk, Nat.succ_sub_one] at above
      rw [if_neg hlast, ih, above, hk, Nat.succ_min_succ, Nat.succ_min_succ, List.range_succ_eq_map,
        List.map_cons, List.map_map]
      rfl

theorem fromLeaves_nodes (leaves : List (List UInt8)) :
    (fromLeaves blake2b256 leaves).nodes =
      ((List.range (min (height (leaves.map normalizedLeaf) + 1) depth)).map
        fun k => level (hashPair blake2b256) zeros k (leaves.map normalizedLeaf)) ++
      List.replicate (depth - min (height (leaves.map normalizedLeaf) + 1) depth) [] := by
  rw [fromLeaves, levelLoop_eq]
  dsimp only
  rw [List.length_map, List.length_range]

/-- The leaves the root counts. -/
def counted (leaves : List (List UInt8)) : List (List UInt8) := leaves.take (2 ^ depth)

/-- The root is that of the leaves within the depth. -/
theorem fromLeaves_root (leaves : List (List UInt8)) :
    (fromLeaves blake2b256 leaves).root =
      root (hashPair blake2b256) zeros (counted (leaves.map normalizedLeaf)) := by
  have first (xs : List (List UInt8)) : xs.headD zeros = xs.getD 0 zeros := by
    cases xs <;> rfl
  rw [fromLeaves, levelLoop_eq]
  dsimp only
  rw [first, counted]
  generalize leaves.map normalizedLeaf = xs
  by_cases hdepth : height xs ≤ depth
  · rw [Nat.min_eq_left hdepth, List.take_of_length_le ((height_le_iff xs depth).mp hdepth), root]
  · have long : 2 ^ depth < xs.length := Nat.not_le.mp (mt (height_le_iff xs depth).mpr hdepth)
    have cut : height (xs.take (2 ^ depth)) = depth := by
      rw [height, List.length_take_of_le (Nat.le_of_lt long)]
      exact Nat.clog_pow 2 depth (by decide)
    have top := @level_take _ (hashPair blake2b256) zeros depth 1 xs
    rw [Nat.mul_one] at top
    rw [Nat.min_eq_right (Nat.le_of_not_le hdepth), root, cut, top]
    cases level (hashPair blake2b256) zeros depth xs <;> rfl

/-! ## Paths -/

theorem read_eq (xs : List (List UInt8)) (i : Nat) :
    (if i < xs.length then xs.getD i [] else zeros) = xs.getD i zeros := by
  split
  · rw [List.getD_eq_getElem xs _ ‹_›, List.getD_eq_getElem xs _ ‹_›]
  · rw [List.getD_eq_default xs _ (Nat.le_of_not_lt ‹_›)]

/-- The siblings on the way up through the levels stored. -/
theorem pathLoop_eq (k extra : Nat) (xs : List (List UInt8)) (hne : xs ≠ []) (idx : Nat) :
    MerkleTree.pathLoop (((List.range k).map
        fun j => level (hashPair blake2b256) zeros j xs) ++ List.replicate extra []) idx =
      (branch (hashPair blake2b256) zeros k xs idx).map (·.1) := by
  induction k generalizing xs idx with
  | zero =>
    rw [List.range_zero, List.map_nil, List.nil_append, branch]
    cases extra <;> rfl
  | succ k ih =>
    have some : xs.isEmpty = false := by simpa using hne
    have above : parents (hashPair blake2b256) zeros xs ≠ [] := by
      rw [← List.length_pos_iff, length_parents]
      have := List.length_pos_iff.mpr hne
      omega
    rw [List.range_succ_eq_map, List.map_cons, List.map_map, List.cons_append, level,
      MerkleTree.pathLoop, some, if_neg (by decide), branch, List.map_cons]
    dsimp only
    rw [read_eq, ← ih _ above (idx / 2)]
    rfl

theorem getPath_eq {leaves : List (List UInt8)} {index : Nat} (h : index < leaves.length) :
    (fromLeaves blake2b256 leaves).getPath index =
      some ((branch (hashPair blake2b256) zeros (min (height leaves + 1) depth)
        (leaves.map normalizedLeaf) index).map (·.1)) := by
  have same : height (leaves.map normalizedLeaf) = height leaves := by
    rw [height, height, List.length_map]
  have inside : ¬ index ≥ (fromLeaves blake2b256 leaves).leaves.length := by
    change ¬ index ≥ (leaves.map normalizedLeaf).length
    rw [List.length_map]
    omega
  have kept : (fromLeaves blake2b256 leaves).nodes.length = depth := by
    rw [fromLeaves_nodes]
    simp
  have some : leaves.map normalizedLeaf ≠ [] := by
    rw [← List.length_pos_iff, List.length_map]
    omega
  rw [MerkleTree.getPath, if_neg inside, List.take_of_length_le (Nat.le_of_eq kept), fromLeaves_nodes,
    pathLoop_eq _ _ _ _ some, same]

/-! ## Proofs -/

/-- The steps of a proof; a sibling without a position counts as zeros. -/
def MerkleProof.stepsOf : List (List UInt8) → List Nat → List (List UInt8 × Bool)
  | [], _ => []
  | _ :: siblings, [] => (zeros, false) :: stepsOf siblings []
  | sibling :: siblings, position :: positions =>
    (sibling, decide (position = 0)) :: stepsOf siblings positions

def MerkleProof.steps (p : MerkleProof) : List (List UInt8 × Bool) :=
  stepsOf p.siblings p.siblingPositions

theorem foldLoop_eq (siblings : List (List UInt8)) (positions : List Nat) (current : List UInt8) :
    MerkleProof.foldLoop blake2b256 siblings positions current =
      walk (hashPair blake2b256) current (MerkleProof.stepsOf siblings positions) := by
  induction siblings generalizing positions current with
  | nil => rfl
  | cons sibling siblings ih =>
    cases positions with
    | nil => exact ih [] _
    | cons position positions =>
      rw [MerkleProof.foldLoop, ih, MerkleProof.stepsOf, walk, walk, List.foldl_cons, join]
      by_cases hposition : position = 0
      · simp [hposition]
      · simp [hposition]

/-- A proof that is folded to a hash verifies for that hash alone. -/
theorem verify_iff {p : MerkleProof} {expectedRoot : List UInt8} (hleaf : p.leaf ≠ [])
    (hroot : expectedRoot ≠ []) :
    p.verify blake2b256 expectedRoot = true ↔
      walk (hashPair blake2b256) p.leaf p.steps = expectedRoot := by
  have given : (p.leaf.isEmpty || expectedRoot.isEmpty) = false := by simp [hleaf, hroot]
  rw [MerkleProof.verify, given, if_neg (by decide), decide_eq_true_eq, MerkleProof.computeRoot,
    foldLoop_eq, MerkleProof.steps]

theorem length_stepsOf (siblings : List (List UInt8)) (positions : List Nat) :
    (MerkleProof.stepsOf siblings positions).length = siblings.length := by
  fun_induction MerkleProof.stepsOf siblings positions with
  | case1 => rfl
  | case2 sibling siblings ih => rw [List.length_cons, ih, List.length_cons]
  | case3 sibling siblings position positions ih => rw [List.length_cons, ih, List.length_cons]

theorem size_stepsOf {siblings : List (List UInt8)} (positions : List Nat)
    (h : ∀ sibling ∈ siblings, sibling.length = hashSize) :
    ∀ step ∈ MerkleProof.stepsOf siblings positions, step.1.length = hashSize := by
  fun_induction MerkleProof.stepsOf siblings positions with
  | case1 => exact nofun
  | case2 sibling siblings ih =>
    obtain ⟨-, hrest⟩ := List.forall_mem_cons.mp h
    exact List.forall_mem_cons.mpr ⟨rfl, ih hrest⟩
  | case3 sibling siblings position positions ih =>
    obtain ⟨hsibling, hrest⟩ := List.forall_mem_cons.mp h
    exact List.forall_mem_cons.mpr ⟨hsibling, ih hrest⟩

/-! ## Membership -/

/-- Zero for a sibling on the left: where the bit of the index is one. -/
def positionsOf (index count : Nat) : List Nat :=
  (List.range count).map fun i => if index.testBit i then 0 else 1

theorem positionsOf_succ (index count : Nat) :
    positionsOf index (count + 1) =
      (if index % 2 = 1 then 0 else 1) :: positionsOf (index / 2) count := by
  rw [positionsOf, positionsOf, List.range_succ_eq_map, List.map_cons, List.map_map, Nat.testBit_zero]
  simp only [decide_eq_true_eq]
  congr 1
  apply List.map_congr_left
  intro i _
  rw [Function.comp_apply, Nat.testBit_succ]

/-- A branch and the positions for its index make the steps of the branch. -/
theorem steps_branch (k count : Nat) (h : k ≤ count) (xs : List (List UInt8)) (index : Nat) :
    MerkleProof.stepsOf ((branch (hashPair blake2b256) zeros k xs index).map (·.1))
      (positionsOf index count) = branch (hashPair blake2b256) zeros k xs index := by
  induction k generalizing count xs index with
  | zero => rfl
  | succ k ih =>
    obtain ⟨count, rfl⟩ := Nat.exists_eq_add_of_le' (Nat.lt_of_lt_of_le (Nat.succ_pos k) h)
    rw [branch, List.map_cons, positionsOf_succ, MerkleProof.stepsOf,
      ih count (Nat.le_of_succ_le_succ h)]
    by_cases hodd : index % 2 = 1
    · simp [hodd]
    · simp [hodd]

theorem length_hashPair (a b : List UInt8) : (hashPair blake2b256 a b).length = hashSize :=
  (blake2b256 (a ++ b)).2

theorem fromLeaves_root_length (leaves : List (List UInt8)) :
    (fromLeaves blake2b256 leaves).root.length = hashSize := by
  have leaf_length : ∀ leaf ∈ counted (leaves.map normalizedLeaf), leaf.length = hashSize := by
    intro leaf hleaf
    obtain ⟨given, -, rfl⟩ := List.mem_map.mp (List.mem_of_mem_take hleaf)
    exact length_normalizedLeaf given
  rw [fromLeaves_root]
  exact root_forall (P := fun node : List UInt8 => node.length = hashSize)
    (length_hashPair blake2b256) rfl leaf_length

theorem ne_nil_of_length {text : List UInt8} (h : text.length = hashSize) : text ≠ [] := by
  rintro rfl
  cases h

/-- Up to the depth no leaf is left out. -/
theorem counted_of_length {xs : List (List UInt8)} (h : xs.length ≤ 2 ^ depth) : counted xs = xs :=
  List.take_of_length_le h

/-- The siblings below the root lead to it. -/
theorem walk_branch_height {xs : List (List UInt8)} {index : Nat} (h : index < xs.length) :
    walk (hashPair blake2b256) (xs.getD index zeros)
        (branch (hashPair blake2b256) zeros (height xs) xs index) =
      root (hashPair blake2b256) zeros xs := by
  have below : index < 2 ^ height xs :=
    Nat.lt_of_lt_of_le h ((height_le_iff xs _).mp (Nat.le_refl _))
  rw [walk_branch _ _ h, Nat.div_eq_of_lt below, root]

/-- One sibling more joins the root with zeros. -/
theorem walk_branch_above {xs : List (List UInt8)} {index : Nat} (h : index < xs.length) :
    walk (hashPair blake2b256) (xs.getD index zeros)
        (branch (hashPair blake2b256) zeros (height xs + 1) xs index) =
      hashPair blake2b256 (root (hashPair blake2b256) zeros xs) zeros := by
  have below : index < 2 ^ (height xs + 1) :=
    Nat.lt_of_lt_of_le h ((height_le_iff xs _).mp (Nat.le_succ _))
  have some : xs ≠ [] := List.length_pos_iff.mp (Nat.zero_lt_of_lt h)
  rw [walk_branch _ _ h, Nat.div_eq_of_lt below, level_succ, exists_singleton_level some]
  rfl

/-- **Which paths verify.** The path of a leaf has one sibling too many: its proof
verifies exactly when joining the root with zeros gives the root again, and without
that sibling it always does. -/
theorem path_verify_iff (leaves : List (List UInt8)) (hsize : leaves.length ≤ 2 ^ 31) (index : Nat)
    (h : index < leaves.length) :
    ∃ leaf path, (fromLeaves blake2b256 leaves).getLeaf index = some leaf ∧
      (fromLeaves blake2b256 leaves).getPath index = some path ∧
      (MerkleProof.verify blake2b256 ⟨leaf, path, positionsOf index path.length, index⟩
          (fromLeaves blake2b256 leaves).root = true ↔
        hashPair blake2b256 (root (hashPair blake2b256) zeros (leaves.map normalizedLeaf)) zeros =
          root (hashPair blake2b256) zeros (leaves.map normalizedLeaf)) ∧
      MerkleProof.verify blake2b256 ⟨leaf, path.dropLast, positionsOf index path.length, index⟩
        (fromLeaves blake2b256 leaves).root = true := by
  have inside : index < (leaves.map normalizedLeaf).length := by simpa using h
  have low : height leaves ≤ 31 := (height_le_iff leaves 31).mpr hsize
  have same : height (leaves.map normalizedLeaf) = height leaves := by
    rw [height, height, List.length_map]
  have all : counted (leaves.map normalizedLeaf) = leaves.map normalizedLeaf := by
    apply counted_of_length
    rw [List.length_map]
    exact Nat.le_trans hsize (by decide)
  have path_eq : (fromLeaves blake2b256 leaves).getPath index =
      some ((branch (hashPair blake2b256) zeros (height leaves + 1) (leaves.map normalizedLeaf)
        index).map (·.1)) := by
    have stored : height leaves + 1 ≤ depth := Nat.succ_le_succ low
    rw [getPath_eq blake2b256 h, Nat.min_eq_left stored]
  have leaf_eq : (leaves.map normalizedLeaf).getD index zeros =
      (leaves.map normalizedLeaf)[index] := List.getD_eq_getElem _ _ inside
  have leaf_ne : (leaves.map normalizedLeaf)[index] ≠ [] := by
    rw [List.getElem_map]
    exact ne_nil_of_length (length_normalizedLeaf _)
  have root_ne := ne_nil_of_length (fromLeaves_root_length blake2b256 leaves)
  refine ⟨_, _, List.getElem?_eq_getElem inside, path_eq, ?_, ?_⟩
  · rw [verify_iff blake2b256 leaf_ne root_ne, MerkleProof.steps,
      steps_branch _ _ _ (by simp [length_branch]), ← leaf_eq, ← same, walk_branch_above _ inside,
      fromLeaves_root, all]
  · have shorter : ((branch (hashPair blake2b256) zeros (height leaves + 1)
        (leaves.map normalizedLeaf) index).map (·.1)).dropLast =
        (branch (hashPair blake2b256) zeros (height leaves) (leaves.map normalizedLeaf)
          index).map (·.1) := by
      rw [List.dropLast_eq_take, List.length_map, length_branch, ← List.map_take,
        Nat.add_sub_cancel, branch_take (Nat.le_add_right _ 1)]
    rw [shorter, verify_iff blake2b256 leaf_ne root_ne, MerkleProof.steps,
      steps_branch _ _ _ (by simp [length_branch]), ← leaf_eq, ← same,
      walk_branch_height _ inside, fromLeaves_root, all]

/-- The one leaf of ones: the path has a sibling that the root does not. -/
theorem path_of_ones :
    ∃ leaf path, (fromLeaves blakeOfOnes [ones]).getLeaf 0 = some leaf ∧
      (fromLeaves blakeOfOnes [ones]).getPath 0 = some path ∧
      (MerkleProof.verify blakeOfOnes ⟨leaf, path, positionsOf 0 path.length, 0⟩
          (fromLeaves blakeOfOnes [ones]).root = true ↔
        hashPair blakeOfOnes (root (hashPair blakeOfOnes) zeros ([ones].map normalizedLeaf)) zeros =
          root (hashPair blakeOfOnes) zeros ([ones].map normalizedLeaf)) ∧
      MerkleProof.verify blakeOfOnes ⟨leaf, path.dropLast, positionsOf 0 path.length, 0⟩
        (fromLeaves blakeOfOnes [ones]).root = true :=
  path_verify_iff blakeOfOnes [ones] (by decide) 0 (by decide)

theorem path_refused :
    (fromLeaves blakeOfOnes [ones]).getLeaf 0 = some ones ∧
      (fromLeaves blakeOfOnes [ones]).getPath 0 = some [zeros] ∧
      MerkleProof.verify blakeOfOnes ⟨ones, [zeros], positionsOf 0 1, 0⟩
        (fromLeaves blakeOfOnes [ones]).root = false := by decide

/-! ## Soundness -/

/-- The node a proof's positions lead to: a bit for each sibling. -/
def MerkleProof.place (p : MerkleProof) : Nat := PaddedMerkle.place p.steps

/-- The nodes of the tree some levels above the leaves. -/
def nodesAt (leaves : List (List UInt8)) (above : Nat) : List (List UInt8) :=
  level (hashPair blake2b256) zeros above (counted leaves)

def joined (pairs : List (List UInt8 × List UInt8)) : List (List UInt8) :=
  pairs.map fun p => p.1 ++ p.2

/-- The texts hashed in building a tree. -/
def builtTexts (leaves : List (List UInt8)) : List (List UInt8) :=
  joined (builtPairs (hashPair blake2b256) zeros (height (counted leaves)) (counted leaves))

/-- The texts hashed in folding a proof. -/
def MerkleProof.foldedTexts (p : MerkleProof) : List (List UInt8) :=
  joined (walkedPairs (hashPair blake2b256) p.leaf p.steps)

def NoCollision (texts : List (List UInt8)) : Prop :=
  ∀ s ∈ texts, ∀ t ∈ texts, (blake2b256 s).1 = (blake2b256 t).1 → s = t

def NeverZero (texts : List (List UInt8)) : Prop := ∀ t ∈ texts, (blake2b256 t).1 ≠ zeros

instance (texts : List (List UInt8)) : Decidable (NoCollision blake2b256 texts) :=
  inferInstanceAs (Decidable (∀ s ∈ texts, ∀ t ∈ texts, _ → s = t))

instance (texts : List (List UInt8)) : Decidable (NeverZero blake2b256 texts) :=
  inferInstanceAs (Decidable (∀ t ∈ texts, _))

/-- Nodes of one size are known from the text they are joined to. -/
theorem separates_of_noCollision {pairs : List (List UInt8 × List UInt8)}
    (hsize : ∀ p ∈ pairs, p.1.length = hashSize ∧ p.2.length = hashSize)
    (h : NoCollision blake2b256 (joined pairs)) : Separates (hashPair blake2b256) pairs := by
  intro p hp q hq heq
  have same : p.1 ++ p.2 = q.1 ++ q.2 :=
    h _ (List.mem_map_of_mem hp) _ (List.mem_map_of_mem hq) heq
  obtain ⟨left, right⟩ := List.append_inj same ((hsize p hp).1.trans (hsize q hq).1.symm)
  exact Prod.ext left right

theorem sound_of_noCollision {pairs : List (List UInt8 × List UInt8)}
    (hsize : ∀ p ∈ pairs, p.1.length = hashSize ∧ p.2.length = hashSize)
    (h : NoCollision blake2b256 (joined pairs)) (hzero : NeverZero blake2b256 (joined pairs)) :
    Sound (hashPair blake2b256) zeros pairs :=
  ⟨separates_of_noCollision blake2b256 hsize h, fun _ hp => hzero _ (List.mem_map_of_mem hp)⟩

theorem builtPairs_length {leaves : List (List UInt8)} (h : ∀ leaf ∈ leaves, leaf.length = hashSize)
    (k : Nat) : ∀ p ∈ builtPairs (hashPair blake2b256) zeros k (counted leaves),
      p.1.length = hashSize ∧ p.2.length = hashSize :=
  builtPairs_forall (P := fun node : List UInt8 => node.length = hashSize)
    (length_hashPair blake2b256) rfl k fun leaf hleaf => h leaf (List.mem_of_mem_take hleaf)

/-- **What a proof proves.** A proof made of hashes that verifies holds the node its
positions lead to, as far below the root as it has siblings: a leaf where it has one
for each level. Where no node is there, it holds zeros, or something hashes to zeros. -/
theorem verify_sound {leaves : List (List UInt8)} (hleaves : ∀ leaf ∈ leaves, leaf.length = hashSize)
    {p : MerkleProof} (hleaf : p.leaf.length = hashSize)
    (hsiblings : ∀ sibling ∈ p.siblings, sibling.length = hashSize)
    (hlevels : p.siblings.length ≤ height (counted leaves))
    (hcollision : NoCollision blake2b256 (builtTexts blake2b256 leaves ++ p.foldedTexts blake2b256))
    (hverify : p.verify blake2b256 (fromLeaves blake2b256 leaves).root = true) :
    (p.place < (nodesAt blake2b256 leaves (height (counted leaves) - p.siblings.length)).length →
        (nodesAt blake2b256 leaves (height (counted leaves) - p.siblings.length))[p.place]? =
          some p.leaf) ∧
      ((nodesAt blake2b256 leaves (height (counted leaves) - p.siblings.length)).length ≤ p.place →
        p.leaf = zeros ∨ ∃ text ∈ p.foldedTexts blake2b256, (blake2b256 text).1 = zeros) := by
  have length : p.steps.length = p.siblings.length := length_stepsOf _ _
  have reaches : walk (hashPair blake2b256) p.leaf p.steps =
      root (hashPair blake2b256) zeros (counted leaves) := by
    rw [← map_normalizedLeaf hleaves, ← fromLeaves_root]
    exact (verify_iff blake2b256 (ne_nil_of_length hleaf)
      (ne_nil_of_length (fromLeaves_root_length blake2b256 leaves))).mp hverify
  have walked := walkedPairs_forall (P := fun node : List UInt8 => node.length = hashSize)
    (length_hashPair blake2b256) p.steps hleaf (size_stepsOf p.siblingPositions hsiblings)
  have separates : Separates (hashPair blake2b256)
      (builtPairs (hashPair blake2b256) zeros (height (counted leaves)) (counted leaves) ++
        walkedPairs (hashPair blake2b256) p.leaf p.steps) := by
    apply separates_of_noCollision
    · intro q hq
      exact (List.mem_append.mp hq).elim (builtPairs_length blake2b256 hleaves _ q) (walked q)
    · rw [joined, List.map_append]
      exact hcollision
  obtain ⟨inside, beyond⟩ := walk_root (length.symm ▸ hlevels) separates reaches
  rw [length] at inside beyond
  refine ⟨fun hinside => ?_, fun hbeyond => (beyond hbeyond).imp_right ?_⟩
  · rw [inside hinside]
    exact (List.getElem?_eq_getElem hinside).trans
      (congrArg some (List.getD_eq_getElem _ _ hinside).symm)
  · rintro ⟨q, hq, hzero⟩
    exact ⟨q.1 ++ q.2, List.mem_map_of_mem hq, hzero⟩

/-- The second leaf of two, from the other one and its position. -/
theorem verify_sound_ones :
    ((⟨ones, [zeros], [0], 1⟩ : MerkleProof).place < (nodesAt blakeOfOnes [zeros, ones] 0).length →
        (nodesAt blakeOfOnes [zeros, ones] 0)[(⟨ones, [zeros], [0], 1⟩ : MerkleProof).place]? =
          some ones) ∧
      ((nodesAt blakeOfOnes [zeros, ones] 0).length ≤ (⟨ones, [zeros], [0], 1⟩ : MerkleProof).place →
        ones = zeros ∨
          ∃ text ∈ MerkleProof.foldedTexts blakeOfOnes ⟨ones, [zeros], [0], 1⟩,
            (blakeOfOnes text).1 = zeros) :=
  @verify_sound blakeOfOnes [zeros, ones] (by decide) ⟨ones, [zeros], [0], 1⟩ (by decide)
    (by decide) (by decide) (by decide) (by decide)

/-- Accepted without a leaf behind them: an index beyond the leaves, an inner node
without siblings, what a leaf was hashed from, a text cut elsewhere, and the zeros
beside a third leaf. -/
theorem proofs_without_leaf :
    NoCollision blakeOfOnes [zeros ++ ones, ones ++ zeros, zerosOnes.1 ++ onesZeros.1] ∧
      ∀ c ∈ [([zeros, ones], (⟨zeros, [ones], [1], 5⟩ : MerkleProof)),
          ([zeros, ones], ⟨zerosOnes.1, [], [], 0⟩),
          ([zerosOnes.1], ⟨zeros, [ones], [1], 0⟩),
          ([zeros, ones], ⟨zeros.take 10, [zeros.drop 10 ++ ones], [1], 0⟩),
          ([zeros, ones, ones], ⟨zeros, [ones, zerosOnes.1], [0, 0], 3⟩)],
        c.2.verify blakeOfOnes (fromLeaves blakeOfOnes c.1).root = true ∧
          (fromLeaves blakeOfOnes c.1).getLeaf c.2.leafIndex ≠ some c.2.leaf := by decide

/-! ## Equal roots -/

/-- **Which leaves have one root.** One list is, up to zeros beside a last odd node,
a level of the other one's tree; lists of one length are the same. -/
theorem fromLeaves_root_eq_iff {xs ys : List (List UInt8)} (hx : ∀ leaf ∈ xs, leaf.length = hashSize)
    (hy : ∀ leaf ∈ ys, leaf.length = hashSize)
    (hcollision : NoCollision blake2b256 (builtTexts blake2b256 xs ++ builtTexts blake2b256 ys))
    (hzero : NeverZero blake2b256 (builtTexts blake2b256 xs ++ builtTexts blake2b256 ys)) :
    ((fromLeaves blake2b256 xs).root = (fromLeaves blake2b256 ys).root ↔
      (∃ k ≤ height (counted ys),
          completed zeros (counted xs) = completed zeros (nodesAt blake2b256 ys k)) ∨
        ∃ k ≤ height (counted xs),
          completed zeros (counted ys) = completed zeros (nodesAt blake2b256 xs k)) ∧
      (xs.length = ys.length → ys.length ≤ 2 ^ depth →
        (fromLeaves blake2b256 xs).root = (fromLeaves blake2b256 ys).root → xs = ys) := by
  have sound : Sound (hashPair blake2b256) zeros
      (builtPairs (hashPair blake2b256) zeros (height (counted xs)) (counted xs) ++
        builtPairs (hashPair blake2b256) zeros (height (counted ys)) (counted ys)) := by
    apply sound_of_noCollision
    · intro q hq
      exact (List.mem_append.mp hq).elim (builtPairs_length blake2b256 hx _ q)
        (builtPairs_length blake2b256 hy _ q)
    · rw [joined, List.map_append]
      exact hcollision
    · rw [joined, List.map_append]
      exact hzero
  rw [fromLeaves_root, fromLeaves_root, map_normalizedLeaf hx, map_normalizedLeaf hy]
  refine ⟨root_eq_iff sound, fun hlength hdepth hroot => ?_⟩
  rw [counted_of_length (hlength.symm ▸ hdepth), counted_of_length hdepth] at sound hroot
  exact eq_of_root hlength sound hroot

/-- Three leaves against the same with zeros behind them. -/
theorem fromLeaves_root_eq_ones :
    ((fromLeaves blakeOfOnes [zeros, ones, ones]).root =
          (fromLeaves blakeOfOnes [zeros, ones, ones, zeros]).root ↔
        (∃ k ≤ height (counted [zeros, ones, ones, zeros]),
            completed zeros (counted [zeros, ones, ones]) =
              completed zeros (nodesAt blakeOfOnes [zeros, ones, ones, zeros] k)) ∨
          ∃ k ≤ height (counted [zeros, ones, ones]),
            completed zeros (counted [zeros, ones, ones, zeros]) =
              completed zeros (nodesAt blakeOfOnes [zeros, ones, ones] k)) ∧
      ([zeros, ones, ones].length = [zeros, ones, ones, zeros].length →
        [zeros, ones, ones, zeros].length ≤ 2 ^ depth →
        (fromLeaves blakeOfOnes [zeros, ones, ones]).root =
          (fromLeaves blakeOfOnes [zeros, ones, ones, zeros]).root →
        [zeros, ones, ones] = [zeros, ones, ones, zeros]) :=
  fromLeaves_root_eq_iff blakeOfOnes (by decide) (by decide) (by decide) (by decide)

/-- Nothing and one leaf of zeros, three leaves and zeros behind them, two leaves
and the hash of both. -/
theorem different_leaves_one_root :
    NoCollision blakeOfOnes [zeros ++ ones, ones ++ zeros, zerosOnes.1 ++ onesZeros.1] ∧
      NeverZero blakeOfOnes [zeros ++ ones, ones ++ zeros, zerosOnes.1 ++ onesZeros.1] ∧
      ∀ c ∈ [([], [zeros]), ([zeros, ones, ones], [zeros, ones, ones, zeros]),
          ([zeros, ones], [zerosOnes.1])],
        c.1 ≠ c.2 ∧
          (fromLeaves blakeOfOnes c.1).root = (fromLeaves blakeOfOnes c.2).root := by decide

end

end MidnightSdk.Crypto
