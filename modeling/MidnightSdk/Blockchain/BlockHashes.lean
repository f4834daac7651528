import MidnightSdk.Blockchain.ChainManager

/-!
# What a block's hash tells apart

The numbers of a header are hashed in a fixed count of bytes, its texts and the
transactions without their blanks and with no mark between them. So the hash tells two
blocks apart up to where one text ends and the next begins, and up to blanks.
-/

namespace MidnightSdk.Blockchain.ChainManager.Block

open Cpp LittleEndian Util

/-- What is hashed of a text. -/
def shown (text : List Char) : List UInt8 := bytesOf (text.filter fun c => !skipped c)

/-- The two texts of the header. -/
def front (block : Block) : List UInt8 :=
  shown block.header_.prev_hash ++ shown block.header_.merkle_root

/-- The numbers behind these. -/
def numbers (block : Block) : List UInt8 :=
  shiftedBytes 8 block.header_.timestamp ++ shiftedBytes 8 block.header_.nonce ++
    shiftedBytes 4 block.header_.difficulty.toUInt64

/-- The transactions. -/
def back (block : Block) : List UInt8 := block.transactions_.flatMap shown

/-- No two blocks of the pair make a collision. -/
def NoCollision (a b : Block) : Prop :=
  Sha256.sha256 (bytesOf a.preimage) = Sha256.sha256 (bytesOf b.preimage) →
    bytesOf a.preimage = bytesOf b.preimage

theorem preimage_eq (block : Block) :
    block.preimage = bytesToHex (shiftedBytes 8 block.header_.version ++
      (shiftedBytes 8 block.header_.height ++ (block.front ++ block.numbers ++ block.back))) := by
  have texts (txs : List (List Char)) :
      txs.flatMap hexText = bytesToHex (txs.flatMap shown) := by
    induction txs with
    | nil => rfl
    | cons tx txs ih => rw [List.flatMap_cons, List.flatMap_cons, bytesToHex_append, ih]; rfl
  rw [preimage, texts]
  simp only [front, numbers, back, bytesToHex_append, List.append_assoc]
  rfl

theorem toNat_lt_pow (n : UInt64) : n.toNat < 256 ^ 8 := n.toNat_lt

theorem toUInt64_lt_pow (n : UInt32) : n.toUInt64.toNat < 256 ^ 4 := by
  rw [UInt32.toNat_toUInt64]
  exact n.toNat_lt

/-- **Which blocks have one hash.** -/
theorem calculateHash_eq_iff_stream {a b : Block} (hfree : NoCollision a b) :
    a.calculateHash = b.calculateHash ↔
      a.header_.version = b.header_.version ∧ a.header_.height = b.header_.height ∧
        a.front ++ a.numbers ++ a.back = b.front ++ b.numbers ++ b.back := by
  have preimages : a.calculateHash = b.calculateHash ↔ bytesOf a.preimage = bytesOf b.preimage := by
    constructor
    · intro h
      exact hfree (bytesOf_bytesToHex_inj.mp (congrArg bytesOf h))
    · intro h
      rw [calculateHash, calculateHash, h]
  rw [preimages, preimage_eq, preimage_eq, bytesOf_bytesToHex_inj]
  constructor
  · intro h
    obtain ⟨version, behind⟩ := List.append_inj h (by simp)
    obtain ⟨height, stream⟩ := List.append_inj behind (by simp)
    exact ⟨(shiftedBytes_inj (by omega) (toNat_lt_pow _) (toNat_lt_pow _)).mp version,
      (shiftedBytes_inj (by omega) (toNat_lt_pow _) (toNat_lt_pow _)).mp height, stream⟩
  · rintro ⟨version, height, stream⟩
    rw [version, height, stream]

theorem numbers_length (block : Block) : block.numbers.length = 20 := by simp [numbers]

theorem numbers_eq_iff {a b : Block} : a.numbers = b.numbers ↔
    a.header_.timestamp = b.header_.timestamp ∧ a.header_.nonce = b.header_.nonce ∧
      a.header_.difficulty = b.header_.difficulty := by
  constructor
  · intro h
    obtain ⟨words, difficulty⟩ := List.append_inj h (by simp)
    obtain ⟨timestamp, nonce⟩ := List.append_inj words (by simp)
    have wide := (shiftedBytes_inj (by omega) (toUInt64_lt_pow _) (toUInt64_lt_pow _)).mp difficulty
    exact ⟨(shiftedBytes_inj (by omega) (toNat_lt_pow _) (toNat_lt_pow _)).mp timestamp,
      (shiftedBytes_inj (by omega) (toNat_lt_pow _) (toNat_lt_pow _)).mp nonce,
      UInt32.toUInt64_inj.mp wide⟩
  · rintro ⟨timestamp, nonce, difficulty⟩
    rw [numbers, numbers, timestamp, nonce, difficulty]

/-- Header texts of one length leave the numbers at one place. -/
theorem stream_eq_iff {a b : Block} (hfront : a.front.length = b.front.length) :
    a.front ++ a.numbers ++ a.back = b.front ++ b.numbers ++ b.back ↔
      a.front = b.front ∧ a.numbers = b.numbers ∧ a.back = b.back := by
  constructor
  · intro h
    have header : (a.front ++ a.numbers).length = (b.front ++ b.numbers).length := by
      rw [List.length_append, List.length_append, hfront, numbers_length, numbers_length]
    obtain ⟨ahead, back⟩ := List.append_inj h header
    obtain ⟨front, numbers⟩ := List.append_inj ahead hfront
    exact ⟨front, numbers, back⟩
  · rintro ⟨front, numbers, back⟩
    rw [front, numbers, back]

/-! ## Blocks as they are made -/

/-- The constructor, and transactions added one by one. -/
inductive Built : Block → Prop
  | new (height : UInt64) (prevHash : List Char) (now : UInt64) : Built (new height prevHash now)
  | add {block : Block} (txHash : List Char) (h : Built block) :
      Built (block.addTransaction txHash)

theorem Built.header {block : Block} (h : Built block) :
    block.header_.version = 1 ∧ block.header_.merkle_root = [] ∧ block.header_.nonce = 0 ∧
      block.header_.difficulty = 0 := by
  induction h with
  | new => exact ⟨rfl, rfl, rfl, rfl⟩
  | add _ _ ih => exact ih

/-- The numbers of such a block end in zeros. -/
theorem Built.stream {block : Block} (h : Built block) :
    block.front ++ block.numbers ++ block.back =
      shown block.header_.prev_hash ++ shiftedBytes 8 block.header_.timestamp ++
        List.replicate 12 0 ++ block.back := by
  obtain ⟨-, root, nonce, difficulty⟩ := h.header
  have zeros : shiftedBytes 8 0 ++ shiftedBytes 4 (0 : UInt32).toUInt64 =
      List.replicate 12 0 := by decide
  rw [front, numbers, root, nonce, difficulty, ← zeros]
  simp only [List.append_assoc]
  rfl

/-- Behind the last zero of a list it is known what follows. -/
theorem append_zeros_inj {xs ys as bs : List UInt8} {n : Nat} (ha : 0 ∉ as) (hb : 0 ∉ bs)
    (h : xs ++ List.replicate (n + 1) 0 ++ as = ys ++ List.replicate (n + 1) 0 ++ bs) :
    xs = ys ∧ as = bs := by
  have behind (zs cs : List UInt8) (hc : 0 ∉ cs) :
      (zs ++ List.replicate (n + 1) 0 ++ cs).reverse.takeWhile (· != 0) = cs.reverse := by
    rw [List.replicate_succ', ← List.append_assoc, List.reverse_append, List.reverse_append,
      List.takeWhile_append_of_pos]
    · simp
    · intro c hmem
      rw [bne_iff_ne]
      rintro rfl
      exact hc (List.mem_reverse.mp hmem)
  have same : as = bs := by
    apply List.reverse_injective
    rw [← behind xs as ha, h, behind ys bs hb]
  subst same
  exact ⟨List.append_cancel_right (List.append_cancel_right h), rfl⟩

theorem built_stream_eq_iff {a b : Block} (ha : Built a) (hb : Built b) (hnul : 0 ∉ a.back)
    (hnul' : 0 ∉ b.back) :
    a.front ++ a.numbers ++ a.back = b.front ++ b.numbers ++ b.back ↔
      shown a.header_.prev_hash = shown b.header_.prev_hash ∧
        a.header_.timestamp = b.header_.timestamp ∧ a.back = b.back := by
  rw [ha.stream, hb.stream]
  constructor
  · intro h
    obtain ⟨ahead, back⟩ := append_zeros_inj hnul hnul' h
    obtain ⟨prev, timestamp⟩ := List.append_inj' ahead (by simp)
    exact ⟨prev, (shiftedBytes_inj (by omega) (toNat_lt_pow _) (toNat_lt_pow _)).mp timestamp, back⟩
  · rintro ⟨prev, timestamp, back⟩
    rw [prev, timestamp, back]

/-- **What one hash says of two blocks.** They agree in version, height and in what is hashed
behind these; so field by field where their header texts are equally long, and also where both
were made by the class and their transactions hold no zero byte. -/
theorem sameHash_iff {a b : Block} (hfree : NoCollision a b) :
    (a.calculateHash = b.calculateHash ↔
      a.header_.version = b.header_.version ∧ a.header_.height = b.header_.height ∧
        a.front ++ a.numbers ++ a.back = b.front ++ b.numbers ++ b.back) ∧
    (a.front.length = b.front.length →
      (a.calculateHash = b.calculateHash ↔
        a.header_.version = b.header_.version ∧ a.header_.height = b.header_.height ∧
          a.front = b.front ∧
          (a.header_.timestamp = b.header_.timestamp ∧ a.header_.nonce = b.header_.nonce ∧
            a.header_.difficulty = b.header_.difficulty) ∧
          a.back = b.back)) ∧
    (Built a → Built b → 0 ∉ a.back → 0 ∉ b.back →
      (a.calculateHash = b.calculateHash ↔
        a.header_.height = b.header_.height ∧
          shown a.header_.prev_hash = shown b.header_.prev_hash ∧
          a.header_.timestamp = b.header_.timestamp ∧ a.back = b.back)) := by
  refine ⟨calculateHash_eq_iff_stream hfree, ?_, ?_⟩
  · intro hfront
    rw [calculateHash_eq_iff_stream hfree, stream_eq_iff hfront, numbers_eq_iff]
  · intro ha hb hnul hnul'
    have version : a.header_.version = b.header_.version := by
      rw [ha.header.1, hb.header.1]
    rw [calculateHash_eq_iff_stream hfree, built_stream_eq_iff ha hb hnul hnul']
    simp only [version, true_and]

/-- One block links to "a " and holds "bc", the other links to "a" and holds "b" and "c". -/
def spaced : Block := (new 1 ['a', ' '] 0).addTransaction ['b', 'c']

def split : Block := ((new 1 ['a'] 0).addTransaction ['b']).addTransaction ['c']

theorem spaced_preimage : spaced.preimage = split.preimage := by decide

theorem sameHash_iff_spaced : spaced.calculateHash = split.calculateHash ↔
    spaced.header_.height = split.header_.height ∧
      shown spaced.header_.prev_hash = shown split.header_.prev_hash ∧
      spaced.header_.timestamp = split.header_.timestamp ∧ spaced.back = split.back :=
  (sameHash_iff fun _ => congrArg bytesOf spaced_preimage).2.2
    (.add _ (.new 1 _ 0)) (.add _ (.add _ (.new 1 _ 0))) (by decide) (by decide)

/-- The two have one preimage, and so one hash under any hash function. -/
theorem sameHash_spaced : NoCollision spaced split ∧
    spaced.calculateHash = split.calculateHash ∧
    spaced.header_.prev_hash ≠ split.header_.prev_hash ∧
    spaced.transactions_ ≠ split.transactions_ := by
  refine ⟨fun _ => congrArg bytesOf spaced_preimage, ?_, by decide, by decide⟩
  rw [calculateHash, calculateHash, spaced_preimage]

end MidnightSdk.Blockchain.ChainManager.Block
