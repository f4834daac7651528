import MidnightSdk.Library.LittleEndian
import MidnightSdk.Library.Runs
import MidnightSdk.Library.Sha256
import MidnightSdk.Library.SharedMutex
import MidnightSdk.Util.Hex

/-!
# The chain manager

The chain holds shared pointers to blocks that callers can still extend, and every
function but `get_height` takes the mutex. Each thread stands at a place of its
function; what a function does between a lock and its release is one step, since
the mutex keeps the other threads out of it.
-/

namespace MidnightSdk.Blockchain.ChainManager

open Cpp LittleEndian Runs Util

/-! ## Blocks -/

structure Header where
  version : UInt64
  height : UInt64
  prev_hash : List Char
  merkle_root : List Char
  timestamp : UInt64
  nonce : UInt64
  difficulty : UInt32
  deriving DecidableEq, Repr

structure Block where
  header_ : Header
  transactions_ : List (List Char)
  deriving DecidableEq, Repr

/-- A character that the hash passes over. -/
def skipped (c : Char) : Bool := c == ' ' || c == '\n' || c == '\r' || c == '\t'

namespace Block

/-- The constructor, with the time of the system clock in seconds. -/
def new (height : UInt64) (prevHash : List Char) (now : UInt64) : Block where
  header_ :=
    { version := 1, height, prev_hash := prevHash, merkle_root := [], timestamp := now, nonce := 0,
      difficulty := 0 }
  transactions_ := []

def hexText (text : List Char) : List Char :=
  bytesToHex (bytesOf (text.filter fun c => !skipped c))

def preimage (block : Block) : List Char :=
  bytesToHex (shiftedBytes 8 block.header_.version) ++
    bytesToHex (shiftedBytes 8 block.header_.height) ++ hexText block.header_.prev_hash ++
    hexText block.header_.merkle_root ++ bytesToHex (shiftedBytes 8 block.header_.timestamp) ++
    bytesToHex (shiftedBytes 8 block.header_.nonce) ++
    bytesToHex (shiftedBytes 4 block.header_.difficulty.toUInt64) ++
    block.transactions_.flatMap hexText

def calculateHash (block : Block) : List Char := bytesToHex (Sha256.sha256 (bytesOf block.preimage))

def addTransaction (txHash : List Char) (block : Block) : Block :=
  { block with transactions_ := block.transactions_ ++ [txHash] }

/-- A text of nothing but passed over characters leaves the hash as it is. -/
theorem calculateHash_addTransaction {txHash : List Char} (h : txHash.all skipped = true)
    (block : Block) : (block.addTransaction txHash).calculateHash = block.calculateHash := by
  have nothing : hexText txHash = [] := by
    have kept : txHash.filter (fun c => !skipped c) = [] := by
      simpa [List.filter_eq_nil_iff] using h
    rw [hexText, kept]
    rfl
  simp [calculateHash, preimage, addTransaction, nothing]

end Block

/-! ## Threads -/

/-- A shared pointer: which block of the heap. -/
abbrev Ref : Type := Nat

/-- A function that only reads, under a shared lock. -/
inductive Query where
  | getBlock (height : UInt64)
  | getBlockByHash (hash : List Char)
  | validateBlock (block : Ref)
  | getLatestBlock
  deriving DecidableEq, Repr

/-- A call; a null pointer is `none`. -/
inductive Call where
  | initialize'
  | addBlock (block : Option Ref)
  | query (q : Query)
  deriving DecidableEq, Repr

inductive Answer where
  | done
  | added (ok : Bool)
  | found (block : Option Ref)
  | valid (ok : Bool)
  deriving DecidableEq, Repr

/-- Where a thread stands: before a lock, or between a lock and its release. -/
inductive Place where
  | idle
  | initializeLock
  | initializeHeld
  | addBlockLock (block : Ref)
  | addBlockValidateLock (block : Ref)
  | addBlockValidateHeld (block : Ref)
  | addBlockValidated (block : Ref) (valid : Bool)
  | queryLock (q : Query)
  | queryHeld (q : Query)
  deriving DecidableEq, Repr

namespace Place

def wantsLock : Place → Bool
  | initializeLock | addBlockLock _ | addBlockValidateLock _ | queryLock _ => true
  | _ => false

def zones : SharedMutex.Zones Place where
  alone
    | initializeHeld | addBlockValidateLock _ | addBlockValidateHeld _
    | addBlockValidated _ _ => true
    | _ => false
  sharing
    | addBlockValidateHeld _ | queryHeld _ => true
    | _ => false

/-- A place of `add_block` behind the lock of `validate_block`. -/
def behindValidate : Place → Bool
  | addBlockValidateHeld _ | addBlockValidated _ _ => true
  | _ => false

/-- A place of `add_block`; a null pointer has none. -/
def inAddBlock : Place → Bool
  | addBlockLock _ | addBlockValidateLock _ | addBlockValidateHeld _ | addBlockValidated _ _ => true
  | _ => false

/-- How many more steps a call takes at most. -/
def stepsLeft : Place → Nat
  | idle => 0
  | initializeHeld | queryHeld _ | addBlockValidated _ _ => 1
  | initializeLock | queryLock _ | addBlockValidateHeld _ => 2
  | addBlockValidateLock _ => 3
  | addBlockLock _ => 4

end Place

structure State (ι : Type) where
  blocks : List Block
  blockchain_ : List Ref
  chain_height_ : UInt64
  hash_to_index_ : List Char → Option Nat
  mutex_ : SharedMutex ι
  threads : ι → Place
  returned : ι → Option Answer

/-- A caller makes a block or extends one, or a thread calls a function or goes on in it;
`now` is what the system clock reads. -/
inductive Event (ι : Type) where
  | newBlock (height : UInt64) (prevHash : List Char) (now : UInt64)
  | addTransaction (block : Ref) (txHash : List Char)
  | call (i : ι) (f : Call)
  | move (i : ι) (now : UInt64)
  deriving DecidableEq, Repr

variable {ι : Type} [DecidableEq ι]

namespace State

omit [DecidableEq ι] in
def fresh : State ι where
  blocks := []
  blockchain_ := []
  chain_height_ := 0
  hash_to_index_ _ := none
  mutex_ := .free
  threads _ := .idle
  returned _ := none

variable (s : State ι)

/-! ## What the functions do under the lock -/

def initialize' (now : UInt64) : State ι :=
  if s.blockchain_.isEmpty then
    let genesis := Block.new 0 ['0'] now
    { s with
      blocks := s.blocks ++ [genesis]
      blockchain_ := [s.blocks.length]
      chain_height_ := 1
      hash_to_index_ := Function.update s.hash_to_index_ genesis.calculateHash (some 0) }
  else s

def validateBlock (block : Ref) (now : UInt64) : Bool :=
  match s.blocks[block]? with
  | none => false
  | some b =>
    match s.blockchain_.getLast? with
    | none => b.header_.height = 0
    | some last =>
      match s.blocks[last]? with
      | none => false
      | some prev =>
        let hdr := b.header_
        hdr.height = prev.header_.height + 1 && hdr.prev_hash = prev.calculateHash &&
          !(hdr.timestamp > now + 60) && !(hdr.timestamp ≤ prev.header_.timestamp)

/-- The end of `add_block` for a valid block. -/
def append (block : Ref) : State ι :=
  let blockchain := s.blockchain_ ++ [block]
  { s with
    blockchain_ := blockchain
    chain_height_ := UInt64.ofNat blockchain.length
    hash_to_index_ := match s.blocks[block]? with
      | none => s.hash_to_index_
      | some b => Function.update s.hash_to_index_ b.calculateHash (some (blockchain.length - 1)) }

def getBlock (height : UInt64) : Option Ref := s.blockchain_[height.toNat]?

def getBlockByHash (hash : List Char) : Option Ref :=
  (s.hash_to_index_ hash).bind fun index => s.blockchain_[index]?

def getLatestBlock : Option Ref := s.blockchain_.getLast?

def answer (now : UInt64) : Query → Answer
  | .getBlock height => .found (s.getBlock height)
  | .getBlockByHash hash => .found (s.getBlockByHash hash)
  | .validateBlock block => .valid (s.validateBlock block now)
  | .getLatestBlock => .found s.getLatestBlock

/-! ## Steps -/

def goTo (i : ι) (place : Place) : State ι :=
  { s with threads := Function.update s.threads i place }

/-- A lock is waited for until it can be taken; a thread that already holds the mutex waits for
itself. -/
def lock (i : ι) (place : Place) : State ι :=
  if s.mutex_.canLock then { s.goTo i place with mutex_ := s.mutex_.lock i } else s

def lockShared (i : ι) (place : Place) : State ι :=
  if s.mutex_.canLockShared then { s.goTo i place with mutex_ := s.mutex_.lockShared i } else s

def unlock : State ι := { s with mutex_ := s.mutex_.unlock }

def unlockShared (i : ι) : State ι := { s with mutex_ := s.mutex_.unlockShared i }

def return' (i : ι) (answer : Answer) : State ι :=
  { s.goTo i .idle with returned := Function.update s.returned i (some answer) }

def call (i : ι) (f : Call) : State ι :=
  if s.threads i = .idle then
    match f with
    | .initialize' => s.goTo i .initializeLock
    | .addBlock none => s.return' i (.added false)
    | .addBlock (some block) => s.goTo i (.addBlockLock block)
    | .query q => s.goTo i (.queryLock q)
  else s

def move (i : ι) (now : UInt64) : State ι :=
  match s.threads i with
  | .idle => s
  | .initializeLock => s.lock i .initializeHeld
  | .initializeHeld => ((s.initialize' now).unlock).return' i .done
  | .addBlockLock block => s.lock i (.addBlockValidateLock block)
  | .addBlockValidateLock block => s.lockShared i (.addBlockValidateHeld block)
  | .addBlockValidateHeld block =>
    (s.unlockShared i).goTo i (.addBlockValidated block (s.validateBlock block now))
  | .addBlockValidated block valid =>
    ((if valid then s.append block else s).unlock).return' i (.added valid)
  | .queryLock q => s.lockShared i (.queryHeld q)
  | .queryHeld q => (s.unlockShared i).return' i (s.answer now q)

def step : Event ι → State ι
  | .newBlock height prevHash now =>
    { s with blocks := s.blocks ++ [Block.new height prevHash now] }
  | .addTransaction block txHash =>
    { s with blocks := s.blocks.modify block (Block.addTransaction txHash) }
  | .call i f => s.call i f
  | .move i now => s.move i now

/-! ## What is claimed of a state -/

/-- No thread that holds the mutex is about to lock it. -/
def NoSecondLock : Prop := ∀ i, s.mutex_.Holds i → (s.threads i).wantsLock = false

/-- Whoever has the mutex, or finds nobody else there, gets nearer to the end of its call. -/
def GetsOn : Prop :=
  ∀ i now, s.threads i ≠ .idle → s.mutex_.Holds i ∨ (∀ j, s.mutex_.Holds j → j = i) →
    ((s.move i now).threads i).stepsLeft < (s.threads i).stepsLeft

/-- Nothing but a null pointer is given to `add_block`, and a stored block gets nothing that its
hash covers. -/
def Meets : Event ι → Prop
  | .call _ f => ∀ block, f ≠ .addBlock (some block)
  | .addTransaction block txHash => block ∈ s.blockchain_ → txHash.all skipped = true
  | _ => True

/-! ## Only the genesis block is ever stored -/

/-- The chain is empty, or holds the genesis block. -/
def StartsChain : Prop :=
  (s.blockchain_ = [] ∧ s.chain_height_ = 0) ∨
    ∃ (g : Ref) (b : Block), s.blockchain_ = [g] ∧ s.chain_height_ = 1 ∧
      s.blocks[g]? = some b ∧ b.header_.height = 0

/-- Nobody gets past the second lock, so the chain never gets past the genesis block. -/
structure OnlyGenesis : Prop where
  agrees : s.mutex_.Agrees Place.zones s.threads
  behind : ∀ i, (s.threads i).behindValidate = false
  chain : s.StartsChain

variable {s} {i : ι} {place : Place}

omit [DecidableEq ι] in
theorem startsChain_newBlock (h : s.StartsChain) (b : Block) :
    { s with blocks := s.blocks ++ [b] }.StartsChain := by
  rcases h with h | ⟨g, c, hchain, hheight, hc, hzero⟩
  · exact .inl h
  · refine .inr ⟨g, c, hchain, hheight, ?_, hzero⟩
    rw [List.getElem?_append_left (List.getElem?_eq_some_iff.mp hc).1, hc]

omit [DecidableEq ι] in
theorem startsChain_addTransaction (h : s.StartsChain) (block : Ref) (txHash : List Char) :
    { s with blocks := s.blocks.modify block (Block.addTransaction txHash) }.StartsChain := by
  rcases h with h | ⟨g, c, hchain, hheight, hc, hzero⟩
  · exact .inl h
  · refine .inr ⟨g, if block = g then c.addTransaction txHash else c, hchain, hheight, ?_, ?_⟩
    · simp only [List.getElem?_modify, hc, Option.map_eq_map, Option.map_some]
    · split
      · exact hzero
      · exact hzero

omit [DecidableEq ι] in
theorem startsChain_initialize (h : s.StartsChain) (now : UInt64) :
    (s.initialize' now).StartsChain := by
  unfold initialize'
  split
  · exact .inr ⟨_, Block.new 0 ['0'] now, rfl, rfl, by simp, rfl⟩
  · exact h

omit [DecidableEq ι] in
theorem initialize_mutex (now : UInt64) : (s.initialize' now).mutex_ = s.mutex_ := by
  unfold initialize'
  split <;> rfl

omit [DecidableEq ι] in
theorem initialize_threads (now : UInt64) : (s.initialize' now).threads = s.threads := by
  unfold initialize'
  split <;> rfl

/-- What no thread's place is stays so when a thread goes to a place that is not. -/
theorem nowhere_update {bad : Place → Bool} (h : ∀ j, bad (s.threads j) = false)
    (hplace : bad place = false) : ∀ j, bad (Function.update s.threads i place j) = false :=
  (Function.forall_update_iff s.threads fun _ place => bad place = false).mpr
    ⟨hplace, fun j _ => h j⟩

/-- Behind the lock of `add_block`, `validate_block` waits for its own thread. -/
theorem OnlyGenesis.waits (h : s.OnlyGenesis) {block : Ref}
    (hi : s.threads i = .addBlockValidateLock block) (now : UInt64) : s.move i now = s := by
  have owner : s.mutex_.exclusive = some i := (h.agrees.exclusive i).mpr (by rw [hi]; rfl)
  have taken : s.mutex_.canLockShared = false := by simp [SharedMutex.canLockShared, owner]
  simp only [State.move, hi, lockShared, taken, Bool.false_eq_true, if_false]

theorem OnlyGenesis.lock (h : s.OnlyGenesis) (halone : Place.zones.alone place = true)
    (hsharing : Place.zones.sharing place = false) (hbehind : place.behindValidate = false) :
    (s.lock i place).OnlyGenesis := by
  unfold State.lock
  split
  · rename_i hcan
    exact ⟨h.agrees.lock hcan halone hsharing, nowhere_update h.behind hbehind, h.chain⟩
  · exact h

theorem OnlyGenesis.move (h : s.OnlyGenesis) (i : ι) (now : UInt64) :
    (s.move i now).OnlyGenesis := by
  have hbehind := h.behind i
  cases hplace : s.threads i with
  | idle =>
    simp only [State.move, hplace]
    exact h
  | initializeLock =>
    simp only [State.move, hplace]
    exact h.lock rfl rfl rfl
  | initializeHeld =>
    simp only [State.move, hplace]
    have released : s.mutex_.unlock.Agrees Place.zones (Function.update s.threads i .idle) :=
      h.agrees.unlock (by rw [hplace]; rfl) rfl (by rw [hplace]; rfl)
    refine ⟨?_, ?_, startsChain_initialize h.chain now⟩
    · simpa only [return', goTo, State.unlock, initialize_mutex, initialize_threads] using released
    · simpa only [return', goTo, State.unlock, initialize_threads] using nowhere_update h.behind rfl
  | addBlockLock block =>
    simp only [State.move, hplace]
    exact h.lock rfl rfl rfl
  | addBlockValidateLock block =>
    rw [h.waits hplace]
    exact h
  | addBlockValidateHeld block | addBlockValidated block valid =>
    rw [hplace] at hbehind
    cases hbehind
  | queryLock q =>
    simp only [State.move, hplace, lockShared]
    split
    · exact ⟨h.agrees.lockShared (by rw [hplace]; rfl) rfl, nowhere_update h.behind rfl, h.chain⟩
    · exact h
  | queryHeld q =>
    simp only [State.move, hplace]
    exact ⟨h.agrees.unlockShared (by rw [hplace]; rfl) rfl, nowhere_update h.behind rfl, h.chain⟩

/-- A call starts at a place that holds nothing. -/
theorem OnlyGenesis.enter (h : s.OnlyGenesis) (hidle : s.threads i = .idle)
    (halone : Place.zones.alone place = false) (hsharing : Place.zones.sharing place = false)
    (hbehind : place.behindValidate = false) : (s.goTo i place).OnlyGenesis := by
  refine ⟨h.agrees.goOn ?_ ?_, nowhere_update h.behind hbehind, h.chain⟩
  · rw [halone, hidle]
    rfl
  · rw [hsharing, hidle]
    rfl

theorem OnlyGenesis.call (h : s.OnlyGenesis) (i : ι) (f : Call) : (s.call i f).OnlyGenesis := by
  unfold State.call
  split
  · rename_i hidle
    cases f with
    | initialize' => exact h.enter hidle rfl rfl rfl
    | query q => exact h.enter hidle rfl rfl rfl
    | addBlock block =>
      cases block with
      | some block => exact h.enter hidle rfl rfl rfl
      | none =>
        have entered : (s.goTo i .idle).OnlyGenesis := h.enter hidle rfl rfl rfl
        exact ⟨entered.agrees, entered.behind, entered.chain⟩
  · exact h

theorem OnlyGenesis.step (h : s.OnlyGenesis) (e : Event ι) : (s.step e).OnlyGenesis := by
  cases e with
  | newBlock height prevHash now => exact ⟨h.agrees, h.behind, startsChain_newBlock h.chain _⟩
  | addTransaction block txHash =>
    exact ⟨h.agrees, h.behind, startsChain_addTransaction h.chain block txHash⟩
  | call i f => exact h.call i f
  | move i now => exact h.move i now

omit [DecidableEq ι] in
theorem onlyGenesis_fresh : (fresh : State ι).OnlyGenesis where
  agrees := SharedMutex.agrees_free (fun _ => rfl) fun _ => rfl
  behind _ := rfl
  chain := .inl ⟨rfl, rfl⟩

theorem onlyGenesis_run (events : List (Event ι)) : (run step fresh events).OnlyGenesis := by
  induction events using List.reverseRecOn with
  | nil => exact onlyGenesis_fresh
  | append_singleton events e ih =>
    rw [run, List.foldl_append]
    exact ih.step e

/-- No run stores a second block. -/
theorem blockchain_length_le_one (events : List (Event ι)) :
    (run step (fresh : State ι) events).blockchain_.length ≤ 1 := by
  rcases (onlyGenesis_run events).chain with ⟨empty, -⟩ | ⟨g, b, single, -⟩
  · rw [empty]
    exact Nat.zero_le 1
  · rw [single]
    exact Nat.le_refl 1

/-! ## A block given to `add_block` -/

/-- No thread adds a block, and the index has the genesis block under the hash it has now. -/
structure Unbroken (s : State ι) : Prop where
  outside : ∀ i, (s.threads i).inAddBlock = false
  index : ∀ g b, s.blockchain_ = [g] → s.blocks[g]? = some b →
    s.hash_to_index_ b.calculateHash = some 0

omit [DecidableEq ι] in
theorem OnlyGenesis.stored (h : s.OnlyGenesis) {g : Ref} (hchain : s.blockchain_ = [g]) :
    s.chain_height_ = 1 ∧ ∃ b, s.blocks[g]? = some b ∧ b.header_.height = 0 := by
  rcases h.chain with ⟨empty, -⟩ | ⟨g', b, single, hheight, hb, hzero⟩
  · rw [empty] at hchain
    cases hchain
  · rw [single] at hchain
    cases hchain
    exact ⟨hheight, b, hb, hzero⟩

omit [DecidableEq ι] in
theorem Unbroken.newBlock (h : s.Unbroken) (hg : s.OnlyGenesis) (new : Block) :
    { s with blocks := s.blocks ++ [new] }.Unbroken := by
  refine ⟨h.outside, ?_⟩
  intro g b hchain hb
  obtain ⟨-, c, hc, -⟩ := hg.stored hchain
  rw [List.getElem?_append_left (List.getElem?_eq_some_iff.mp hc).1] at hb
  exact h.index g b hchain hb

omit [DecidableEq ι] in
theorem Unbroken.addTransaction (h : s.Unbroken) (hg : s.OnlyGenesis) {block : Ref}
    {txHash : List Char} (hmeets : s.Meets (.addTransaction block txHash)) :
    { s with blocks := s.blocks.modify block (Block.addTransaction txHash) }.Unbroken := by
  refine ⟨h.outside, ?_⟩
  intro g b hchain hb
  obtain ⟨-, c, hc, -⟩ := hg.stored hchain
  simp only [List.getElem?_modify, hc, Option.map_eq_map, Option.map_some, Option.some.injEq] at hb
  have same : b.calculateHash = c.calculateHash := by
    rw [← hb]
    split
    · rename_i here
      apply Block.calculateHash_addTransaction
      apply hmeets
      rw [here, hchain]
      exact List.mem_singleton_self g
    · rfl
  rw [same]
  exact h.index g c hchain hc

omit [DecidableEq ι] in
theorem Unbroken.index_initialize (h : s.Unbroken) (now : UInt64) {g : Ref} {b : Block}
    (hchain : (s.initialize' now).blockchain_ = [g])
    (hb : (s.initialize' now).blocks[g]? = some b) :
    (s.initialize' now).hash_to_index_ b.calculateHash = some 0 := by
  unfold initialize' at hchain hb ⊢
  split at hchain
  · rename_i hempty
    cases hchain
    simp only [hempty, if_true, List.getElem?_concat_length, Option.some.injEq] at hb
    simp only [hempty, if_true, ← hb, Function.update_self]
  · rename_i hsome
    simp only [if_neg hsome] at hb ⊢
    exact h.index g b hchain hb

theorem Unbroken.move (h : s.Unbroken) (i : ι) (now : UInt64) : (s.move i now).Unbroken := by
  have houtside := h.outside i
  cases hplace : s.threads i with
  | idle =>
    simp only [State.move, hplace]
    exact h
  | initializeLock =>
    simp only [State.move, hplace, State.lock]
    split
    · exact ⟨nowhere_update h.outside rfl, h.index⟩
    · exact h
  | initializeHeld =>
    simp only [State.move, hplace]
    refine ⟨?_, fun g b hchain hb => h.index_initialize now hchain hb⟩
    simpa only [return', goTo, State.unlock, initialize_threads] using nowhere_update h.outside rfl
  | addBlockLock | addBlockValidateLock | addBlockValidateHeld | addBlockValidated =>
    rw [hplace] at houtside
    cases houtside
  | queryLock q =>
    simp only [State.move, hplace, lockShared]
    split
    · exact ⟨nowhere_update h.outside rfl, h.index⟩
    · exact h
  | queryHeld q =>
    simp only [State.move, hplace]
    exact ⟨nowhere_update h.outside rfl, h.index⟩

theorem Unbroken.step (h : s.Unbroken) (hg : s.OnlyGenesis) {e : Event ι} (hmeets : s.Meets e) :
    (s.step e).Unbroken := by
  cases e with
  | newBlock height prevHash now => exact h.newBlock hg _
  | addTransaction block txHash => exact h.addTransaction hg hmeets
  | move i now => exact h.move i now
  | call i f =>
    simp only [State.step, State.call]
    split
    · cases f with
      | initialize' => exact ⟨nowhere_update h.outside rfl, h.index⟩
      | query q => exact ⟨nowhere_update h.outside rfl, h.index⟩
      | addBlock block =>
        cases block with
        | none => exact ⟨nowhere_update h.outside rfl, h.index⟩
        | some block => exact absurd rfl (hmeets block)
    · exact h

/-! ## What holds then -/

omit [DecidableEq ι] in
theorem Unbroken.noSecondLock (h : s.Unbroken) (hg : s.OnlyGenesis) : s.NoSecondLock := by
  intro i hholds
  have houtside := h.outside i
  rw [hg.agrees.holds_iff] at hholds
  cases hplace : s.threads i with
  | initializeHeld | addBlockValidateHeld | addBlockValidated | queryHeld | idle => rfl
  | addBlockValidateLock block =>
    rw [hplace] at houtside
    cases houtside
  | initializeLock | addBlockLock | queryLock =>
    rw [hplace] at hholds
    rcases hholds with alone | sharing
    · cases alone
    · cases sharing

end State

end MidnightSdk.Blockchain.ChainManager
