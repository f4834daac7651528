import MidnightSdk.MonitoringFinality.Rpc

/-!
# Who relies on the finalized height

A block is finalized up to the height asked of the node, some wait for it, and some are
told when it grows. When the finalized head cannot be read, the height is a guess from
the best block; all of them are right exactly where the guess is.
-/

namespace MidnightSdk.MonitoringFinality

open Cpp Network

section
variable {ρ : Type} (answers : ρ → NodeAnswers)

/-- `FinalityAwaiter::is_finalized` -/
def isFinalized (node : NodeAnswers) (blockHeight : UInt32) : Bool :=
  blockHeight ≤ getFinalizedHeightFromRpc node

/-- `FinalityAwaiter::wait_for_block_finality`: the round in which it returns true, if
one does so in time. -/
def waitForBlockFinality (blockHeight : UInt32) : List ρ → Option ρ
  | [] => none
  | round :: rest =>
    if isFinalized (answers round) blockHeight then some round
    else waitForBlockFinality blockHeight rest

/-- `FinalizationMonitor::wait_for_finality`: the round of the callback with true, if one
of the 120 rounds has it. -/
def waitForFinality (blockHeight : UInt32) (rounds : List ρ) : Option ρ :=
  (rounds.take 120).find? fun round => getFinalizedHeightFromRpc (answers round) ≥ blockHeight

/-- The loop of the monitor: its callbacks, each with its round. -/
def finalizationLoop (lastFinalizedHeight : UInt32) : List ρ → List (ρ × UInt32)
  | [] => []
  | round :: rest =>
    let newFinalized := getFinalizedHeightFromRpc (answers round)
    if newFinalized > lastFinalizedHeight then
      (round, newFinalized) :: finalizationLoop newFinalized rest
    else finalizationLoop lastFinalizedHeight rest

/-- `FinalizationMonitor::monitor_finalization`: the first round calls back whatever it
reads. -/
def monitorFinalization : List ρ → List (ρ × UInt32)
  | [] => []
  | round :: rest =>
    let lastFinalizedHeight := getFinalizedHeightFromRpc (answers round)
    (round, lastFinalizedHeight) :: finalizationLoop answers lastFinalizedHeight rest

/-! ## What they see -/

variable {answers}

theorem waitForBlockFinality_eq_some {blockHeight : UInt32} {rounds : List ρ} {round : ρ}
    (h : waitForBlockFinality answers blockHeight rounds = some round) :
    round ∈ rounds ∧ isFinalized (answers round) blockHeight = true := by
  induction rounds with
  | nil => cases h
  | cons first rest ih =>
    rw [waitForBlockFinality] at h
    split at h
    · rename_i finalized
      cases h
      exact ⟨List.mem_cons_self .., finalized⟩
    · obtain ⟨hmem, finalized⟩ := ih h
      exact ⟨List.mem_cons_of_mem first hmem, finalized⟩

theorem waitForFinality_eq_some {blockHeight : UInt32} {rounds : List ρ} {round : ρ}
    (h : waitForFinality answers blockHeight rounds = some round) :
    round ∈ rounds ∧ isFinalized (answers round) blockHeight = true := by
  have reached := List.find?_some h
  exact ⟨List.mem_of_mem_take (List.mem_of_find?_eq_some h), reached⟩

/-- A callback brings the height read in its round. -/
theorem mem_finalizationLoop {last : UInt32} {rounds : List ρ} {call : ρ × UInt32}
    (h : call ∈ finalizationLoop answers last rounds) :
    call.1 ∈ rounds ∧ call.2 = getFinalizedHeightFromRpc (answers call.1) := by
  induction rounds generalizing last with
  | nil => cases h
  | cons first rest ih =>
    rw [finalizationLoop] at h
    split at h
    · rcases List.mem_cons.mp h with rfl | h
      · exact ⟨List.mem_cons_self .., rfl⟩
      · exact ⟨List.mem_cons_of_mem first (ih h).1, (ih h).2⟩
    · exact ⟨List.mem_cons_of_mem first (ih h).1, (ih h).2⟩

theorem mem_monitorFinalization {rounds : List ρ} {call : ρ × UInt32}
    (h : call ∈ monitorFinalization answers rounds) :
    call.1 ∈ rounds ∧ call.2 = getFinalizedHeightFromRpc (answers call.1) := by
  cases rounds with
  | nil => cases h
  | cons first rest =>
    rcases List.mem_cons.mp h with rfl | h
    · exact ⟨List.mem_cons_self .., rfl⟩
    · obtain ⟨hmem, hheight⟩ := mem_finalizationLoop h
      exact ⟨List.mem_cons_of_mem first hmem, hheight⟩

end

/-! ## Polls of a node -/

/-- One poll of a node that does not lie: where the calls are answered, they name a
finalized block and the best one. What was finalized when the head was asked for may
have grown by the end of the poll. -/
structure Poll where
  node : NodeAnswers
  finalized : Nat
  best : Nat
  head : ∀ answer, node "chain_getFinalizedHead" (.array []) = .ok answer →
    ∃ hash, answer = .string hash ∧
      ∀ header, node "chain_getHeader" (.array [.string hash]) = .ok header →
        ∃ height ≤ finalized, HexHeight header height
  bestHeader : ∀ header, node "chain_getHeader" (.array []) = .ok header → HexHeight header best

namespace Poll

/-- The two calls about the finalized head are answered. -/
def HeadRead (poll : Poll) : Prop :=
  ∃ hash header, poll.node "chain_getFinalizedHead" (.array []) = .ok (.string hash) ∧
    poll.node "chain_getHeader" (.array [.string hash]) = .ok header

/-- What is guessed from the best block, if that is answered, is not above the finalized
height. -/
def GuessesRight (poll : Poll) : Prop :=
  ∀ header, poll.node "chain_getHeader" (.array []) = .ok header →
    (guessFinalizedHeight (parseBlockHeight header)).toNat ≤ poll.finalized

theorem readFinalizedHeight_eq_some {node : NodeAnswers} {height : UInt32} :
    readFinalizedHeight node = .ok (some height) ↔
      ∃ hash header, node "chain_getFinalizedHead" (.array []) = .ok (.string hash) ∧
        node "chain_getHeader" (.array [.string hash]) = .ok header ∧
        parseBlockHeight header = height := by
  simp only [readFinalizedHeight, bind_eq_ok, rpcCall_eq_ok]
  constructor
  · rintro ⟨answer, hhead, h⟩
    split at h
    · rename_i hash
      obtain ⟨header, hheader, hheight⟩ := bind_eq_ok.mp h
      cases hheight
      exact ⟨hash, header, hhead, rpcCall_eq_ok.mp hheader, rfl⟩
    · cases h
  · rintro ⟨hash, header, hhead, hheader, rfl⟩
    exact ⟨_, hhead, bind_eq_ok.mpr ⟨header, rpcCall_eq_ok.mpr hheader, rfl⟩⟩

/-- One poll is right exactly where the head is read or the guess is right. -/
theorem height_le_iff (poll : Poll) :
    (getFinalizedHeightFromRpc poll.node).toNat ≤ poll.finalized ↔
      poll.HeadRead ∨ poll.GuessesRight := by
  unfold getFinalizedHeightFromRpc
  split
  · rename_i height hread
    obtain ⟨hash, header, hhead, hheader, rfl⟩ := readFinalizedHeight_eq_some.mp hread
    obtain ⟨_, heq, hfinal⟩ := poll.head _ hhead
    cases heq
    obtain ⟨height, hle, hstated⟩ := hfinal header hheader
    exact iff_of_true (Nat.le_trans (parseBlockHeight_le hstated) hle)
      (Or.inl ⟨hash, header, hhead, hheader⟩)
  · rename_i hunread
    have unread : ¬ poll.HeadRead := by
      rintro ⟨hash, header, hhead, hheader⟩
      exact hunread _ (readFinalizedHeight_eq_some.mpr ⟨hash, header, hhead, hheader, rfl⟩)
    rw [or_iff_right unread]
    split
    · rename_i head hbest
      rw [rpcCall_eq_ok] at hbest
      simp only [GuessesRight, hbest, Except.ok.injEq, forall_eq']
    · rename_i e hfailed
      refine iff_of_true (Nat.zero_le _) fun header hheader => ?_
      rw [← rpcCall_eq_ok, hfailed] at hheader
      cases hheader

/-- The guess is two below the best block, or that block itself up to the second. -/
theorem guessesRight_iff (poll : Poll) (hfits : poll.best < 2 ^ 32) :
    poll.GuessesRight ↔ (∃ e, poll.node "chain_getHeader" (.array []) = .error e) ∨
      (if 2 < poll.best then poll.best - 2 else poll.best) ≤ poll.finalized := by
  unfold GuessesRight
  cases hbest : poll.node "chain_getHeader" (.array []) with
  | error e => simp
  | ok header =>
    have read := parseBlockHeight_eq (poll.bestHeader header hbest) hfits
    have guess : (guessFinalizedHeight (parseBlockHeight header)).toNat =
        if 2 < poll.best then poll.best - 2 else poll.best := by
      unfold guessFinalizedHeight
      simp only [gt_iff_lt, UInt32.lt_iff_toNat_lt, read, UInt32.reduceToNat]
      split
      · rename_i above
        have two : (2 : UInt32) ≤ parseBlockHeight header := by
          rw [UInt32.le_iff_toNat_le, read]
          exact Nat.le_of_lt above
        rw [UInt32.toNat_sub_of_le _ _ two, read]
        rfl
      · exact read
    simp [guess]

end Poll

/-! ## Runs of polls -/

/-- No height used is ahead of the node: those read, those a block is held final by, and
those called back with. -/
structure NeverAhead (polls : List Poll) : Prop where
  read : ∀ poll ∈ polls, (getFinalizedHeightFromRpc poll.node).toNat ≤ poll.finalized
  isFinalized : ∀ poll ∈ polls, ∀ blockHeight, isFinalized poll.node blockHeight = true →
    blockHeight.toNat ≤ poll.finalized
  waitForBlockFinality : ∀ blockHeight poll,
    waitForBlockFinality Poll.node blockHeight polls = some poll → blockHeight.toNat ≤ poll.finalized
  waitForFinality : ∀ blockHeight poll,
    waitForFinality Poll.node blockHeight polls = some poll → blockHeight.toNat ≤ poll.finalized
  callbacks : ∀ call ∈ monitorFinalization Poll.node polls, call.2.toNat ≤ call.1.finalized

theorem neverAhead_of_read {polls : List Poll}
    (h : ∀ poll ∈ polls, (getFinalizedHeightFromRpc poll.node).toNat ≤ poll.finalized) :
    NeverAhead polls := by
  have final : ∀ poll ∈ polls, ∀ blockHeight, isFinalized poll.node blockHeight = true →
      blockHeight.toNat ≤ poll.finalized := by
    intro poll hmem blockHeight hfinal
    have below : blockHeight ≤ getFinalizedHeightFromRpc poll.node := of_decide_eq_true hfinal
    exact Nat.le_trans (UInt32.le_iff_toNat_le.mp below) (h poll hmem)
  exact {
    read := h
    isFinalized := final
    waitForBlockFinality := fun blockHeight poll hpoll =>
      have ⟨hmem, hfinal⟩ := waitForBlockFinality_eq_some hpoll
      final poll hmem blockHeight hfinal
    waitForFinality := fun blockHeight poll hpoll =>
      have ⟨hmem, hfinal⟩ := waitForFinality_eq_some hpoll
      final poll hmem blockHeight hfinal
    callbacks := fun call hcall => by
      obtain ⟨hmem, hheight⟩ := mem_monitorFinalization hcall
      rw [hheight]
      exact h call.1 hmem }

/-- **When no height is ahead.** It is so exactly when every poll reads the finalized
head or, where it guesses from the best block, guesses no more than is finalized. -/
theorem neverAhead_iff (polls : List Poll) :
    NeverAhead polls ↔ ∀ poll ∈ polls, poll.HeadRead ∨ poll.GuessesRight := by
  constructor
  · intro h poll hmem
    exact poll.height_le_iff.mp (h.read poll hmem)
  · intro h
    exact neverAhead_of_read fun poll hmem => poll.height_le_iff.mpr (h poll hmem)

/-! ## A head that is not answered -/

/-- Block five is final and block ten the best; the call for the head fails. -/
def bestTen : Poll where
  node
    | "chain_getHeader", .array [] => .ok (.object [("number", .string "0xa")])
    | _, _ => .error "timeout"
  finalized := 5
  best := 10
  head := nofun
  bestHeader := by
    rintro header ⟨⟩
    exact ⟨['a'], [10], rfl, by simp, rfl, rfl⟩

theorem not_neverAhead_bestTen : ¬ NeverAhead [bestTen] := by
  intro h
  exact absurd (h.read bestTen (List.mem_singleton_self _)) (by decide)

end MidnightSdk.MonitoringFinality
