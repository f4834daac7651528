import Mathlib.Data.String.Basic
import MidnightSdk.Library.Json
import MidnightSdk.Library.OrderedMap
import MidnightSdk.Library.Runs
import MidnightSdk.Util.Hex

/-!
# The transaction submitter

What the node accepts goes into a cache, and a thread that waits for an inclusion looks into
that cache, once a second. Between its rounds others submit and ask for a status. Nothing but a
submission writes to the cache, so no wait ends with an inclusion.
-/

namespace MidnightSdk.Signing

open Cpp Runs

structure SignedTransaction where
  transactionHash : String
  signedData : List UInt8
  deriving DecidableEq, Repr

inductive SubmissionStatus where
  | created
  | signed
  | submitted
  | inMempool
  | includedInBlock
  | finalized
  | failed
  deriving DecidableEq, Repr

structure SubmissionResult where
  status : SubmissionStatus := .created
  transactionHash : String := ""
  blockHeight : UInt32 := 0
  errorMessage : String := ""
  submissionTimestamp : UInt64 := 0
  inclusionTimestamp : UInt64 := 0
  finalityTimestamp : UInt64 := 0
  deriving DecidableEq, Repr

abbrev SubmissionCache : Type := OrderedMap String SubmissionResult

/-- The second JSON library, which reads an answer once more from its text. -/
structure JsonCpp where
  reparse : Json → Throws Json
  writeString : Json → String
  notAnObject : Exception

/-- `value.isMember(key)`, which asserts an object. -/
def JsonCpp.isMember (jsonCpp : JsonCpp) (key : String) : Json → Throws Bool
  | .object members => .ok (Json.lookup key members).isSome
  | .null => .ok false
  | _ => .error jsonCpp.notAnObject

/-- What a submission meets: the answers to its posts, and the time. -/
structure Exchange where
  post : String → Json → Throws Json
  now : UInt64

def extrinsicHex (tx : SignedTransaction) : String :=
  if tx.signedData.isEmpty then tx.transactionHash
  else String.ofList ('0' :: 'x' :: Util.bytesToHex tx.signedData)

def submitRequest (extrinsicHex : String) : Json :=
  .object [("id", .integer 1), ("jsonrpc", .string "2.0"),
    ("method", .string "author_submitExtrinsic"), ("params", .array [.string extrinsicHex])]

section Submit

variable (jsonCpp : JsonCpp) (typeErrorText : Nat → String)

/-- One path after the other, until an answer can be read. -/
def submitOver (post : String → Json → Throws Json) (request : Json) :
    List String → String → Throws Json
  | [], errors => .error (.runtimeError ("Real RPC submission failed for all paths: " ++ errors))
  | path :: paths, errors =>
    match post path request >>= jsonCpp.reparse with
    | .ok parsed => .ok parsed
    | .error e =>
      submitOver post request paths
        ((if errors = "" then "" else errors ++ " | ") ++ path ++ ": " ++ e.what typeErrorText)

def rpcSubmitExtrinsic (rpcUrl : String) (exchange : Exchange) (tx : SignedTransaction) :
    Throws Json :=
  if rpcUrl = "" then .error (.invalidArgument "Base URL cannot be empty")
  else if !(['0', 'x'].isPrefixOf (extrinsicHex tx).toList) then
    .error (.runtimeError "Cannot submit extrinsic: signed data missing or invalid hex payload")
  else
    submitOver jsonCpp typeErrorText exchange.post (submitRequest (extrinsicHex tx))
      ["/", "/rpc"] ""

/-- The hash that an answer gives the transaction, its own if there is none. -/
def acceptedHash (tx : SignedTransaction) (response : Json) : Throws String := do
  if ← jsonCpp.isMember "error" response then
    let error := (response.find? "error").getD .null
    throw (.runtimeError ("RPC error: " ++ jsonCpp.writeString error))
  if !(← jsonCpp.isMember "result" response) then
    throw (.runtimeError "RPC response missing result")
  let rpcTxHash := match response.find? "result" with
    | some (.string hash) => hash
    | _ => ""
  return if rpcTxHash = "" then tx.transactionHash else rpcTxHash

/-- Under both hashes. -/
def remember (tx : SignedTransaction) (result : SubmissionResult) (cache : SubmissionCache) :
    SubmissionCache :=
  let cache := cache.assign result.transactionHash result
  if tx.transactionHash ≠ "" ∧ tx.transactionHash ≠ result.transactionHash then
    cache.assign tx.transactionHash result
  else cache

def submit (rpcUrl : String) (exchange : Exchange) (tx : SignedTransaction)
    (cache : SubmissionCache) : SubmissionResult × SubmissionCache :=
  match rpcSubmitExtrinsic jsonCpp typeErrorText rpcUrl exchange tx >>= acceptedHash jsonCpp tx with
  | .ok hash =>
    let result : SubmissionResult :=
      { status := .submitted, transactionHash := hash, submissionTimestamp := exchange.now }
    (result, remember tx result cache)
  | .error e =>
    ({ status := .failed, errorMessage := "Submission failed: " ++ e.what typeErrorText }, cache)

end Submit

def getSubmissionStatus (cache : SubmissionCache) (txHash : String) : SubmissionResult :=
  (cache.entries.lookup txHash).getD { transactionHash := txHash }

/-! ## The thread that waits -/

/-- The hash that is waited for, and the rounds that are left. -/
structure Wait where
  txHash : String
  left : Nat
  deriving DecidableEq, Repr

def waitRounds : Nat := 60

def timeoutResult : SubmissionResult :=
  { status := .failed, errorMessage := "Timeout waiting for inclusion" }

/-- One round of the thread: it sleeps for a second, or calls back and ends. -/
def waitRound (cache : SubmissionCache) (wait : Wait) : Wait ⊕ SubmissionResult :=
  match wait.left with
  | 0 => .inr timeoutResult
  | left + 1 =>
    let status := getSubmissionStatus cache wait.txHash
    if status.status = .includedInBlock ∨ status.status = .finalized then .inr status
    else .inl { wait with left }

/-! ## The submitter -/

structure TransactionSubmitter where
  rpcUrl : String
  submissionCache : SubmissionCache := .empty
  waitThread : Option Wait := none

/-- What happens next: a call of any thread, or the next round of the one that waits. -/
inductive Move where
  | submit (tx : SignedTransaction) (exchange : Exchange)
  | getSubmissionStatus (txHash : String)
  | waitForInclusion (txHash : String)
  | round

/-- What is seen of it. A second wait is held up until the first has ended. -/
inductive Seen where
  | submitted (tx : SignedTransaction) (result : SubmissionResult)
  | told (txHash : String) (result : SubmissionResult)
  | waits (txHash : String)
  | joins (txHash : String)
  | sleeps
  | called (result : SubmissionResult)
  | idle
  deriving DecidableEq

namespace TransactionSubmitter

variable (jsonCpp : JsonCpp) (typeErrorText : Nat → String)

def perform (s : TransactionSubmitter) : Move → TransactionSubmitter × Seen
  | .submit tx exchange =>
    let (result, submissionCache) :=
      submit jsonCpp typeErrorText s.rpcUrl exchange tx s.submissionCache
    ({ s with submissionCache }, .submitted tx result)
  | .getSubmissionStatus txHash =>
    (s, .told txHash (Signing.getSubmissionStatus s.submissionCache txHash))
  | .waitForInclusion txHash =>
    match s.waitThread with
    | some _ => (s, .joins txHash)
    | none => ({ s with waitThread := some ⟨txHash, waitRounds⟩ }, .waits txHash)
  | .round =>
    match s.waitThread with
    | none => (s, .idle)
    | some wait =>
      match waitRound s.submissionCache wait with
      | .inl wait => ({ s with waitThread := some wait }, .sleeps)
      | .inr result => ({ s with waitThread := none }, .called result)

def next (s : TransactionSubmitter) (move : Move) : TransactionSubmitter :=
  (s.perform jsonCpp typeErrorText move).1

def seen (s : TransactionSubmitter) (move : Move) : Seen := (s.perform jsonCpp typeErrorText move).2

/-- What is seen of a run of a new submitter, whatever order its calls and rounds come in. -/
def history (rpcUrl : String) (moves : List Move) : List Seen :=
  log (next jsonCpp typeErrorText) (seen jsonCpp typeErrorText) { rpcUrl } moves

end TransactionSubmitter

/-! ## What a history says -/

/-- An accepted submission under a hash. -/
def bearing (txHash : String) : Seen → Option SubmissionResult
  | .submitted tx result =>
    if result.status = .submitted ∧ (txHash = result.transactionHash ∨
        txHash ≠ "" ∧ txHash = tx.transactionHash) then some result
    else none
  | _ => none

/-- The last accepted submission under a hash. -/
def lastBearing (past : List Seen) (txHash : String) : Option SubmissionResult :=
  past.foldl (fun last seen => (bearing txHash seen).or last) none

/-- The wait that has not been called back yet, and how often it has slept. -/
def openWait (past : List Seen) : Option (String × Nat) :=
  past.foldl (fun wait seen => match seen with
    | .waits txHash => some (txHash, 0)
    | .sleeps => wait.map fun wait => (wait.1, wait.2 + 1)
    | .called _ => none
    | _ => wait) none

/-- A status is that of the last submission that the node accepted under the hash. A wait ends
after sixty rounds, and with a failure. -/
def Lawful (past : List Seen) : Seen → Prop
  | .submitted _ result => result.status = .submitted ∨ result.status = .failed
  | .told txHash result => result = (lastBearing past txHash).getD { transactionHash := txHash }
  | .waits _ | .idle => openWait past = none
  | .joins _ => (openWait past).isSome
  | .sleeps => ∃ txHash slept, openWait past = some (txHash, slept) ∧ slept < waitRounds
  | .called result =>
    ∃ txHash, openWait past = some (txHash, waitRounds) ∧ result = timeoutResult

/-! ## One step -/

theorem lookup_remember (tx : SignedTransaction) (result : SubmissionResult)
    (cache : SubmissionCache) (txHash : String) :
    (remember tx result cache).entries.lookup txHash =
      if txHash = result.transactionHash ∨ txHash ≠ "" ∧ txHash = tx.transactionHash
      then some result else cache.entries.lookup txHash := by
  rw [remember]
  by_cases other : tx.transactionHash ≠ "" ∧ tx.transactionHash ≠ result.transactionHash
  · rw [if_pos other, OrderedMap.assign, OrderedMap.assign, OrderedMap.lookup_place,
      OrderedMap.lookup_place]
    by_cases own : txHash = tx.transactionHash
    · rw [if_pos own, if_pos (.inr ⟨own ▸ other.1, own⟩)]
    · rw [if_neg own]
      simp only [own, and_false, or_false]
  · rw [if_neg other, OrderedMap.assign, OrderedMap.lookup_place]
    by_cases first : txHash = result.transactionHash
    · rw [if_pos first, if_pos (.inl first)]
    · rw [if_neg first, if_neg]
      rintro (same | ⟨ne, rfl⟩)
      · exact first same
      · exact other ⟨ne, first⟩

section Steps

variable {jsonCpp : JsonCpp} {typeErrorText : Nat → String}

/-- A submission is accepted and remembered, or it fails and leaves the cache alone. -/
theorem submit_cases (rpcUrl : String) (exchange : Exchange) (tx : SignedTransaction)
    (cache : SubmissionCache) :
    let done := submit jsonCpp typeErrorText rpcUrl exchange tx cache
    (done.1.status = .submitted ∧ done.2 = remember tx done.1 cache) ∨
      (done.1.status = .failed ∧ done.2 = cache) := by
  rw [submit]
  cases rpcSubmitExtrinsic jsonCpp typeErrorText rpcUrl exchange tx >>= acceptedHash jsonCpp tx with
  | ok hash => exact .inl ⟨rfl, rfl⟩
  | error e => exact .inr ⟨rfl, rfl⟩

theorem lastBearing_append (past : List Seen) (seen : Seen) (txHash : String) :
    lastBearing (past ++ [seen]) txHash = (bearing txHash seen).or (lastBearing past txHash) := by
  rw [lastBearing, List.foldl_append]
  rfl

/-- The cache and the thread as the history has left them. -/
structure Recorded (past : List Seen) (s : TransactionSubmitter) : Prop where
  cached : ∀ txHash, s.submissionCache.entries.lookup txHash = lastBearing past txHash
  accepted : ∀ txHash result, lastBearing past txHash = some result → result.status = .submitted
  waiting : openWait past = s.waitThread.map fun wait => (wait.txHash, waitRounds - wait.left)
  few : ∀ wait ∈ s.waitThread, wait.left ≤ waitRounds

theorem Recorded.new (rpcUrl : String) : Recorded [] { rpcUrl } := by
  constructor
  · intro txHash
    rfl
  · intro txHash result h
    cases h
  · rfl
  · intro wait h
    cases h

theorem openWait_append (past : List Seen) (seen : Seen) :
    openWait (past ++ [seen]) = match seen with
      | .waits txHash => some (txHash, 0)
      | .sleeps => (openWait past).map fun wait => (wait.1, wait.2 + 1)
      | .called _ => none
      | _ => openWait past := by
  rw [openWait, List.foldl_append]
  rfl

/-- The history of a cache never says more than that a transaction was submitted. -/
theorem Recorded.unsettled {past : List Seen} {s : TransactionSubmitter} (h : Recorded past s)
    (txHash : String) :
    ¬((getSubmissionStatus s.submissionCache txHash).status = .includedInBlock ∨
      (getSubmissionStatus s.submissionCache txHash).status = .finalized) := by
  rw [getSubmissionStatus, h.cached]
  cases last : lastBearing past txHash with
  | none => simp
  | some result =>
    rw [Option.getD_some, h.accepted txHash result last]
    simp

/-- Where nothing is submitted, only the thread is to be looked at. -/
theorem Recorded.unheard {past : List Seen} {s : TransactionSubmitter} (h : Recorded past s)
    {seen : Seen} {waitThread : Option Wait} (silent : ∀ txHash, bearing txHash seen = none)
    (now : openWait (past ++ [seen]) =
      waitThread.map fun wait => (wait.txHash, waitRounds - wait.left))
    (few : ∀ wait ∈ waitThread, wait.left ≤ waitRounds) :
    Recorded (past ++ [seen]) { s with waitThread } := by
  refine ⟨?_, ?_, now, few⟩
  · intro txHash
    rw [lastBearing_append, silent, Option.none_or]
    exact h.cached txHash
  · intro txHash result last
    rw [lastBearing_append, silent, Option.none_or] at last
    exact h.accepted txHash result last

/-- The cache does not end a wait, so its rounds are counted down. -/
theorem Recorded.waitRound_succ {past : List Seen} {s : TransactionSubmitter}
    (h : Recorded past s) (txHash : String) (left : Nat) :
    waitRound s.submissionCache ⟨txHash, left + 1⟩ = .inl ⟨txHash, left⟩ :=
  if_neg (h.unsettled txHash)

theorem Recorded.submit {past : List Seen} {s : TransactionSubmitter} (h : Recorded past s)
    (tx : SignedTransaction) (exchange : Exchange) :
    Lawful past (s.seen jsonCpp typeErrorText (.submit tx exchange)) ∧
      Recorded (past ++ [s.seen jsonCpp typeErrorText (.submit tx exchange)])
        (s.next jsonCpp typeErrorText (.submit tx exchange)) := by
  have either := @submit_cases jsonCpp typeErrorText s.rpcUrl exchange tx s.submissionCache
  rw [TransactionSubmitter.seen, TransactionSubmitter.next, TransactionSubmitter.perform]
  cases done : Signing.submit jsonCpp typeErrorText s.rpcUrl exchange tx s.submissionCache with
  | mk result submissionCache =>
    rw [done] at either
    dsimp only at either ⊢
    refine ⟨either.imp And.left And.left, ?_, ?_, ?_, h.few⟩
    · intro txHash
      rw [lastBearing_append, bearing]
      rcases either with ⟨accepted, rfl⟩ | ⟨failed, rfl⟩
      · rw [lookup_remember, h.cached]
        simp only [accepted, true_and]
        split <;> rfl
      · rw [h.cached, failed]
        rfl
    · intro txHash known last
      rw [lastBearing_append, bearing] at last
      split at last
      · rename_i accepted
        cases last
        exact accepted.1
      · exact h.accepted txHash known last
    · rw [openWait_append]
      exact h.waiting

theorem Recorded.getSubmissionStatus {past : List Seen} {s : TransactionSubmitter}
    (h : Recorded past s) (txHash : String) :
    Lawful past (s.seen jsonCpp typeErrorText (.getSubmissionStatus txHash)) ∧
      Recorded (past ++ [s.seen jsonCpp typeErrorText (.getSubmissionStatus txHash)])
        (s.next jsonCpp typeErrorText (.getSubmissionStatus txHash)) := by
  rw [TransactionSubmitter.seen, TransactionSubmitter.next, TransactionSubmitter.perform]
  refine ⟨?_, h.unheard (fun _ => rfl) ?_ h.few⟩
  · rw [Lawful, Signing.getSubmissionStatus, h.cached]
  · rw [openWait_append]
    exact h.waiting

theorem Recorded.waitForInclusion {past : List Seen} {s : TransactionSubmitter}
    (h : Recorded past s) (txHash : String) :
    Lawful past (s.seen jsonCpp typeErrorText (.waitForInclusion txHash)) ∧
      Recorded (past ++ [s.seen jsonCpp typeErrorText (.waitForInclusion txHash)])
        (s.next jsonCpp typeErrorText (.waitForInclusion txHash)) := by
  have waiting := h.waiting
  rw [TransactionSubmitter.seen, TransactionSubmitter.next, TransactionSubmitter.perform]
  cases thread : s.waitThread with
  | some wait =>
    refine ⟨?_, h.unheard (fun _ => rfl) ?_ h.few⟩
    · rw [Lawful, waiting, thread]
      rfl
    · rw [openWait_append]
      exact waiting
  | none =>
    rw [thread] at waiting
    refine ⟨waiting, h.unheard (fun _ => rfl) ?_ ?_⟩
    · rw [openWait_append]
      rfl
    · intro wait hwait
      cases hwait
      exact Nat.le_refl _

/-- The thread sleeps as long as it has rounds left, and then reports a failure. -/
theorem Recorded.round {past : List Seen} {s : TransactionSubmitter} (h : Recorded past s) :
    Lawful past (s.seen jsonCpp typeErrorText .round) ∧
      Recorded (past ++ [s.seen jsonCpp typeErrorText .round])
        (s.next jsonCpp typeErrorText .round) := by
  have waiting := h.waiting
  rw [TransactionSubmitter.seen, TransactionSubmitter.next, TransactionSubmitter.perform]
  cases thread : s.waitThread with
  | none =>
    rw [thread] at waiting
    refine ⟨waiting, h.unheard (fun _ => rfl) ?_ h.few⟩
    rw [openWait_append]
    exact h.waiting
  | some wait =>
    obtain ⟨txHash, left⟩ := wait
    have few : left ≤ waitRounds := h.few _ thread
    rw [thread, Option.map_some] at waiting
    dsimp only at waiting ⊢
    cases left with
    | zero =>
      refine ⟨⟨txHash, waiting, rfl⟩, h.unheard (fun _ => rfl) ?_ ?_⟩
      · rw [openWait_append]
        rfl
      · intro wait none
        cases none
    | succ left =>
      rw [h.waitRound_succ]
      refine ⟨⟨txHash, _, waiting, by omega⟩, h.unheard (fun _ => rfl) ?_ ?_⟩
      · rw [openWait_append, waiting]
        change some (txHash, waitRounds - (left + 1) + 1) = some (txHash, waitRounds - left)
        congr 2
        omega
      · intro wait hwait
        cases hwait
        exact Nat.le_of_succ_le few

theorem Recorded.step (past : List Seen) (s : TransactionSubmitter) (move : Move)
    (h : Recorded past s) :
    Lawful past (TransactionSubmitter.seen jsonCpp typeErrorText s move) ∧
      Recorded (past ++ [TransactionSubmitter.seen jsonCpp typeErrorText s move])
        (TransactionSubmitter.next jsonCpp typeErrorText s move) := by
  cases move with
  | submit tx exchange => exact h.submit tx exchange
  | getSubmissionStatus txHash => exact h.getSubmissionStatus txHash
  | waitForInclusion txHash => exact h.waitForInclusion txHash
  | round => exact h.round

end Steps

/-! ## Every history -/

end MidnightSdk.Signing
