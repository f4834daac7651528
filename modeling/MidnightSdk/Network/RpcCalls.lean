import MidnightSdk.Network.SubstrateRpc

/-!
# What the calls of a client post

The run of a client, split into its calls: each is refused, or posts until an answer can be used
or its retries are used up. All requests of a client are numbered in one row.
-/

namespace MidnightSdk.Network.SubstrateRpc

open Cpp Interaction

/-- What is seen of a call. -/
structure Record where
  method : String
  params : Json
  asked : Option Int
  answers : List (Throws Json)
  result : Throws Json
  ended : Option Int

namespace Record

def reading : Option Int → Seen
  | some time => [⟨.now, time⟩]
  | none => []

def seen (r : Record) (id : UInt32) : Seen :=
  reading r.asked ++ postsOf r.method r.params id r.answers ++ reading r.ended

/-- All that is seen of some calls, whose requests are numbered from here on. -/
def transcript : UInt32 → List Record → Seen
  | _, [] => []
  | id, r :: rs => r.seen id ++ transcript (id + UInt32.ofNat r.answers.length) rs

/-- The end of the last call that failed after its posts. -/
def lastFailure (past : List Record) : Option Int := (past.filterMap fun r => r.ended).getLast?

/-- The breaker refuses a call for at most its time after a failure; every other call posts, and
has the result of its last post. -/
inductive Lawful (past : List Record) (r : Record) : Prop
  | refused (time failed : Int) (asked : r.asked = some time) (last : lastFailure past = some failed)
      (early : time < failed + breakerConfig.openDuration) (silent : r.answers = [])
      (result : r.result = .error (refusal r.method)) (unrecorded : r.ended = none)
  | posted (tried : Tried maxRetries r.answers r.result)
      (recorded : r.ended.isSome = !r.result.isOk)

theorem lastFailure_concat (past : List Record) (r : Record) :
    lastFailure (past ++ [r]) = r.ended.or (lastFailure past) := by
  rw [lastFailure, List.filterMap_append, lastFailure]
  cases h : r.ended with
  | none => simp [h]
  | some time => simp [h]

theorem transcript_cons (id : UInt32) (r : Record) (rs : List Record) :
    transcript id (r :: rs) =
      r.seen id ++ transcript (id + UInt32.ofNat r.answers.length) rs := rfl

end Record

open Record

/-! ## One call more -/

/-- While the breaker is not closed it holds the time of the last failure. -/
def Remembers (past : List Record) (rpc : SubstrateRpc) : Prop :=
  rpc.circuitBreaker.state_ ≠ .closed →
    lastFailure past = some rpc.circuitBreaker.last_failure_time_

variable {past : List Record} {s t : SubstrateRpc} {method : String} {params : Json}
  {seen : Seen} {result : Throws Json}

/-- Only the open breaker refuses, before its time, and it stays as it is. -/
theorem isRequestAllowed_refuses {time : Int} {breaker : CircuitBreaker}
    (h : (CircuitBreaker.isRequestAllowed breakerConfig time breaker).1 = false) :
    breaker.state_ = .open' ∧ time < breaker.last_failure_time_ + breakerConfig.openDuration ∧
      (CircuitBreaker.isRequestAllowed breakerConfig time breaker).2 = breaker := by
  obtain ⟨state, failures, successes, failed⟩ := breaker
  cases state with
  | closed => cases h
  | halfOpen => cases h
  | open' =>
    by_cases elapsed : breakerConfig.openDuration ≤ time - failed
    · have answered : CircuitBreaker.isRequestAllowed breakerConfig time
          ⟨.open', failures, successes, failed⟩ = (true, ⟨.halfOpen, failures, 0, failed⟩) :=
        if_pos elapsed
      rw [answered] at h
      cases h
    · have answered : CircuitBreaker.isRequestAllowed breakerConfig time
          ⟨.open', failures, successes, failed⟩ = (false, ⟨.open', failures, successes, failed⟩) :=
        if_neg elapsed
      refine ⟨rfl, ?_, by rw [answered]⟩
      change time < failed + breakerConfig.openDuration
      omega

theorem asked_of_refused {time : Int} (no : s.allows time = false) : s.asked time = s := by
  obtain ⟨-, -, same⟩ := isRequestAllowed_refuses no
  rw [SubstrateRpc.asked, same]

theorem isRequestAllowed_keeps (time : Int) (breaker : CircuitBreaker) :
    let answered := (CircuitBreaker.isRequestAllowed breakerConfig time breaker).2
    answered.last_failure_time_ = breaker.last_failure_time_ ∧
      (breaker.state_ = .closed → answered.state_ = .closed) := by
  obtain ⟨state, failures, successes, failed⟩ := breaker
  cases state with
  | closed => exact ⟨rfl, id⟩
  | halfOpen => exact ⟨rfl, id⟩
  | open' =>
    simp only [CircuitBreaker.isRequestAllowed]
    split
    · exact ⟨rfl, fun closed => by cases closed⟩
    · exact ⟨rfl, id⟩

theorem recordSuccess_keeps (breaker : CircuitBreaker) :
    let recorded := CircuitBreaker.recordSuccess breakerConfig breaker
    recorded.last_failure_time_ = breaker.last_failure_time_ ∧
      (breaker.state_ = .closed → recorded.state_ = .closed) := by
  obtain ⟨state, failures, successes, failed⟩ := breaker
  cases state with
  | closed => exact ⟨rfl, id⟩
  | open' => exact ⟨rfl, id⟩
  | halfOpen =>
    simp only [CircuitBreaker.recordSuccess]
    split
    · exact ⟨rfl, fun closed => by cases closed⟩
    · exact ⟨rfl, fun closed => by cases closed⟩

theorem Remembers.keep (h : Remembers past s)
    (keeps : t.circuitBreaker.last_failure_time_ = s.circuitBreaker.last_failure_time_ ∧
      (s.circuitBreaker.state_ = .closed → t.circuitBreaker.state_ = .closed)) :
    Remembers past t := by
  intro hne
  rw [keeps.1]
  exact h (mt keeps.2 hne)

theorem Remembers.asked (h : Remembers past s) (time : Int) : Remembers past (s.asked time) :=
  h.keep (isRequestAllowed_keeps time s.circuitBreaker)

theorem Remembers.after (h : Remembers past s) (posts : Nat) (result : Throws Json) :
    Remembers past (s.after posts result) := by
  apply h.keep
  unfold SubstrateRpc.after
  cases result.isOk with
  | false => exact ⟨rfl, id⟩
  | true => exact recordSuccess_keeps s.circuitBreaker

/-- A call that did not end with a failure. -/
theorem Remembers.unrecorded {r : Record} (h : Remembers past s) (hr : r.ended = none) :
    Remembers (past ++ [r]) s := by
  intro hne
  rw [lastFailure_concat, hr]
  exact h hne

theorem Remembers.failing {r : Record} {ended : Int} (hr : r.ended = some ended) :
    Remembers (past ++ [r]) (s.failing ended) := by
  intro _
  rw [lastFailure_concat, hr]
  obtain ⟨_, _, _, ⟨state, failures, successes, failed⟩⟩ := s
  cases state with
  | closed =>
    simp only [SubstrateRpc.failing, CircuitBreaker.recordFailure]
    split <;> rfl
  | open' => rfl
  | halfOpen => rfl

/-- The reading before a call, if there was one. -/
def askedAt (rpc : SubstrateRpc) (time : Int) : Option Int :=
  if rpc.circuitBreaker.state_ = .open' then some time else none

theorem reading_askedAt (rpc : SubstrateRpc) (time : Int) :
    reading (rpc.askedAt time) = rpc.asking time := by
  unfold askedAt asking
  split <;> rfl

theorem Made.record (within : Remembers past s) (h : Made method params s seen result t) :
    ∃ r : Record, r.method = method ∧ r.params = params ∧ r.result = result ∧
      seen = r.seen s.requestId ∧ Lawful past r ∧ Remembers (past ++ [r]) t ∧
      t.requestId = s.requestId + UInt32.ofNat r.answers.length := by
  cases h with
  | refused time no =>
    obtain ⟨hopen, early, -⟩ := isRequestAllowed_refuses no
    let r : Record := ⟨method, params, some time, [], .error (refusal method), none⟩
    refine ⟨r, rfl, rfl, rfl, ?_, ?_, ?_, ?_⟩
    · rw [asking, if_pos hopen]
      rfl
    · exact .refused time _ rfl (within (fun closed => by rw [hopen] at closed; cases closed)) early rfl rfl rfl
    · exact (within.asked time).unrecorded rfl
    · exact (UInt32.add_zero _).symm
  | served time yes answers result tried =>
    let r : Record := ⟨method, params, s.askedAt time, answers, .ok result, none⟩
    refine ⟨r, rfl, rfl, rfl, ?_, .posted tried rfl, ?_, rfl⟩
    · rw [Record.seen, reading_askedAt]
      exact (List.append_nil _).symm
    · exact ((within.asked time).after _ _).unrecorded rfl
  | failed time yes answers e tried ended =>
    let r : Record := ⟨method, params, s.askedAt time, answers, .error e, some ended⟩
    refine ⟨r, rfl, rfl, rfl, ?_, .posted tried rfl, Remembers.failing rfl, rfl⟩
    rw [Record.seen, reading_askedAt]
    rfl

/-! ## All calls -/

theorem ran_rpcCalls {calls : List (String × Json)} {got : Throws (List (Throws Json))}
    (within : Remembers past s) (h : Ran (rpcCalls calls) s seen got t) :
    ∃ records : List Record, records.map (fun r => (r.method, r.params)) = calls ∧
      got = .ok (records.map fun r => r.result) ∧ seen = transcript s.requestId records ∧
      (∀ front r back, records = front ++ r :: back → Lawful (past ++ front) r) ∧
      Remembers (past ++ records) t := by
  induction calls generalizing past s seen got t with
  | nil =>
    obtain ⟨rfl, rfl, rfl⟩ := ran_pure h
    refine ⟨[], rfl, rfl, rfl, by simp, ?_⟩
    rwa [List.append_nil]
  | cons call calls ih =>
    obtain ⟨method, params⟩ := call
    obtain ⟨result, mid, before, after, rest, rfl, hcall, hcalls, rfl⟩ := ran_rpcCalls_cons h
    obtain ⟨r, rfl, rfl, rfl, rfl, lawful, remembers, next⟩ := hcall.record within
    obtain ⟨records, rfl, rfl, rfl, hlawful, hend⟩ := ih remembers hcalls
    refine ⟨r :: records, rfl, rfl, ?_, ?_, ?_⟩
    · rw [transcript_cons, next]
    · intro front r' back hsplit
      cases front with
      | nil =>
        obtain ⟨rfl, -⟩ := List.cons.inj hsplit
        rwa [List.append_nil]
      | cons first front =>
        obtain ⟨rfl, hback⟩ := List.cons.inj hsplit
        have later := hlawful front r' back hback
        rwa [List.append_assoc] at later
    · rwa [List.append_assoc] at hend

/-- **The calls of a client.** Whatever the node answers, the run splits into the calls: the posts
of all of them are numbered in one row, a call is refused only within the breaker's time after a
failure, and every other call posts at most four times, up to the first answer it can use. -/
theorem rpcCalls_lawful {calls : List (String × Json)} {got : Throws (List (Throws Json))}
    (h : Ran (rpcCalls calls) {} seen got t) :
    ∃ records : List Record, records.map (fun r => (r.method, r.params)) = calls ∧
      got = .ok (records.map fun r => r.result) ∧ seen = transcript 1 records ∧
      ∀ front r back, records = front ++ r :: back → Lawful front r := by
  have fresh : Remembers [] {} := fun hne => absurd rfl hne
  obtain ⟨records, hcalls, hgot, hseen, lawful, -⟩ := ran_rpcCalls fresh h
  exact ⟨records, hcalls, hgot, hseen, lawful⟩

def chainName : String × Json := ("system_chain", .array [])

/-- The first post is not answered, the second is. -/
def answeredAgain : Seen :=
  [⟨.post (request "system_chain" (.array []) 1), .error (.runtimeError "HTTP request failed")⟩,
    ⟨.post (request "system_chain" (.array []) 2), .ok (.object [("result", .string "testnet")])⟩]

theorem rpcCalls_lawful_answeredAgain :
    ∃ records : List Record, records.map (fun r => (r.method, r.params)) = [chainName] ∧
      (.ok [.ok (.string "testnet")] : Throws (List (Throws Json))) =
        .ok (records.map fun r => r.result) ∧
      answeredAgain = transcript 1 records ∧
      ∀ front r back, records = front ++ r :: back → Lawful front r := by
  have h : Ran (rpcCalls [chainName]) {} answeredAgain (.ok [.ok (.string "testnet")])
      { requestId := 3 } := .ask (.ask (.done _))
  exact rpcCalls_lawful h

end MidnightSdk.Network.SubstrateRpc
