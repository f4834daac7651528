import MidnightSdk.Library.Actions
import MidnightSdk.Library.Json
import MidnightSdk.Network.CircuitBreaker

/-!
# Calls of a Substrate node

A call is posted again until an answer can be used or its retries are used up. The breaker hears
of a call once, however often it was posted.
-/

namespace MidnightSdk.Network

open Cpp Interaction

structure RuntimeVersion where
  specName : String := ""
  implName : String := ""
  specVersion : UInt32 := 0
  implVersion : UInt32 := 0
  txVersion : UInt32 := 0
  authoringVersion : UInt32 := 0
  deriving DecidableEq, Repr

/-- The limiter and the delays between posts are left out: they only take time. -/
structure SubstrateRpc where
  requestId : UInt32 := 1
  cachedRuntimeVersion : Option RuntimeVersion := none
  cachedGenesisHash : Option String := none
  circuitBreaker : CircuitBreaker := .new
  deriving DecidableEq, Repr

namespace SubstrateRpc

/-- Of `retry_config_`; nothing sets it. -/
def maxRetries : Nat := 3

def breakerConfig : CircuitBreaker.Config := ⟨5, 2, 30000⟩

inductive Question where
  | now
  | post (request : Json)

abbrev Answer : Question → Type
  | .now => Int
  | .post _ => Throws Json

abbrev Act (α : Type) : Type := Action Question Answer SubstrateRpc Exception α

def now : Act Int := Action.ask (A := Answer) .now

def post (request : Json) : Act (Throws Json) := Action.ask (A := Answer) (.post request)

def request (method : String) (params : Json) (id : UInt32) : Json :=
  .object [("id", .unsigned id.toUInt64), ("jsonrpc", .string "2.0"), ("method", .string method),
    ("params", params)]

/-- The value of a response, or what is thrown over it. -/
def readResponse (response : Json) : Throws Json :=
  let result : Throws Json :=
    match response.find? "result" with
    | some result => .ok result
    | none => .error (.runtimeError "Invalid RPC response: missing 'result' field")
  match response.find? "error" with
  | some error =>
    if error.isNull then result
    else do
      let msg ← error.valueString "message" "Unknown RPC error"
      let code ← error.valueInt32 "code" 0
      throw (.runtimeError ("RPC error [" ++ toString code.toInt ++ "]: " ++ msg))
  | none => result

/-- What one post comes to. -/
def taken (answer : Throws Json) : Throws Json := answer >>= readResponse

/-- The clock is read only where the time matters. -/
def isRequestAllowed : Act Bool := do
  let rpc ← Action.get
  let time ← if rpc.circuitBreaker.state_ = .open' then now else pure 0
  let (allowed, breaker) := CircuitBreaker.isRequestAllowed breakerConfig time rpc.circuitBreaker
  Action.modify fun rpc => { rpc with circuitBreaker := breaker }
  return allowed

/-- One post. A success is recorded where the loop is left. -/
def attempt (method : String) (params : Json) : Act (Throws Json) := do
  let rpc ← Action.get
  Action.modify fun rpc => { rpc with requestId := rpc.requestId + 1 }
  let answer ← post (request method params rpc.requestId)
  Action.modify fun rpc =>
    { rpc with
      circuitBreaker :=
        if (taken answer).isOk then CircuitBreaker.recordSuccess breakerConfig rpc.circuitBreaker
        else rpc.circuitBreaker }
  return taken answer

/-- The loop, with so many retries left. -/
def tryLoop (method : String) (params : Json) : Nat → Act Json
  | 0 => do Action.ofExcept (← attempt method params)
  | left + 1 => do
    match ← attempt method params with
    | .ok result => return result
    | .error _ => tryLoop method params left

def recordFailure : Act Unit := do
  let time ← now
  Action.modify fun rpc =>
    { rpc with circuitBreaker := CircuitBreaker.recordFailure breakerConfig time rpc.circuitBreaker }

def refusal (method : String) : Exception :=
  .runtimeError ("Substrate RPC circuit breaker is open for method: " ++ method)

def rpcCall (method : String) (params : Json) : Act Json := do
  if ← isRequestAllowed then
    (tryLoop method params maxRetries).catching fun e => do
      recordFailure
      Action.throw e
  else Action.throw (refusal method)

/-- Calls one after the other, whether they throw or not. -/
def rpcCalls : List (String × Json) → Act (List (Throws Json))
  | [] => pure []
  | (method, params) :: calls => do
    let result ← (rpcCall method params).settled
    let results ← rpcCalls calls
    return result :: results

/-! ## What a call does -/

abbrev Seen : Type := List (Event Answer)

/-- The posts of one call, with the answers to them. -/
def postsOf (method : String) (params : Json) : UInt32 → List (Throws Json) → Seen
  | _, [] => []
  | id, answer :: answers =>
    ⟨.post (request method params id), answer⟩ :: postsOf method params (id + 1) answers

/-- All answers but the last failed; the call gives up only after its last retry. -/
structure Tried (left : Nat) (answers : List (Throws Json)) (result : Throws Json) : Prop where
  few : answers.length ≤ left + 1
  last : ∃ failed final, answers = failed ++ [final] ∧ result = taken final ∧
    ∀ answer ∈ failed, (taken answer).isOk = false
  givesUp : result.isOk = false → answers.length = left + 1

/-- The client after some posts, which have failed but perhaps for the last. -/
def after (rpc : SubstrateRpc) (posts : Nat) (result : Throws Json) : SubstrateRpc :=
  { rpc with
    requestId := rpc.requestId + UInt32.ofNat posts
    circuitBreaker :=
      if result.isOk then CircuitBreaker.recordSuccess breakerConfig rpc.circuitBreaker
      else rpc.circuitBreaker }

variable {method : String} {params : Json} {s t : SubstrateRpc} {seen : Seen} {result : Throws Json}

theorem ran_attempt {got : Except Exception (Throws Json)}
    (h : Ran (attempt method params) s seen got t) :
    ∃ answer, seen = [⟨.post (request method params s.requestId), answer⟩] ∧
      got = .ok (taken answer) ∧ t = s.after 1 (taken answer) := by
  obtain ⟨answer, rest, rfl, hrest⟩ := ran_ask_bind (ran_modify_bind (ran_get_bind h))
  have hend := ran_modify_bind hrest
  obtain ⟨rfl, rfl, rfl⟩ := ran_pure hend
  exact ⟨answer, rfl, rfl, rfl⟩

theorem isOk_false_of_error {e : Exception} : (Except.error e : Throws Json).isOk = false := rfl

theorem after_after (posts : Nat) {r : Throws Json} (h : r.isOk = false) (result : Throws Json) :
    (s.after 1 r).after posts result = s.after (posts + 1) result := by
  simp only [after, h, Bool.false_eq_true, if_false]
  congr 1
  rw [UInt32.add_assoc, ← UInt32.ofNat_add, Nat.add_comm]

/-- Induction is on the retries left. -/
theorem ran_tryLoop {left : Nat} (h : Ran (tryLoop method params left) s seen result t) :
    ∃ answers, seen = postsOf method params s.requestId answers ∧ Tried left answers result ∧
      t = s.after answers.length result := by
  induction left generalizing s seen with
  | zero =>
    rcases ran_bind h with ⟨e, h, -⟩ | ⟨_, mid, before, rest, rfl, h, hrest⟩
    · obtain ⟨_, -, ok, -⟩ := ran_attempt h
      cases ok
    obtain ⟨answer, rfl, ok, rfl⟩ := ran_attempt h
    cases ok
    obtain ⟨rfl, rfl, rfl⟩ := ran_ofExcept hrest
    refine ⟨[answer], rfl, ⟨Nat.le_refl 1, ⟨[], answer, rfl, rfl, by simp⟩, fun _ => rfl⟩, rfl⟩
  | succ left ih =>
    rcases ran_bind h with ⟨e, h, -⟩ | ⟨_, mid, before, rest, rfl, h, hrest⟩
    · obtain ⟨_, -, ok, -⟩ := ran_attempt h
      cases ok
    obtain ⟨answer, rfl, ok, rfl⟩ := ran_attempt h
    cases ok
    generalize hread : taken answer = r at hrest
    cases r with
    | ok got =>
      obtain ⟨rfl, rfl, rfl⟩ := ran_pure hrest
      refine ⟨[answer], rfl, ⟨Nat.succ_le_succ (Nat.zero_le _),
        ⟨[], answer, rfl, hread.symm, by simp⟩, nofun⟩, rfl⟩
    | error e =>
      obtain ⟨answers, rfl, tried, rfl⟩ := ih hrest
      obtain ⟨few, ⟨failed, final, rfl, hfinal, hfailed⟩, givesUp⟩ := tried
      refine ⟨answer :: (failed ++ [final]), rfl, ⟨by simpa using few,
        ⟨answer :: failed, final, rfl, hfinal, ?_⟩, ?_⟩, ?_⟩
      · rw [List.forall_mem_cons, hread]
        exact ⟨rfl, hfailed⟩
      · intro hbad
        rw [List.length_cons, givesUp hbad]
      · rw [after_after _ rfl, List.length_cons]

/-- The reading of the clock before the breaker answers. -/
def asking (rpc : SubstrateRpc) (time : Int) : Seen :=
  if rpc.circuitBreaker.state_ = .open' then [⟨.now, time⟩] else []

def allows (rpc : SubstrateRpc) (time : Int) : Bool :=
  (CircuitBreaker.isRequestAllowed breakerConfig time rpc.circuitBreaker).1

def asked (rpc : SubstrateRpc) (time : Int) : SubstrateRpc :=
  { rpc with
    circuitBreaker := (CircuitBreaker.isRequestAllowed breakerConfig time rpc.circuitBreaker).2 }

def failing (rpc : SubstrateRpc) (time : Int) : SubstrateRpc :=
  { rpc with circuitBreaker := CircuitBreaker.recordFailure breakerConfig time rpc.circuitBreaker }

theorem ran_isRequestAllowed {got : Except Exception Bool} (h : Ran isRequestAllowed s seen got t) :
    ∃ time, seen = s.asking time ∧ got = .ok (s.allows time) ∧ t = s.asked time := by
  have hnext := ran_get_bind h
  by_cases hopen : s.circuitBreaker.state_ = .open'
  · rw [if_pos hopen] at hnext
    obtain ⟨time, rest, rfl, hrest⟩ := ran_ask_bind hnext
    have hend := ran_modify_bind hrest
    obtain ⟨rfl, rfl, rfl⟩ := ran_pure hend
    exact ⟨time, by rw [asking, if_pos hopen], rfl, rfl⟩
  · rw [if_neg hopen] at hnext
    have hend := ran_modify_bind (ran_pure_bind hnext)
    obtain ⟨rfl, rfl, rfl⟩ := ran_pure hend
    exact ⟨0, by rw [asking, if_neg hopen], rfl, rfl⟩

theorem ran_recordFailure {got : Except Exception Unit} (h : Ran recordFailure s seen got t) :
    ∃ time, seen = [⟨.now, time⟩] ∧ got = .ok () ∧ t = s.failing time := by
  obtain ⟨time, rest, rfl, hrest⟩ := ran_ask_bind h
  obtain ⟨rfl, rfl, rfl⟩ := ran_modify hrest
  exact ⟨time, rfl, rfl, rfl⟩

/-- All that a call can do. -/
inductive Made (method : String) (params : Json) (s : SubstrateRpc) :
    Seen → Throws Json → SubstrateRpc → Prop
  | refused (time : Int) (no : s.allows time = false) :
      Made method params s (s.asking time) (.error (refusal method)) (s.asked time)
  | served (time : Int) (yes : s.allows time = true) (answers : List (Throws Json)) (result : Json)
      (tried : Tried maxRetries answers (.ok result)) :
      Made method params s (s.asking time ++ postsOf method params s.requestId answers)
        (.ok result) ((s.asked time).after answers.length (.ok result))
  | failed (time : Int) (yes : s.allows time = true) (answers : List (Throws Json)) (e : Exception)
      (tried : Tried maxRetries answers (.error e)) (ended : Int) :
      Made method params s
        (s.asking time ++ postsOf method params s.requestId answers ++ [⟨.now, ended⟩])
        (.error e) (((s.asked time).after answers.length (.error e)).failing ended)

theorem ran_rpcCall (h : Ran (rpcCall method params) s seen result t) :
    Made method params s seen result t := by
  rcases ran_bind h with ⟨e, h, -⟩ | ⟨allowed, mid, before, rest, rfl, h, hrest⟩
  · obtain ⟨_, -, ok, -⟩ := ran_isRequestAllowed h
    cases ok
  obtain ⟨time, rfl, ok, rfl⟩ := ran_isRequestAllowed h
  cases ok
  cases hallowed : s.allows time with
  | false =>
    rw [hallowed] at hrest
    obtain ⟨rfl, rfl, rfl⟩ := ran_throw hrest
    rw [List.append_nil]
    exact .refused time hallowed
  | true =>
    rw [hallowed] at hrest
    rcases ran_catching hrest with ⟨got, hloop, rfl⟩ | ⟨e, mid, before, last, rfl, hloop, hrecord⟩
    · obtain ⟨answers, rfl, tried, rfl⟩ := ran_tryLoop hloop
      exact .served time hallowed answers got tried
    · obtain ⟨answers, rfl, tried, rfl⟩ := ran_tryLoop hloop
      rcases ran_bind hrecord with ⟨e', h, -⟩ | ⟨_, mid, before, rest, rfl, h, hthrow⟩
      · obtain ⟨_, -, ok, -⟩ := ran_recordFailure h
        cases ok
      obtain ⟨ended, rfl, -, rfl⟩ := ran_recordFailure h
      obtain ⟨rfl, rfl, rfl⟩ := ran_throw hthrow
      rw [List.append_nil, ← List.append_assoc]
      exact .failed time hallowed answers e tried ended

theorem ran_rpcCalls_cons {calls : List (String × Json)} {got : Throws (List (Throws Json))}
    (h : Ran (rpcCalls ((method, params) :: calls)) s seen got t) :
    ∃ result mid before after rest, seen = before ++ after ∧
      Made method params s before result mid ∧ Ran (rpcCalls calls) mid after rest t ∧
      got = rest.map (result :: ·) := by
  obtain ⟨result, mid, before, after, rfl, hcall, hrest⟩ := ran_settled_bind h
  rcases ran_bind hrest with ⟨e, hcalls, rfl⟩ | ⟨results, last, first, done, rfl, hcalls, hend⟩
  · exact ⟨result, mid, before, after, .error e, rfl, ran_rpcCall hcall, hcalls, rfl⟩
  · obtain ⟨rfl, rfl, rfl⟩ := ran_pure hend
    rw [List.append_nil]
    exact ⟨result, mid, before, first, .ok results, rfl, ran_rpcCall hcall, hcalls, rfl⟩

end SubstrateRpc

end MidnightSdk.Network
