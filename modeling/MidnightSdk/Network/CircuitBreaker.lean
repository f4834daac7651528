import Mathlib.Data.List.DropRight
import MidnightSdk.Library.Runs

/-!
# The circuit breaker

Two counters and the time of the last failure. Which of them count depends on the state:
what they mean is said of the calls that were made, not of the counters.
-/

namespace MidnightSdk.Network

inductive CircuitBreaker.State where
  | closed
  | open'
  | halfOpen
  deriving DecidableEq, Repr

structure CircuitBreaker.Config where
  failure_threshold : UInt32
  success_threshold : UInt32
  open_duration_ms : UInt32
  deriving DecidableEq, Repr

/-- The breaker without its configuration; a time is a count of nanoseconds. -/
structure CircuitBreaker where
  state_ : CircuitBreaker.State
  consecutive_failures_ : UInt32
  consecutive_successes_ : UInt32
  last_failure_time_ : Int
  deriving DecidableEq, Repr

namespace CircuitBreaker

variable (config : Config)

def new : CircuitBreaker :=
  { state_ := .closed, consecutive_failures_ := 0, consecutive_successes_ := 0,
    last_failure_time_ := 0 }

/-- `std::chrono::milliseconds(config_.open_duration_ms)`, counted like the clock. -/
def Config.openDuration : Int := config.open_duration_ms.toNat * 1000000

/-- The answer, and the breaker afterwards. -/
def isRequestAllowed (now : Int) (breaker : CircuitBreaker) : Bool × CircuitBreaker :=
  match breaker.state_ with
  | .closed => (true, breaker)
  | .open' =>
    if config.openDuration ≤ now - breaker.last_failure_time_ then
      (true, { breaker with state_ := .halfOpen, consecutive_successes_ := 0 })
    else (false, breaker)
  | .halfOpen => (true, breaker)

def recordSuccess (breaker : CircuitBreaker) : CircuitBreaker :=
  match breaker.state_ with
  | .halfOpen =>
    let successes := breaker.consecutive_successes_ + 1
    if config.success_threshold ≤ successes then
      { breaker with state_ := .closed, consecutive_failures_ := 0, consecutive_successes_ := 0 }
    else { breaker with consecutive_successes_ := successes }
  | .closed => { breaker with consecutive_failures_ := 0 }
  | .open' => breaker

def recordFailure (now : Int) (breaker : CircuitBreaker) : CircuitBreaker :=
  let failures := breaker.consecutive_failures_ + 1
  let breaker := { breaker with consecutive_failures_ := failures, last_failure_time_ := now }
  match breaker.state_ with
  | .halfOpen => { breaker with state_ := .open', consecutive_successes_ := 0 }
  | .closed =>
    if config.failure_threshold ≤ failures then { breaker with state_ := .open' } else breaker
  | .open' => breaker

/-! ## What was called -/

inductive Call where
  | isRequestAllowed
  | recordSuccess
  | recordFailure
  deriving DecidableEq, Repr

/-- A call, and the clock while it runs. -/
structure TimedCall where
  call : Call
  now : Int
  deriving DecidableEq, Repr

def step (breaker : CircuitBreaker) (c : TimedCall) : CircuitBreaker :=
  match c.call with
  | .isRequestAllowed => (isRequestAllowed config c.now breaker).2
  | .recordSuccess => recordSuccess config breaker
  | .recordFailure => recordFailure config c.now breaker

/-- What can be seen of a call. -/
structure Record extends TimedCall where
  before : State
  after : State
  allowed : Bool
  deriving DecidableEq, Repr

/-- Only `is_request_allowed` can allow something. -/
def record (breaker : CircuitBreaker) (c : TimedCall) : Record :=
  { c with
    before := breaker.state_
    after := (step config breaker c).state_
    allowed := c.call = .isRequestAllowed && (isRequestAllowed config c.now breaker).1 }

/-- All calls to a new breaker, in order. -/
def history (calls : List TimedCall) : List Record :=
  Runs.log (step config) (record config) new calls

namespace Record

/-- A failure recorded in the closed state. -/
def failsClosed (r : Record) : Bool := r.call = .recordFailure && r.before = .closed

def closes (r : Record) : Bool := r.before ≠ .closed && r.after = .closed

/-- A success, or a closing. -/
def restarts (r : Record) : Bool := r.call = .recordSuccess || r.closes

end Record

/-- The failures in the closed state since the last success or closing. -/
def closedFailures (past : List Record) : Nat :=
  (past.rtakeWhile fun r => !r.restarts).countP Record.failsClosed

/-- The time of the last recorded failure. -/
def lastFailure (past : List Record) : Option Int :=
  (past.filter fun r => r.call = .recordFailure).getLast?.map fun r => r.now

/-- The last calls are those since the half-open state was entered, and it was not left. -/
def HalfOpenPeriod (past period : List Record) : Prop :=
  ∃ (earlier : List Record) (entering : Record), past = earlier ++ entering :: period ∧
    entering.before ≠ .halfOpen ∧ entering.after = .halfOpen ∧
    ∀ r ∈ period, r.before = .halfOpen ∧ r.after = .halfOpen

def successes (period : List Record) : Nat := period.countP fun r => r.call = .recordSuccess

/-- What a call may do after those before it. -/
structure Lawful (past : List Record) (r : Record) : Prop where
  opens : r.before = .closed → (r.after = .open' ↔
    r.call = .recordFailure ∧ closedFailures past + 1 = config.failure_threshold.toNat)
  refuses : r.before = .open' → ∃ failed, lastFailure past = some failed ∧
    (r.allowed = true ↔ r.call = .isRequestAllowed ∧ failed + config.openDuration ≤ r.now) ∧
    (r.after = .open' ∨ r.after = .halfOpen ∧ r.allowed = true)
  closes : r.before ≠ .closed → r.after = .closed → r.call = .recordSuccess ∧
    ∃ period, HalfOpenPeriod past period ∧ (∀ s ∈ period, s.call ≠ .recordFailure) ∧
      successes period + 1 = config.success_threshold.toNat

/-! ## One more call -/

theorem closedFailures_concat (past : List Record) (r : Record) :
    closedFailures (past ++ [r]) =
      if r.restarts then 0 else closedFailures past + if r.failsClosed then 1 else 0 := by
  rw [closedFailures, List.rtakeWhile_concat]
  by_cases h : r.restarts = true
  · simp [h]
  · rw [Bool.not_eq_true] at h
    simp [h, closedFailures, List.countP_singleton]

theorem lastFailure_concat (past : List Record) (r : Record) :
    lastFailure (past ++ [r]) =
      if r.call = .recordFailure then some r.now else lastFailure past := by
  rw [lastFailure, List.filter_append]
  by_cases h : r.call = .recordFailure
  · simp [h]
  · simp [h, lastFailure]

theorem HalfOpenPeriod.enter (past : List Record) {r : Record} (hbefore : r.before ≠ .halfOpen)
    (hafter : r.after = .halfOpen) : HalfOpenPeriod (past ++ [r]) [] :=
  ⟨past, r, rfl, hbefore, hafter, by simp⟩

theorem HalfOpenPeriod.concat {past period : List Record} (h : HalfOpenPeriod past period)
    {r : Record} (hbefore : r.before = .halfOpen) (hafter : r.after = .halfOpen) :
    HalfOpenPeriod (past ++ [r]) (period ++ [r]) := by
  obtain ⟨earlier, entering, rfl, entered, open', stays⟩ := h
  refine ⟨earlier, entering, by simp, entered, open', ?_⟩
  intro s hs
  rcases List.mem_append.mp hs with hs | hs
  · exact stays s hs
  · rw [List.mem_singleton.mp hs]
    exact ⟨hbefore, hafter⟩

theorem toNat_add_one {a b : UInt32} (h : a.toNat < b.toNat) : (a + 1).toNat = a.toNat + 1 := by
  have hb := b.toNat_lt
  rw [UInt32.toNat_add]
  exact Nat.mod_eq_of_lt (by change a.toNat + 1 < _; omega)

/-- What the fields mean after some calls. In the other states a counter is left as it was. -/
structure Reached (past : List Record) (breaker : CircuitBreaker) : Prop where
  closed : breaker.state_ = .closed →
    breaker.consecutive_failures_.toNat = closedFailures past ∧
      closedFailures past < config.failure_threshold.toNat
  halfOpen : breaker.state_ = .halfOpen →
    breaker.consecutive_successes_.toNat < config.success_threshold.toNat ∧
      ∃ period, HalfOpenPeriod past period ∧ (∀ r ∈ period, r.call ≠ .recordFailure) ∧
        successes period = breaker.consecutive_successes_.toNat
  failed : breaker.state_ ≠ .closed → lastFailure past = some breaker.last_failure_time_

variable {config}

theorem reached_new (hfailures : 1 ≤ config.failure_threshold) : Reached config [] new := by
  constructor
  · intro _
    exact ⟨rfl, hfailures⟩
  · intro h
    cases h
  · intro h
    exact absurd rfl h

section Step
variable {past : List Record} {failures others : UInt32} {failed : Int}

theorem reached_closed (hcount : failures.toNat = closedFailures past)
    (hbelow : closedFailures past < config.failure_threshold.toNat) :
    Reached config past ⟨.closed, failures, others, failed⟩ := by
  constructor
  · intro _
    exact ⟨hcount, hbelow⟩
  · intro h
    cases h
  · intro h
    exact absurd rfl h

theorem reached_open (h : lastFailure past = some failed) :
    Reached config past ⟨.open', failures, others, failed⟩ := by
  constructor
  · intro h
    cases h
  · intro h
    cases h
  · intro _
    exact h

theorem reached_halfOpen {period : List Record}
    (hbelow : others.toNat < config.success_threshold.toNat)
    (hperiod : HalfOpenPeriod past period) (hnone : ∀ r ∈ period, r.call ≠ .recordFailure)
    (hcount : successes period = others.toNat) (h : lastFailure past = some failed) :
    Reached config past ⟨.halfOpen, failures, others, failed⟩ := by
  constructor
  · intro h
    cases h
  · intro _
    exact ⟨hbelow, period, hperiod, hnone, hcount⟩
  · intro _
    exact h

theorem lawful_of_closed {r : Record} (hbefore : r.before = .closed)
    (h : r.after = .open' ↔
      r.call = .recordFailure ∧ closedFailures past + 1 = config.failure_threshold.toNat) :
    Lawful config past r := by
  constructor
  · intro _
    exact h
  · intro other
    rw [hbefore] at other
    cases other
  · intro other
    exact absurd hbefore other

theorem lawful_of_open {r : Record} (hbefore : r.before = .open')
    (hafter : r.after = .open' ∨ r.after = .halfOpen ∧ r.allowed = true)
    (hfailed : lastFailure past = some failed)
    (h : r.allowed = true ↔ r.call = .isRequestAllowed ∧ failed + config.openDuration ≤ r.now) :
    Lawful config past r := by
  constructor
  · intro other
    rw [hbefore] at other
    cases other
  · intro _
    exact ⟨failed, hfailed, h, hafter⟩
  · intro _ closed
    rw [closed] at hafter
    rcases hafter with other | ⟨other, -⟩ <;> cases other

theorem lawful_of_halfOpen {r : Record} (hbefore : r.before = .halfOpen)
    (h : r.after = .closed → r.call = .recordSuccess ∧
      ∃ period, HalfOpenPeriod past period ∧ (∀ s ∈ period, s.call ≠ .recordFailure) ∧
        successes period + 1 = config.success_threshold.toNat) :
    Lawful config past r := by
  constructor
  · intro other
    rw [hbefore] at other
    cases other
  · intro other
    rw [hbefore] at other
    cases other
  · intro _
    exact h

variable (config past) in
/-- One more call is lawful, and the fields still mean what they meant. -/
def Keeps (breaker : CircuitBreaker) (c : TimedCall) : Prop :=
  Lawful config past (record config breaker c) ∧
    Reached config (past ++ [record config breaker c]) (step config breaker c)

/-- The closed state is left by the failure that makes the count the threshold. -/
theorem keeps_closed_failure (now : Int)
    (h : Reached config past ⟨.closed, failures, others, failed⟩) :
    Keeps config past ⟨.closed, failures, others, failed⟩ ⟨.recordFailure, now⟩ := by
  obtain ⟨count, below⟩ := h.closed rfl
  change failures.toNat = closedFailures past at count
  have one : (failures + 1).toNat = closedFailures past + 1 := by
    rw [toNat_add_one (by rwa [count] : failures.toNat < config.failure_threshold.toNat), count]
  have reaches : config.failure_threshold ≤ failures + 1 ↔
      closedFailures past + 1 = config.failure_threshold.toNat := by
    rw [UInt32.le_iff_toNat_le, one]
    omega
  by_cases threshold : config.failure_threshold ≤ failures + 1
  · have stepped : step config ⟨.closed, failures, others, failed⟩ ⟨.recordFailure, now⟩ =
        ⟨.open', failures + 1, others, now⟩ := if_pos threshold
    rw [Keeps, record, stepped]
    refine ⟨lawful_of_closed rfl (iff_of_true rfl ⟨rfl, reaches.mp threshold⟩), ?_⟩
    apply reached_open
    rw [lastFailure_concat, if_pos rfl]
  · have stepped : step config ⟨.closed, failures, others, failed⟩ ⟨.recordFailure, now⟩ =
        ⟨.closed, failures + 1, others, now⟩ := if_neg threshold
    have under : closedFailures past + 1 < config.failure_threshold.toNat := by
      have short := mt reaches.mpr threshold
      omega
    rw [Keeps, record, stepped]
    constructor
    · apply lawful_of_closed rfl
      refine iff_of_false (by simp) ?_
      rintro ⟨-, reached⟩
      exact threshold (reaches.mpr reached)
    · apply reached_closed
      · rw [closedFailures_concat]
        exact one
      · rw [closedFailures_concat]
        exact under

theorem keeps_closed (c : TimedCall)
    (h : Reached config past ⟨.closed, failures, others, failed⟩) :
    Keeps config past ⟨.closed, failures, others, failed⟩ c := by
  obtain ⟨count, below⟩ := h.closed rfl
  obtain ⟨call, now⟩ := c
  cases call with
  | isRequestAllowed =>
    refine ⟨lawful_of_closed rfl (by simp [record, step, isRequestAllowed]), ?_⟩
    apply reached_closed
    · rw [closedFailures_concat]
      exact count
    · rw [closedFailures_concat]
      exact below
  | recordSuccess =>
    refine ⟨lawful_of_closed rfl (by simp [record, step, recordSuccess]), ?_⟩
    apply reached_closed
    · rw [closedFailures_concat]
      rfl
    · rw [closedFailures_concat]
      exact Nat.zero_lt_of_lt below
  | recordFailure => exact keeps_closed_failure now h

/-- The open state is left by the first request at its time. -/
theorem keeps_open (hsuccesses : 1 ≤ config.success_threshold) (c : TimedCall)
    (h : Reached config past ⟨.open', failures, others, failed⟩) :
    Keeps config past ⟨.open', failures, others, failed⟩ c := by
  have last : lastFailure past = some failed := h.failed (by simp)
  obtain ⟨call, now⟩ := c
  cases call with
  | isRequestAllowed =>
    by_cases elapsed : config.openDuration ≤ now - failed
    · have answered : isRequestAllowed config now ⟨.open', failures, others, failed⟩ =
          (true, ⟨.halfOpen, failures, 0, failed⟩) := if_pos elapsed
      simp only [Keeps, record, step, answered]
      constructor
      · apply lawful_of_open rfl (.inr ⟨rfl, rfl⟩) last
        exact iff_of_true rfl ⟨rfl, by change _ ≤ now; omega⟩
      · refine reached_halfOpen hsuccesses (HalfOpenPeriod.enter past (by simp) rfl) (by simp)
          rfl ?_
        rw [lastFailure_concat, if_neg (by simp)]
        exact last
    · have answered : isRequestAllowed config now ⟨.open', failures, others, failed⟩ =
          (false, ⟨.open', failures, others, failed⟩) := if_neg elapsed
      simp only [Keeps, record, step, answered]
      constructor
      · refine lawful_of_open rfl (.inl rfl) last (iff_of_false (by simp) ?_)
        rintro ⟨-, late⟩
        change _ ≤ now at late
        omega
      · apply reached_open
        rw [lastFailure_concat, if_neg (by simp)]
        exact last
  | recordSuccess =>
    constructor
    · exact lawful_of_open rfl (.inl rfl) last (by simp [record])
    · apply reached_open
      rw [lastFailure_concat, if_neg (by simp [record])]
      exact last
  | recordFailure =>
    constructor
    · exact lawful_of_open rfl (.inl rfl) last (by simp [record])
    · apply reached_open
      rw [lastFailure_concat]
      exact if_pos rfl

/-- A call that is no failure and does not leave the half-open state goes on with its period. -/
theorem Reached.goesOn (h : Reached config past ⟨.halfOpen, failures, others, failed⟩)
    {r : Record} {others' : UInt32} (hbefore : r.before = .halfOpen) (hafter : r.after = .halfOpen)
    (hcall : r.call ≠ .recordFailure) (hbelow : others'.toNat < config.success_threshold.toNat)
    (hcount : others'.toNat = others.toNat + if r.call = .recordSuccess then 1 else 0) :
    Reached config (past ++ [r]) ⟨.halfOpen, failures, others', failed⟩ := by
  obtain ⟨-, period, open', none, count⟩ := h.halfOpen rfl
  change _ = others.toNat at count
  refine reached_halfOpen hbelow (open'.concat hbefore hafter) ?_ ?_ ?_
  · intro s hs
    rcases List.mem_append.mp hs with hs | hs
    · exact none s hs
    · rwa [List.mem_singleton.mp hs]
  · rw [successes, List.countP_append, List.countP_singleton, hcount, ← count, successes]
    simp
  · rw [lastFailure_concat, if_neg hcall]
    exact h.failed (by simp)

/-- The half-open state is closed by the success that makes the count the threshold. -/
theorem keeps_halfOpen_success (now : Int) (hfailures : 1 ≤ config.failure_threshold)
    (h : Reached config past ⟨.halfOpen, failures, others, failed⟩) :
    Keeps config past ⟨.halfOpen, failures, others, failed⟩ ⟨.recordSuccess, now⟩ := by
  obtain ⟨below, period, open', none, count⟩ := h.halfOpen rfl
  change _ = others.toNat at count
  have one : (others + 1).toNat = others.toNat + 1 := toNat_add_one below
  have reaches : config.success_threshold ≤ others + 1 ↔
      others.toNat + 1 = config.success_threshold.toNat := by
    change others.toNat < _ at below
    rw [UInt32.le_iff_toNat_le, one]
    omega
  by_cases threshold : config.success_threshold ≤ others + 1
  · have stepped : step config ⟨.halfOpen, failures, others, failed⟩ ⟨.recordSuccess, now⟩ =
        ⟨.closed, 0, 0, failed⟩ := if_pos threshold
    rw [Keeps, record, stepped]
    constructor
    · apply lawful_of_halfOpen rfl
      intro _
      exact ⟨rfl, period, open', none, by rw [count]; exact reaches.mp threshold⟩
    · apply reached_closed
      · rw [closedFailures_concat]
        rfl
      · rw [closedFailures_concat]
        exact hfailures
  · have stepped : step config ⟨.halfOpen, failures, others, failed⟩ ⟨.recordSuccess, now⟩ =
        ⟨.halfOpen, failures, others + 1, failed⟩ := if_neg threshold
    have under : (others + 1).toNat < config.success_threshold.toNat := by
      have short := mt reaches.mpr threshold
      change others.toNat < _ at below
      omega
    rw [Keeps, record, stepped]
    exact ⟨lawful_of_halfOpen rfl (by simp), h.goesOn rfl rfl (by simp) under one⟩

theorem keeps_halfOpen (hfailures : 1 ≤ config.failure_threshold) (c : TimedCall)
    (h : Reached config past ⟨.halfOpen, failures, others, failed⟩) :
    Keeps config past ⟨.halfOpen, failures, others, failed⟩ c := by
  obtain ⟨call, now⟩ := c
  cases call with
  | isRequestAllowed =>
    constructor
    · exact lawful_of_halfOpen rfl (by simp [record, step, isRequestAllowed])
    · exact h.goesOn rfl rfl (by simp [record]) (h.halfOpen rfl).1 rfl
  | recordSuccess => exact keeps_halfOpen_success now hfailures h
  | recordFailure =>
    constructor
    · exact lawful_of_halfOpen rfl (by simp [record, step, recordFailure])
    · apply reached_open
      rw [lastFailure_concat]
      exact if_pos rfl

theorem keeps (hfailures : 1 ≤ config.failure_threshold) (hsuccesses : 1 ≤ config.success_threshold)
    (past : List Record) (breaker : CircuitBreaker) (c : TimedCall)
    (h : Reached config past breaker) : Keeps config past breaker c := by
  obtain ⟨state, failures, others, failed⟩ := breaker
  cases state with
  | closed => exact keeps_closed c h
  | open' => exact keeps_open hsuccesses c h
  | halfOpen => exact keeps_halfOpen hfailures c h

end Step

/-- **The breaker keeps its law** in every call of every sequence, whatever its times: it opens
exactly at the failure that completes the threshold in the closed state, answers no request
before its time, and closes only after enough successes of one half-open period. -/
theorem history_lawful (hfailures : 1 ≤ config.failure_threshold)
    (hsuccesses : 1 ≤ config.success_threshold) {calls : List TimedCall} {past rest : List Record}
    {r : Record} (h : history config calls = past ++ r :: rest) : Lawful config past r :=
  Runs.log_law (keeps hfailures hsuccesses) (reached_new hfailures) h

/-- Two failures open it, behind its time a request is let through, and one success closes it. -/
def cycle : List TimedCall :=
  [⟨.recordFailure, 0⟩, ⟨.recordFailure, 500000⟩, ⟨.isRequestAllowed, 1500000⟩,
    ⟨.recordSuccess, 2000000⟩]

theorem history_lawful_cycle : Lawful ⟨2, 1, 1⟩ (history ⟨2, 1, 1⟩ (cycle.take 3))
    ⟨⟨.recordSuccess, 2000000⟩, .halfOpen, .closed, false⟩ :=
  @history_lawful ⟨2, 1, 1⟩ (by decide) (by decide) cycle _ [] _ (by decide)

end CircuitBreaker

end MidnightSdk.Network
