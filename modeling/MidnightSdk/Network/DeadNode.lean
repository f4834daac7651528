import MidnightSdk.Network.RpcCalls

/-!
# A node that answers nothing

Every call that is let through posts its requests and fails. The breaker bounds how many calls are
let through: some until it opens, and then one for each time it waits.
-/

namespace MidnightSdk.Network.SubstrateRpc

open Cpp Interaction Record

/-- What the clock read, in order. -/
def readings (seen : Seen) : List Int :=
  seen.filterMap fun
    | ⟨.now, time⟩ => some time
    | ⟨.post _, _⟩ => none

/-- The answers to all posts, in order. -/
def answersIn (seen : Seen) : List (Throws Json) :=
  seen.filterMap fun
    | ⟨.now, _⟩ => none
    | ⟨.post _, answer⟩ => some answer

@[simp] theorem readings_append (a b : Seen) : readings (a ++ b) = readings a ++ readings b :=
  List.filterMap_append

@[simp] theorem answersIn_append (a b : Seen) : answersIn (a ++ b) = answersIn a ++ answersIn b :=
  List.filterMap_append

variable {method : String} {params : Json} {s t : SubstrateRpc} {seen : Seen}
  {result : Throws Json}

@[simp] theorem readings_postsOf (id : UInt32) (answers : List (Throws Json)) :
    readings (postsOf method params id answers) = [] := by
  induction answers generalizing id with
  | nil => rfl
  | cons answer answers ih => exact ih (id + 1)

@[simp] theorem answersIn_postsOf (id : UInt32) (answers : List (Throws Json)) :
    answersIn (postsOf method params id answers) = answers := by
  induction answers generalizing id with
  | nil => rfl
  | cons answer answers ih => exact congrArg (answer :: ·) (ih (id + 1))

@[simp] theorem readings_now (time : Int) : readings [⟨.now, time⟩] = [time] := rfl

@[simp] theorem answersIn_now (time : Int) : answersIn [⟨.now, time⟩] = [] := rfl

theorem readings_asking (hopen : s.circuitBreaker.state_ = .open') (time : Int) :
    readings (s.asking time) = [time] := by
  rw [asking, if_pos hopen, readings_now]

@[simp] theorem answersIn_asking (time : Int) : answersIn (s.asking time) = [] := by
  unfold asking
  split <;> rfl

theorem Tried.dead {left : Nat} {answers : List (Throws Json)} (h : Tried left answers result)
    (dead : ∀ answer ∈ answers, (taken answer).isOk = false) : answers.length = left + 1 := by
  obtain ⟨few, ⟨failed, final, rfl, hresult, -⟩, givesUp⟩ := h
  apply givesUp
  rw [hresult]
  exact dead final (List.mem_append_right _ (List.mem_singleton_self final))

/-- The time from an opening to the next call that is let through. -/
def wait : Int := breakerConfig.openDuration

/-- How far the calls let through from here on may outrun the clock: each costs one wait. -/
def budget (rpc : SubstrateRpc) (since : Int) : Int :=
  match rpc.circuitBreaker.state_ with
  | .closed => (5 - rpc.circuitBreaker.consecutive_failures_.toNat) * wait - since
  | .halfOpen => wait - since
  | .open' => min (-rpc.circuitBreaker.last_failure_time_) (wait - since)

/-- A counter that counts has not reached the threshold. -/
def Below (rpc : SubstrateRpc) : Prop :=
  rpc.circuitBreaker.state_ = .closed → rpc.circuitBreaker.consecutive_failures_.toNat < 5

theorem Below.asked (h : s.Below) (time : Int) : (s.asked time).Below := by
  obtain ⟨_, _, _, ⟨state, failures, successes, failed⟩⟩ := s
  cases state with
  | closed => exact h
  | halfOpen => exact h
  | open' =>
    intro closed
    simp only [SubstrateRpc.asked, CircuitBreaker.isRequestAllowed] at closed
    split at closed
    · cases closed
    · cases closed

theorem Below.after (h : s.Below) (posts : Nat) (result : Throws Json) :
    (s.after posts result).Below := by
  unfold SubstrateRpc.after
  cases result.isOk with
  | false => exact h
  | true =>
    obtain ⟨_, _, _, ⟨state, failures, successes, failed⟩⟩ := s
    cases state with
    | open' => exact h
    | closed =>
      intro _
      exact Nat.succ_pos 4
    | halfOpen =>
      intro closed
      change (CircuitBreaker.recordSuccess breakerConfig ⟨.halfOpen, failures, successes, failed⟩).state_ = _
        at closed
      change (CircuitBreaker.recordSuccess breakerConfig
        ⟨.halfOpen, failures, successes, failed⟩).consecutive_failures_.toNat < 5
      unfold CircuitBreaker.recordSuccess at closed ⊢
      by_cases enough : breakerConfig.success_threshold ≤ successes + 1
      · simp [enough]
      · simp [enough] at closed

theorem Below.failing (h : s.Below) (ended : Int) : (s.failing ended).Below := by
  obtain ⟨_, _, _, ⟨state, failures, successes, failed⟩⟩ := s
  cases state with
  | open' => exact nofun
  | halfOpen => exact nofun
  | closed =>
    have below : failures.toNat < 5 := h rfl
    have one : (failures + 1).toNat = failures.toNat + 1 :=
      CircuitBreaker.toNat_add_one (b := 5) below
    by_cases threshold : breakerConfig.failure_threshold ≤ failures + 1
    · have opened : CircuitBreaker.recordFailure breakerConfig ended
          ⟨.closed, failures, successes, failed⟩ = ⟨.open', failures + 1, successes, ended⟩ :=
        if_pos threshold
      intro closed
      rw [SubstrateRpc.failing, opened] at closed
      cases closed
    · have stays : CircuitBreaker.recordFailure breakerConfig ended
          ⟨.closed, failures, successes, failed⟩ = ⟨.closed, failures + 1, successes, ended⟩ :=
        if_neg threshold
      intro _
      rw [SubstrateRpc.failing, stays]
      rw [UInt32.le_iff_toNat_le, one] at threshold
      change ¬ 5 ≤ _ at threshold
      change (failures + 1).toNat < 5
      omega

theorem Below.made (h : s.Below) (hcall : Made method params s seen result t) : t.Below := by
  cases hcall with
  | refused time no => exact h.asked time
  | served time yes answers result tried => exact (h.asked time).after _ _
  | failed time yes answers e tried ended => exact ((h.asked time).after _ _).failing ended

theorem below_rpcCalls {calls : List (String × Json)} {got : Throws (List (Throws Json))}
    (h : s.Below) (hcalls : Ran (rpcCalls calls) s seen got t) : t.Below := by
  induction calls generalizing s seen got t with
  | nil =>
    obtain ⟨-, -, rfl⟩ := ran_pure hcalls
    exact h
  | cons call calls ih =>
    obtain ⟨_, mid, _, _, _, rfl, hcall, hrest, -⟩ := ran_rpcCalls_cons hcalls
    exact ih (h.made hcall) hrest

/-- The counter has not reached the threshold, and no failure lies ahead. -/
structure Sane (rpc : SubstrateRpc) (since : Int) : Prop where
  below : rpc.Below
  past : rpc.circuitBreaker.state_ = .open' → rpc.circuitBreaker.last_failure_time_ ≤ since

theorem wait_pos : 0 < wait := by decide

theorem Sane.budget_nonneg {since last : Int} (h : s.Sane since) (hlast : since ≤ last) :
    0 ≤ s.budget since + last := by
  obtain ⟨_, _, _, ⟨state, failures, successes, failed⟩⟩ := s
  have positive := wait_pos
  cases state with
  | closed =>
    have below : failures.toNat < 5 := h.below rfl
    have left : (0 : Int) ≤ (5 - (failures.toNat : Int)) * wait :=
      Int.mul_nonneg (by omega) (Int.le_of_lt positive)
    change 0 ≤ (5 - (failures.toNat : Int)) * wait - since + last
    omega
  | halfOpen =>
    change 0 ≤ wait - since + last
    omega
  | open' =>
    have past : failed ≤ since := h.past rfl
    change 0 ≤ min (-failed) (wait - since) + last
    omega

theorem budget_le (rpc : SubstrateRpc) (since : Int) : rpc.budget since ≤ 5 * wait - since := by
  obtain ⟨_, _, _, ⟨state, failures, successes, failed⟩⟩ := rpc
  have positive := wait_pos
  cases state with
  | closed =>
    have left : (5 - (failures.toNat : Int)) * wait ≤ 5 * wait :=
      Int.mul_le_mul_of_nonneg_right (by omega) (Int.le_of_lt positive)
    change (5 - (failures.toNat : Int)) * wait - since ≤ _
    omega
  | halfOpen =>
    change wait - since ≤ _
    omega
  | open' =>
    change min (-failed) (wait - since) ≤ _
    omega

theorem failing_time (ended : Int) :
    (s.failing ended).circuitBreaker.last_failure_time_ = ended := by
  obtain ⟨_, _, _, ⟨state, failures, successes, failed⟩⟩ := s
  cases state with
  | open' => rfl
  | halfOpen => rfl
  | closed =>
    simp only [SubstrateRpc.failing, CircuitBreaker.recordFailure]
    split <;> rfl

theorem budget_open {rpc : SubstrateRpc} {ended : Int} (hstate : rpc.circuitBreaker.state_ = .open')
    (htime : rpc.circuitBreaker.last_failure_time_ = ended) : rpc.budget ended = -ended := by
  have positive := wait_pos
  rw [budget, hstate, htime]
  change min (-ended) (wait - ended) = -ended
  omega

/-- A call that is let through and fails costs one wait. -/
theorem Sane.failing {since time ended : Int} (h : s.Sane since) (yes : s.allows time = true)
    (hasked : s.circuitBreaker.state_ = .open' → since ≤ time ∧ time ≤ ended)
    (hended : since ≤ ended) (posts : Nat) (e : Exception) {next : SubstrateRpc}
    (hnext : next = ((s.asked time).after posts (.error e)).failing ended) :
    next.Sane ended ∧ next.budget ended + wait ≤ s.budget since := by
  have htime : next.circuitBreaker.last_failure_time_ = ended := by rw [hnext, failing_time]
  have below : next.Below := by
    rw [hnext]
    exact ((h.below.asked time).after posts (.error e)).failing ended
  refine ⟨⟨below, fun _ => Int.le_of_eq htime⟩, ?_⟩
  obtain ⟨_, _, _, ⟨state, failures, successes, failed⟩⟩ := s
  cases state with
  | halfOpen =>
    have hstate : next.circuitBreaker.state_ = .open' := by rw [hnext]; rfl
    rw [budget_open hstate htime]
    change -ended + wait ≤ wait - since
    omega
  | open' =>
    obtain ⟨late, order⟩ := hasked rfl
    have elapsed : wait ≤ time - failed := by
      by_contra early
      have refused : CircuitBreaker.isRequestAllowed breakerConfig time
          ⟨.open', failures, successes, failed⟩ = (false, ⟨.open', failures, successes, failed⟩) :=
        if_neg early
      rw [allows, refused] at yes
      cases yes
    have answered : CircuitBreaker.isRequestAllowed breakerConfig time
        ⟨.open', failures, successes, failed⟩ = (true, ⟨.halfOpen, failures, 0, failed⟩) :=
      if_pos elapsed
    have hstate : next.circuitBreaker.state_ = .open' := by
      rw [hnext, SubstrateRpc.failing, after, SubstrateRpc.asked]
      simp only [answered]
      rfl
    rw [budget_open hstate htime]
    change -ended + wait ≤ min (-failed) (wait - since)
    omega
  | closed =>
    have under : failures.toNat < 5 := h.below rfl
    have one : (failures + 1).toNat = failures.toNat + 1 :=
      CircuitBreaker.toNat_add_one (b := 5) under
    have recorded : next.circuitBreaker = CircuitBreaker.recordFailure breakerConfig ended
        ⟨.closed, failures, successes, failed⟩ := by rw [hnext]; rfl
    by_cases threshold : breakerConfig.failure_threshold ≤ failures + 1
    · have opened : next.circuitBreaker = ⟨.open', failures + 1, successes, ended⟩ := by
        rw [recorded]
        exact if_pos threshold
      rw [budget_open (by rw [opened]) htime]
      change -ended + wait ≤ (5 - (failures.toNat : Int)) * wait - since
      have left : 1 * wait ≤ (5 - (failures.toNat : Int)) * wait :=
        Int.mul_le_mul_of_nonneg_right (by omega) (Int.le_of_lt wait_pos)
      omega
    · have stays : next.circuitBreaker = ⟨.closed, failures + 1, successes, ended⟩ := by
        rw [recorded]
        exact if_neg threshold
      rw [budget, stays]
      change (5 - ((failures + 1).toNat : Int)) * wait - ended + wait ≤
        (5 - (failures.toNat : Int)) * wait - since
      have split : (5 - ((failures + 1).toNat : Int)) * wait =
          (5 - (failures.toNat : Int)) * wait - wait := by
        rw [one]
        push_cast
        rw [← Int.sub_sub, Int.sub_mul, Int.one_mul]
      omega

theorem Sane.later {since later : Int} (h : s.Sane since) (horder : since ≤ later) :
    s.Sane later :=
  ⟨h.below, fun hopen => Int.le_trans (h.past hopen) horder⟩

/-- While every answer fails, the calls let through wait for each other. -/
theorem posts_within_budget {calls : List (String × Json)} {got : Throws (List (Throws Json))}
    (h : Ran (rpcCalls calls) s seen got t) {since last : Int} (sane : s.Sane since)
    (hlast : since ≤ last) (clock : (readings seen).Pairwise (· ≤ ·))
    (within : ∀ time ∈ readings seen, since ≤ time ∧ time ≤ last)
    (dead : ∀ answer ∈ answersIn seen, (taken answer).isOk = false) :
    ∃ n : Nat, (answersIn seen).length = (maxRetries + 1) * n ∧
      n * wait ≤ s.budget since + last := by
  induction calls generalizing s seen since got t with
  | nil =>
    obtain ⟨rfl, -, -⟩ := ran_pure h
    refine ⟨0, rfl, ?_⟩
    have nonneg := sane.budget_nonneg hlast
    omega
  | cons call calls ih =>
    obtain ⟨result, mid, before, after, rest, rfl, hcall, hcalls, -⟩ := ran_rpcCalls_cons h
    rw [readings_append] at clock within
    rw [answersIn_append] at dead ⊢
    obtain ⟨-, clock', ordered⟩ := List.pairwise_append.mp clock
    have within' : ∀ time ∈ readings after, since ≤ time ∧ time ≤ last :=
      fun time hmem => within time (List.mem_append_right _ hmem)
    have dead' : ∀ answer ∈ answersIn after, (taken answer).isOk = false :=
      fun answer hmem => dead answer (List.mem_append_right _ hmem)
    cases hcall with
    | refused time no =>
      rw [asked_of_refused no] at hcalls
      obtain ⟨n, hn, hwait⟩ := ih hcalls sane hlast clock' within' dead'
      refine ⟨n, ?_, hwait⟩
      rw [answersIn_asking]
      exact hn
    | served time yes answers result tried =>
      obtain ⟨-, ⟨failed, final, rfl, hresult, -⟩, -⟩ := tried
      have bad := dead final (by simp)
      rw [← hresult] at bad
      cases bad
    | failed time yes answers e tried ended =>
      have hended : since ≤ ended ∧ ended ≤ last := within ended (by simp)
      have hposts : answers.length = maxRetries + 1 := tried.dead fun answer hmem =>
        dead answer (by simp [hmem])
      have hasked : s.circuitBreaker.state_ = .open' → since ≤ time ∧ time ≤ ended := by
        intro hopen
        rw [List.append_assoc, readings_append, readings_asking hopen] at clock within
        obtain ⟨first, -⟩ := List.pairwise_cons.mp (List.pairwise_append.mp clock).1
        exact ⟨(within time (by simp)).1, first ended (by simp)⟩
      obtain ⟨sane', cost⟩ := sane.failing yes hasked hended.1 answers.length e rfl
      have later : ∀ time ∈ readings after, ended ≤ time ∧ time ≤ last := by
        intro time hmem
        exact ⟨ordered ended (by simp) time hmem, (within' time hmem).2⟩
      obtain ⟨n, hn, hwait⟩ := ih hcalls sane' hended.2 clock' later dead'
      refine ⟨n + 1, ?_, ?_⟩
      · simp only [answersIn_append, answersIn_asking, answersIn_postsOf, answersIn_now,
          List.nil_append, List.append_nil, List.length_append, hposts, hn]
        rw [Nat.mul_add, Nat.mul_one, Nat.add_comm]
      · push_cast
        rw [Int.add_mul, Int.one_mul]
        omega

theorem mem_readings_of_lastFailure {records : List Record} {time : Int}
    (h : lastFailure records = some time) (id : UInt32) :
    time ∈ readings (transcript id records) := by
  obtain ⟨r, hr, hended⟩ := List.mem_filterMap.mp (List.mem_of_getLast? h)
  clear h
  induction records generalizing id with
  | nil => cases hr
  | cons first records ih =>
    rw [transcript_cons, readings_append, List.mem_append]
    rcases List.mem_cons.mp hr with rfl | hr
    · left
      rw [Record.seen, hended, readings_append, List.mem_append]
      exact .inr (List.mem_singleton_self time)
    · exact .inr (ih _ hr)

/-- **The load on a node that answers nothing.** From any state a client reaches, as long as every
post fails, it posts at most four requests for each of five calls, and four more for each time
the breaker waits. -/
theorem dead_node_posts {earlier calls : List (String × Json)} {seen₀ : Seen}
    {got₀ got : Throws (List (Throws Json))} (before : Ran (rpcCalls earlier) {} seen₀ got₀ s)
    (h : Ran (rpcCalls calls) s seen got t) {first last : Int} (horder : first ≤ last)
    (past : ∀ time ∈ readings seen₀, time ≤ first) (clock : (readings seen).Pairwise (· ≤ ·))
    (within : ∀ time ∈ readings seen, first ≤ time ∧ time ≤ last)
    (dead : ∀ answer ∈ answersIn seen, (taken answer).isOk = false) :
    (answersIn seen).length ≤ 4 * (5 + ((last - first) / wait).toNat) := by
  have sane : s.Sane first := by
    have fresh : Remembers [] {} := fun hne => absurd rfl hne
    obtain ⟨records, -, -, rfl, -, remembers⟩ := ran_rpcCalls fresh before
    refine ⟨below_rpcCalls (fun _ => by decide) before, ?_⟩
    intro hopen
    have known := remembers (by rw [hopen]; nofun)
    exact past _ (mem_readings_of_lastFailure known _)
  obtain ⟨n, hn, hwait⟩ := posts_within_budget h sane horder clock within dead
  have most := s.budget_le first
  have calls : (n : Int) - 5 ≤ (last - first) / wait := by
    apply Int.le_ediv_of_mul_le wait_pos
    rw [Int.sub_mul]
    omega
  rw [hn, maxRetries]
  omega

def unanswered (id : UInt32) : Event Answer :=
  ⟨.post (request "system_chain" (.array []) id), .error (.runtimeError "HTTP request failed")⟩

/-- One call of a new client: four posts, and the time of the failure. -/
def oneDeadCall : Seen :=
  [unanswered 1, unanswered 2, unanswered 3, unanswered 4, ⟨.now, 12⟩]

theorem dead_node_posts_oneDeadCall :
    (answersIn oneDeadCall).length ≤ 4 * (5 + ((100 - 0) / wait).toNat) := by
  have before : Ran (rpcCalls []) {} [] (.ok []) ({} : SubstrateRpc) := .done _
  have h : Ran (rpcCalls [chainName]) {} oneDeadCall
      (.ok [.error (.runtimeError "HTTP request failed")])
      { requestId := 5, circuitBreaker := ⟨.closed, 1, 0, 12⟩ } :=
    .ask (.ask (.ask (.ask (.ask (.done _)))))
  apply dead_node_posts before h (by decide)
  · exact nofun
  · exact List.pairwise_singleton _ _
  · intro time hmem
    rw [List.mem_singleton.mp hmem]
    decide
  · intro answer hmem
    have failed : answer = .error (.runtimeError "HTTP request failed") := by
      simpa [oneDeadCall, answersIn, unanswered] using hmem
    rw [failed]
    rfl

end MidnightSdk.Network.SubstrateRpc
