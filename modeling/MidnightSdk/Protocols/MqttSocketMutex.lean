import Mathlib.Logic.Function.Basic
import MidnightSdk.Library.Runs

/-!
# The socket mutex

`connect`, `disconnect`, `send_packet` and the end of the reader all lock one mutex
that is not recursive, and the first two call functions that lock it again. Each
thread stands at a place of its function; a lock is taken only when nobody has it.
-/

namespace MidnightSdk.Protocols.Mqtt.SocketMutex

open Runs

inductive ConnectionState where
  | DISCONNECTED | CONNECTING | CONNECTED | DISCONNECTING | FAILED
  deriving DecidableEq, Repr

/-- Where a calling thread stands. `inConnect` tells the `disconnect` that `connect` calls
itself; the last two places are those of every other `send_packet`. -/
inductive Caller where
  | idle
  | connectLock
  | connectCheck
  | connectSocket
  | connectResolve
  | connectTcp
  | connectSendLock
  | connectSend
  | connectStart
  | connectWait
  | connectReturn
  | disconnectLock (inConnect : Bool)
  | disconnectCheck (inConnect : Bool)
  | disconnectSendLock (inConnect : Bool)
  | disconnectSend (inConnect : Bool)
  | disconnectClose (inConnect : Bool)
  | disconnectJoin (inConnect : Bool)
  | disconnectCleanup (inConnect : Bool)
  | sendLock
  | sendHeld
  deriving DecidableEq, Repr

/-- The next step is to lock the mutex. -/
def Caller.wantsLock : Caller → Bool
  | .connectLock | .connectSendLock | .disconnectLock _ | .disconnectSendLock _ | .sendLock => true
  | _ => false

/-- Between a lock and its release, as far as a call gets without a TCP connection. -/
def Caller.holds : Caller → Bool
  | .connectCheck | .connectSocket | .connectResolve | .connectTcp | .disconnectCheck _
  | .disconnectClose _ | .disconnectJoin _ | .disconnectCleanup _ | .sendHeld => true
  | _ => false

/-- How many more steps a call takes at most where no TCP connection is made; none are known
for the places behind one. -/
def Caller.stepsLeft : Caller → Option Nat
  | .idle => some 0
  | .connectLock => some 5
  | .connectCheck => some 4
  | .connectSocket => some 3
  | .connectResolve => some 2
  | .connectTcp => some 1
  | .disconnectLock false => some 5
  | .disconnectCheck false => some 4
  | .disconnectClose false => some 3
  | .disconnectJoin false => some 2
  | .disconnectCleanup false => some 1
  | .sendLock => some 2
  | .sendHeld => some 1
  | _ => none

/-- Nearer to the end of the call. -/
def Caller.Nearer (next place : Caller) : Prop :=
  ∃ m n, next.stepsLeft = some n ∧ place.stepsLeft = some m ∧ n < m

/-- Where the reader stands; `absent` is a thread that cannot be joined. -/
inductive Reader where
  | absent
  | receive
  | sendLock
  | sendHeld
  | closeLock
  | closeHeld
  | cleanup
  | ended
  deriving DecidableEq, Repr

def Reader.wantsLock : Reader → Bool
  | .sendLock | .closeLock => true
  | _ => false

/-- The caller waits for the reader, and the reader has to lock the mutex first: to end, or
to get to the CONNACK. -/
def Caller.awaitsLocker : Caller → Reader → Bool
  | .disconnectJoin _, r => r = .receive || r.wantsLock
  | .connectWait, r => r.wantsLock
  | _, _ => false

theorem wantsLock_of_holds {c : Caller} (h : c.holds = true) : c.wantsLock = false := by
  cases c with
  | connectCheck | connectSocket | connectResolve | connectTcp | disconnectCheck | disconnectClose
  | disconnectJoin | disconnectCleanup | sendHeld => rfl
  | _ => cases h

theorem not_awaits_absent (c : Caller) : c.awaitsLocker .absent = false := by
  cases c <;> rfl

inductive Thread (ι : Type) where
  | caller (i : ι)
  | reader
  deriving DecidableEq, Repr

structure State (ι : Type) where
  owner : Option (Thread ι)
  state_ : ConnectionState
  sockOpen : Bool
  connected_ : Bool
  running_ : Bool
  closing_ : Bool
  callers : ι → Caller
  reader : Reader

inductive Call where
  | connect | disconnect | send
  deriving DecidableEq, Repr

/-- What the reader finds: CONNACK, a packet it answers, another one, or a failure. -/
inductive Found where
  | connack | answered | other | failure
  deriving DecidableEq, Repr

/-- A thread calls a function, goes on in it, or the reader goes on. `ok` is the result of the
network or of the wait at that place. -/
inductive Event (ι : Type) where
  | call (i : ι) (f : Call)
  | move (i : ι) (ok : Bool)
  | read (found : Found)
  deriving DecidableEq, Repr

variable {ι : Type} [DecidableEq ι]

namespace State

def fresh : State ι where
  owner := none
  state_ := .DISCONNECTED
  sockOpen := false
  connected_ := false
  running_ := false
  closing_ := false
  callers _ := .idle
  reader := .absent

variable (s : State ι)

def goTo (i : ι) (place : Caller) : State ι := { s with callers := Function.update s.callers i place }

/-- A lock is taken when nobody has it, and waited for otherwise. -/
def lock (i : ι) (place : Caller) : State ι :=
  if s.owner = none then { s.goTo i place with owner := some (.caller i) } else s

def unlock (i : ι) (place : Caller) : State ι := { s.goTo i place with owner := none }

/-- `connect` gives up: the socket is closed and the lock released. -/
def failConnect (i : ι) : State ι :=
  { s.unlock i .idle with state_ := .FAILED, sockOpen := false }

/-- Where the caller of `disconnect` goes on. -/
def afterDisconnect (inConnect : Bool) : Caller := if inConnect then .connectReturn else .idle

def call (i : ι) (f : Call) : State ι :=
  if s.callers i = .idle then
    match f with
    | .connect => s.goTo i .connectLock
    | .disconnect => s.goTo i (.disconnectLock false)
    | .send => s.goTo i .sendLock
  else s

/-- The next step of a calling thread. -/
def move (i : ι) (ok : Bool) : State ι :=
  match s.callers i with
  | .idle => s
  | .connectLock => s.lock i .connectCheck
  | .connectCheck =>
    if s.state_ = .CONNECTED ∨ s.state_ = .CONNECTING then s.unlock i .idle
    else { s.goTo i .connectSocket with state_ := .CONNECTING, connected_ := false }
  | .connectSocket =>
    if ok then { s.goTo i .connectResolve with sockOpen := true } else s.failConnect i
  | .connectResolve => if ok then s.goTo i .connectTcp else s.failConnect i
  | .connectTcp => if ok then s.goTo i .connectSendLock else s.failConnect i
  | .connectSendLock => s.lock i .connectSend
  | .connectSend =>
    if s.sockOpen && ok then s.unlock i .connectStart else s.failConnect i
  | .connectStart =>
    { s.goTo i .connectWait with running_ := true, closing_ := false, reader := .receive }
  | .connectWait =>
    if s.connected_ then { s.unlock i .idle with state_ := .CONNECTED }
    else if ok then s
    else { s.goTo i (.disconnectLock true) with state_ := .FAILED }
  | .connectReturn => s.unlock i .idle
  | .disconnectLock inConnect => s.lock i (.disconnectCheck inConnect)
  | .disconnectCheck inConnect =>
    if s.closing_ then s.unlock i (afterDisconnect inConnect)
    else if s.state_ = .CONNECTED then
      { s.goTo i (.disconnectSendLock inConnect) with closing_ := true }
    else { s.goTo i (.disconnectClose inConnect) with closing_ := true }
  | .disconnectSendLock inConnect => s.lock i (.disconnectSend inConnect)
  | .disconnectSend inConnect => s.unlock i (.disconnectClose inConnect)
  | .disconnectClose inConnect =>
    { s.goTo i (.disconnectJoin inConnect) with running_ := false, sockOpen := false }
  | .disconnectJoin inConnect =>
    match s.reader with
    | .absent => s.goTo i (.disconnectCleanup inConnect)
    | .ended => { s.goTo i (.disconnectCleanup inConnect) with reader := .absent }
    | _ => s
  | .disconnectCleanup inConnect =>
    { s.unlock i (afterDisconnect inConnect) with state_ := .DISCONNECTED }
  | .sendLock => s.lock i .sendHeld
  | .sendHeld => s.unlock i .idle

/-- The next step of the reader. -/
def read (found : Found) : State ι :=
  match s.reader with
  | .absent | .ended => s
  | .receive =>
    if s.running_ && !s.closing_ then
      match found with
      | .connack => { s with connected_ := true }
      | .answered => { s with reader := .sendLock }
      | .other => s
      | .failure => { s with reader := .closeLock }
    else { s with reader := .closeLock }
  | .sendLock => if s.owner = none then { s with reader := .sendHeld, owner := some .reader } else s
  | .sendHeld => { s with reader := .receive, owner := none }
  | .closeLock =>
    if s.owner = none then { s with reader := .closeHeld, owner := some .reader } else s
  | .closeHeld => { s with reader := .cleanup, owner := none, sockOpen := false }
  | .cleanup =>
    { s with
      reader := .ended
      state_ := if s.state_ = .CONNECTED then .DISCONNECTED else s.state_ }

def step : Event ι → State ι
  | .call i f => s.call i f
  | .move i ok => s.move i ok
  | .read found => s.read found

/-! ## What is claimed of a state -/

/-- The next step is to lock the mutex. -/
def WantsLock : Thread ι → Bool
  | .caller i => (s.callers i).wantsLock
  | .reader => s.reader.wantsLock

structure NeverStuck : Prop where
  noSecondLock : ∀ t, s.owner = some t → s.WantsLock t = false
  noWaitForLocker : ∀ i, s.owner = some (.caller i) → (s.callers i).awaitsLocker s.reader = false

/-- No attempt to get a TCP connection succeeds. -/
def Meets : Event ι → Prop
  | .move i ok => s.callers i = .connectTcp → ok = false
  | _ => True

/-- Whoever finds the mutex free, or has it, gets nearer to the end of its call. -/
def GetsOn : Prop :=
  ∀ i ok, s.callers i ≠ .idle → s.Meets (.move i ok) →
    s.owner = none ∨ s.owner = some (.caller i) →
    ((s.move i ok).callers i).Nearer (s.callers i)

/-! ## While no connection is made -/

structure Unconnected : Prop where
  places : ∀ i, (s.callers i).stepsLeft.isSome
  owner : ∀ t, s.owner = some t ↔ ∃ i, t = .caller i ∧ (s.callers i).holds = true
  reader : s.reader = .absent
  state : s.state_ ≠ .CONNECTED

variable {s} {t : State ι} {i : ι} {place : Caller}

omit [DecidableEq ι] in
theorem Unconnected.neverStuck (h : s.Unconnected) : s.NeverStuck := by
  constructor
  · intro t ht
    obtain ⟨i, rfl, hholds⟩ := (h.owner t).mp ht
    exact wantsLock_of_holds hholds
  · intro i _
    rw [h.reader]
    exact not_awaits_absent _

theorem Unconnected.places_update (h : s.Unconnected) (i : ι) (hleft : place.stepsLeft.isSome) :
    ∀ j, (Function.update s.callers i place j).stepsLeft.isSome :=
  (Function.forall_update_iff s.callers fun _ place => place.stepsLeft.isSome).mpr
    ⟨hleft, fun j _ => h.places j⟩

/-- A step that neither takes nor releases the mutex. -/
theorem Unconnected.goOn (h : s.Unconnected) (i : ι) (place : Caller)
    (hcallers : t.callers = Function.update s.callers i place)
    (hleft : place.stepsLeft.isSome) (hholds : place.holds = (s.callers i).holds)
    (howner : t.owner = s.owner) (hreader : t.reader = s.reader) (hstate : t.state_ ≠ .CONNECTED) :
    t.Unconnected := by
  have holds (j : ι) : (t.callers j).holds = (s.callers j).holds := by
    rw [hcallers]
    by_cases hj : j = i
    · subst hj
      rw [Function.update_self, hholds]
    · rw [Function.update_of_ne hj]
  refine ⟨?_, fun u => ?_, hreader.trans h.reader, hstate⟩
  · rw [hcallers]
    exact h.places_update i hleft
  · simp only [howner, h.owner, holds]

theorem Unconnected.takeLock (h : s.Unconnected) (hleft : place.stepsLeft.isSome)
    (hholds : place.holds = true) : (s.lock i place).Unconnected := by
  unfold lock
  split
  · rename_i hfree
    have nobody (j : ι) : (s.callers j).holds = false := by
      by_contra hj
      have howner := (h.owner (.caller j)).mpr ⟨j, rfl, (Bool.not_eq_false _).mp hj⟩
      rw [hfree] at howner
      cases howner
    refine ⟨h.places_update i hleft, fun u => ?_, h.reader, h.state⟩
    · simp only [goTo, Option.some.injEq]
      constructor
      · rintro rfl
        exact ⟨i, rfl, by rwa [Function.update_self]⟩
      · rintro ⟨j, rfl, hj⟩
        by_cases hji : j = i
        · rw [hji]
        · rw [Function.update_of_ne hji, nobody j] at hj
          cases hj
  · exact h

/-- The holder releases the mutex. -/
theorem Unconnected.letGo (h : s.Unconnected) (i : ι) (place : Caller)
    (hi : (s.callers i).holds = true)
    (hcallers : t.callers = Function.update s.callers i place)
    (hleft : place.stepsLeft.isSome) (hholds : place.holds = false) (howner : t.owner = none)
    (hreader : t.reader = s.reader) (hstate : t.state_ ≠ .CONNECTED) : t.Unconnected := by
  have holder := (h.owner (.caller i)).mpr ⟨i, rfl, hi⟩
  refine ⟨?_, fun u => ?_, hreader.trans h.reader, hstate⟩
  · rw [hcallers]
    exact h.places_update i hleft
  · rw [howner, hcallers]
    refine ⟨nofun, ?_⟩
    rintro ⟨j, rfl, hj⟩
    by_cases hji : j = i
    · rw [hji, Function.update_self, hholds] at hj
      cases hj
    · rw [Function.update_of_ne hji] at hj
      have other := (h.owner (.caller j)).mpr ⟨j, rfl, hj⟩
      rw [holder] at other
      exact absurd (Thread.caller.inj (Option.some.inj other)).symm hji

omit [DecidableEq ι] in
/-- No `disconnect` stands inside a `connect`. -/
theorem Unconnected.notInConnect (h : s.Unconnected) {inConnect : Bool}
    (hplace : s.callers i = .disconnectCheck inConnect ∨ s.callers i = .disconnectClose inConnect ∨
      s.callers i = .disconnectJoin inConnect ∨ s.callers i = .disconnectCleanup inConnect) :
    inConnect = false := by
  have left := h.places i
  rcases hplace with hc | hc | hc | hc <;> cases inConnect <;> rw [hc] at left <;>
    first | rfl | cases left

theorem Unconnected.move (h : s.Unconnected) (i : ι) {ok : Bool}
    (hmeets : s.callers i = .connectTcp → ok = false) : (s.move i ok).Unconnected := by
  have hplace := h.places i
  cases hcaller : s.callers i with
  | idle =>
    simp only [State.move, hcaller]
    exact h
  | connectLock =>
    simp only [State.move, hcaller]
    exact h.takeLock rfl rfl
  | connectCheck =>
    simp only [State.move, hcaller]
    split
    · exact h.letGo i .idle (by rw [hcaller]; rfl) rfl rfl rfl rfl rfl h.state
    · exact h.goOn i .connectSocket rfl rfl (by rw [hcaller]; rfl) rfl rfl nofun
  | connectSocket =>
    simp only [State.move, hcaller]
    split
    · exact h.goOn i .connectResolve rfl rfl (by rw [hcaller]; rfl) rfl rfl h.state
    · exact h.letGo i .idle (by rw [hcaller]; rfl) rfl rfl rfl rfl rfl nofun
  | connectResolve =>
    simp only [State.move, hcaller]
    split
    · exact h.goOn i .connectTcp rfl rfl (by rw [hcaller]; rfl) rfl rfl h.state
    · exact h.letGo i .idle (by rw [hcaller]; rfl) rfl rfl rfl rfl rfl nofun
  | connectTcp =>
    rw [hmeets hcaller]
    simp only [State.move, hcaller]
    exact h.letGo i .idle (by rw [hcaller]; rfl) rfl rfl rfl rfl rfl nofun
  | connectSendLock | connectSend | connectStart | connectWait | connectReturn | disconnectSendLock
  | disconnectSend =>
    rw [hcaller] at hplace
    cases hplace
  | disconnectLock inConnect =>
    cases inConnect with
    | true =>
      rw [hcaller] at hplace
      cases hplace
    | false =>
      simp only [State.move, hcaller]
      exact h.takeLock rfl rfl
  | disconnectCheck inConnect =>
    obtain rfl := h.notInConnect (Or.inl hcaller)
    simp only [State.move, hcaller, if_neg h.state]
    split
    · exact h.letGo i .idle (by rw [hcaller]; rfl) rfl rfl rfl rfl rfl h.state
    · exact h.goOn i (.disconnectClose false) rfl rfl (by rw [hcaller]; rfl) rfl rfl
        h.state
  | disconnectClose inConnect =>
    obtain rfl := h.notInConnect (Or.inr (Or.inl hcaller))
    simp only [State.move, hcaller]
    exact h.goOn i (.disconnectJoin false) rfl rfl (by rw [hcaller]; rfl) rfl rfl h.state
  | disconnectJoin inConnect =>
    obtain rfl := h.notInConnect (Or.inr (Or.inr (Or.inl hcaller)))
    simp only [State.move, hcaller, h.reader]
    exact h.goOn i (.disconnectCleanup false) rfl rfl (by rw [hcaller]; rfl) rfl rfl
      h.state
  | disconnectCleanup inConnect =>
    obtain rfl := h.notInConnect (Or.inr (Or.inr (Or.inr hcaller)))
    simp only [State.move, hcaller]
    exact h.letGo i .idle (by rw [hcaller]; rfl) rfl rfl rfl rfl rfl nofun
  | sendLock =>
    simp only [State.move, hcaller]
    exact h.takeLock rfl rfl
  | sendHeld =>
    simp only [State.move, hcaller]
    exact h.letGo i .idle (by rw [hcaller]; rfl) rfl rfl rfl rfl rfl h.state

theorem Unconnected.step (h : s.Unconnected) {e : Event ι} (hmeets : s.Meets e) :
    (s.step e).Unconnected := by
  cases e with
  | move i ok => exact h.move i hmeets
  | call i f =>
    simp only [State.step, call]
    split
    · rename_i hidle
      cases f with
      | connect =>
        exact h.goOn i .connectLock rfl rfl (by rw [hidle]; rfl) rfl rfl h.state
      | disconnect =>
        exact h.goOn i (.disconnectLock false) rfl rfl (by rw [hidle]; rfl) rfl rfl
          h.state
      | send => exact h.goOn i .sendLock rfl rfl (by rw [hidle]; rfl) rfl rfl h.state
    · exact h
  | read found =>
    simp only [State.step, read, h.reader]
    exact h

/-- A TCP connection leads `connect` to its second lock. -/
theorem Unconnected.meets_of_neverStuck (h : s.Unconnected) {e : Event ι}
    (hnext : (s.step e).NeverStuck) : s.Meets e := by
  cases e with
  | call | read => trivial
  | move i ok =>
    intro hcaller
    by_contra hok
    have holder := (h.owner (.caller i)).mpr ⟨i, rfl, by rw [hcaller]; rfl⟩
    have next := hnext.noSecondLock (.caller i)
    simp only [State.step, State.move, hcaller, if_pos ((Bool.not_eq_false _).mp hok), goTo, WantsLock,
      Function.update_self] at next
    exact absurd (next holder) (by decide)

omit [DecidableEq ι] in
theorem unconnected_fresh : (fresh : State ι).Unconnected where
  places _ := rfl
  owner _ := ⟨nofun, fun ⟨_, _, hholds⟩ => nomatch hholds⟩
  reader := rfl
  state := nofun

/-- The place behind a step has fewer steps left. -/
theorem Unconnected.move_nearer (h : s.Unconnected) {ok : Bool} (hcall : s.callers i ≠ .idle)
    (hmeets : s.callers i = .connectTcp → ok = false)
    (hfree : s.owner = none ∨ s.owner = some (.caller i)) :
    ((s.move i ok).callers i).Nearer (s.callers i) := by
  have hplace := h.places i
  have free (hnot : (s.callers i).holds = false) : s.owner = none := by
    refine hfree.resolve_right fun howner => ?_
    obtain ⟨j, hj, hholds⟩ := (h.owner (.caller i)).mp howner
    cases hj
    rw [hnot] at hholds
    cases hholds
  cases hcaller : s.callers i with
  | idle => exact absurd hcaller hcall
  | connectLock | sendLock =>
    have nobody := free (by rw [hcaller]; rfl)
    simp only [State.move, hcaller, lock, if_pos nobody, goTo, Function.update_self]
    exact ⟨_, _, rfl, rfl, by decide⟩
  | disconnectLock inConnect =>
    have nobody := free (by rw [hcaller]; rfl)
    cases inConnect with
    | true =>
      rw [hcaller] at hplace
      cases hplace
    | false =>
      simp only [State.move, hcaller, lock, if_pos nobody, goTo, Function.update_self]
      exact ⟨_, _, rfl, rfl, by decide⟩
  | connectCheck | connectSocket | connectResolve =>
    simp only [State.move, hcaller]
    split <;> simp only [failConnect, unlock, goTo, Function.update_self] <;>
      exact ⟨_, _, rfl, rfl, by decide⟩
  | connectTcp =>
    rw [hmeets hcaller]
    simp only [State.move, hcaller, Bool.false_eq_true, if_false, failConnect, unlock, goTo,
      Function.update_self]
    exact ⟨_, _, rfl, rfl, by decide⟩
  | disconnectCheck inConnect =>
    obtain rfl := h.notInConnect (Or.inl hcaller)
    simp only [State.move, hcaller, if_neg h.state]
    split <;> simp only [unlock, goTo, Function.update_self] <;> exact ⟨_, _, rfl, rfl, by decide⟩
  | disconnectClose inConnect =>
    obtain rfl := h.notInConnect (Or.inr (Or.inl hcaller))
    simp only [State.move, hcaller, goTo, Function.update_self]
    exact ⟨_, _, rfl, rfl, by decide⟩
  | disconnectJoin inConnect =>
    obtain rfl := h.notInConnect (Or.inr (Or.inr (Or.inl hcaller)))
    simp only [State.move, hcaller, h.reader, goTo, Function.update_self]
    exact ⟨_, _, rfl, rfl, by decide⟩
  | disconnectCleanup inConnect =>
    obtain rfl := h.notInConnect (Or.inr (Or.inr (Or.inr hcaller)))
    simp only [State.move, hcaller, unlock, goTo, Function.update_self]
    exact ⟨_, _, rfl, rfl, by decide⟩
  | sendHeld =>
    simp only [State.move, hcaller, unlock, goTo, Function.update_self]
    exact ⟨_, _, rfl, rfl, by decide⟩
  | connectSendLock | connectSend | connectStart | connectWait | connectReturn | disconnectSendLock
  | disconnectSend =>
    rw [hcaller] at hplace
    cases hplace

/-! ## Whole runs -/

theorem unconnected_of_everyStep {events : List (Event ι)} (h : EveryStep step Meets fresh events) :
    ∀ reached, reached <+: events → (run step (fresh : State ι) reached).Unconnected :=
  every_state (fun _ _ hs hmeets => hs.step hmeets) unconnected_fresh h

/-- **No thread is ever stuck at the mutex exactly when no attempt to get a TCP connection
succeeds**, and then every call that finds the mutex free, or has it, gets nearer to its end. -/
theorem neverStuck_iff {events : List (Event ι)} :
    ((∀ reached, reached <+: events → (run step fresh reached).NeverStuck) ↔
      EveryStep step Meets fresh events) ∧
    (EveryStep step Meets fresh events →
      ∀ reached, reached <+: events → (run step fresh reached).GetsOn) := by
  refine ⟨?_, ?_⟩
  · rw [@every_state_iff _ _ _ (fun s e => (s.step e).NeverStuck) NeverStuck
      (fun _ _ _ => Iff.rfl) _ _ unconnected_fresh.neverStuck]
    apply @every_step_iff _ _ _ _ Unconnected _ _ _ _ _ unconnected_fresh
    · intro s e hs
      exact ⟨hs.meets_of_neverStuck, fun hmeets => (hs.step hmeets).neverStuck⟩
    · exact fun s e hs hnext => hs.step (hs.meets_of_neverStuck hnext)
  · intro h reached hp i ok hcall hmeets hfree
    exact (unconnected_of_everyStep h reached hp).move_nearer hcall hmeets hfree

/-- A connection is made, and `connect` wants to send. -/
def connects : List (Event Nat) :=
  [.call 0 .connect, .move 0 true, .move 0 true, .move 0 true, .move 0 true, .move 0 true]

theorem not_neverStuck_connects : ¬ (run step fresh connects).NeverStuck := by
  intro h
  exact absurd (h.noSecondLock (.caller 0) rfl) (by decide)

end State

end MidnightSdk.Protocols.Mqtt.SocketMutex
