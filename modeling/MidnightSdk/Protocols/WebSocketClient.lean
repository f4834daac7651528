import MidnightSdk.Library.Runs

/-!
# The WebSocket client

`connect` and `disconnect` hold one mutex, the event thread holds none. The end of the
event loop and `disconnect` both call the close handler, and only `disconnect` joins the
thread.
-/

namespace MidnightSdk.Protocols.WebSocket

open Runs

/-- Where the caller stands that holds the mutex: five places of `connect`, four of
`disconnect`. -/
inductive Place where
  | dial
  | setConnected
  | setRunning
  | openHandler
  | startThread
  | clearRunning
  | clearConnected
  | join
  | closeHandler (joined : Option Nat)
  deriving DecidableEq, Repr

def Place.connects : Place → Bool
  | .dial | .setConnected | .setRunning | .openHandler | .startThread => true
  | _ => false

/-- Where an event thread stands in `run_event_loop`. -/
inductive Loop where
  | checkRunning
  | checkConnected
  | read
  | clearConnected
  | clearRunning
  | closeHandler
  | ended
  deriving DecidableEq, Repr

/-- Connections are numbered by the threads that serve them. A call of the close handler has
the number of the connection it is for, if there is one. -/
structure State where
  connected_ : Bool := false
  running_ : Bool := false
  inside : Option Place := none
  event_thread_ : Option Nat := none
  loops : List Loop := []
  closeCalls : List (Option Nat) := []
  terminated : Bool := false
  deriving DecidableEq, Repr

/-- A caller wants the mutex, its holder goes on, or an event thread goes on. `ok` is how the
network, a handler or the start of the thread turns out. -/
inductive Event where
  | connect
  | disconnect
  | move (ok : Bool)
  | loop (i : Nat) (ok : Bool)
  deriving DecidableEq, Repr

namespace State

variable (s : State)

/-- The check at the beginning of `connect`. -/
def connect : State := if s.connected_ then s else { s with inside := some .dial }

def disconnect : State := if s.connected_ then { s with inside := some .clearRunning } else s

/-- `event_thread_ = std::thread(…)`: a joinable thread may not be assigned to. -/
def assignThread : State :=
  match s.event_thread_ with
  | none =>
    { s with
      inside := none
      event_thread_ := some s.loops.length
      loops := s.loops ++ [.checkRunning] }
  | some _ => { s with terminated := true }

def move (ok : Bool) : State :=
  match s.inside with
  | none => s
  | some .dial => { s with inside := if ok then some .setConnected else none }
  | some .setConnected => { s with connected_ := true, inside := some .setRunning }
  | some .setRunning => { s with running_ := true, inside := some .openHandler }
  | some .openHandler => { s with inside := if ok then some .startThread else none }
  | some .startThread => if ok then s.assignThread else { s with inside := none }
  | some .clearRunning => { s with running_ := false, inside := some .clearConnected }
  | some .clearConnected => { s with connected_ := false, inside := some .join }
  | some .join =>
    match s.event_thread_ with
    | none => { s with inside := some (.closeHandler none) }
    | some i =>
      if s.loops[i]? = some .ended then
        { s with event_thread_ := none, inside := some (.closeHandler (some i)) }
      else s
  | some (.closeHandler joined) => { s with closeCalls := s.closeCalls ++ [joined], inside := none }

def goTo (i : Nat) (place : Loop) : State := { s with loops := s.loops.set i place }

def loop (i : Nat) (ok : Bool) : State :=
  match s.loops[i]? with
  | none | some .ended => s
  | some .checkRunning => s.goTo i (if s.running_ then .checkConnected else .clearConnected)
  | some .checkConnected => s.goTo i (if s.connected_ then .read else .clearConnected)
  | some .read => s.goTo i (if ok then .checkRunning else .clearConnected)
  | some .clearConnected => { s.goTo i .clearRunning with connected_ := false }
  | some .clearRunning => { s.goTo i .closeHandler with running_ := false }
  | some .closeHandler => { s.goTo i .ended with closeCalls := s.closeCalls ++ [some i] }

/-- The mutex is waited for, and nothing goes on after `std::terminate`. -/
def step (e : Event) : State :=
  if s.terminated then s
  else
    match e with
    | .connect => if s.inside = none then s.connect else s
    | .disconnect => if s.inside = none then s.disconnect else s
    | .move ok => s.move ok
    | .loop i ok => s.loop i ok

/-! ## What is claimed of a state -/

structure Law : Prop where
  /-- No joinable thread was assigned to. -/
  joined : s.terminated = false
  once : ∀ i, s.loops[i]? = some .ended → s.closeCalls.count (some i) = 1
  /-- Only the end of a connection is announced. -/
  only : ∀ call ∈ s.closeCalls, ∃ i, call = some i ∧ s.loops[i]? = some .ended

/-- Whoever gets the mutex to disconnect finds the client disconnected, and whoever gets it
to connect finds it connected or without a thread. -/
def Meets : Event → Prop
  | .connect => s.inside = none → s.connected_ = true ∨ s.event_thread_ = none
  | .disconnect => s.inside = none → s.connected_ = false
  | _ => True

/-! ## One connection, ended by the other side -/

/-- One connection whose thread was never joined. -/
def served (connected running : Bool) (place : Loop) : State where
  connected_ := connected
  running_ := running
  event_thread_ := some 0
  loops := [place]
  closeCalls := if place = .ended then [some 0] else []

/-- Nothing was opened yet, or one connection was. -/
inductive Once : State → Prop
  | unopened {connected running : Bool} {inside : Option Place}
      (connecting : ∀ p, inside = some p → p.connects = true) :
      Once ⟨connected, running, inside, none, [], [], false⟩
  | opened (connected running : Bool) (place : Loop) : Once (served connected running place)

variable {s}

theorem Once.law (h : s.Once) : s.Law := by
  cases h with
  | unopened => exact ⟨rfl, nofun, nofun⟩
  | opened connected running place =>
    refine ⟨rfl, fun i hi => ?_, fun call hcall => ?_⟩
    · cases i with
      | zero =>
        obtain rfl : place = .ended := Option.some.inj hi
        rfl
      | succ i => cases hi
    · dsimp only [served] at hcall
      split at hcall
      · rename_i hended
        refine ⟨0, List.mem_singleton.mp hcall, ?_⟩
        rw [hended]
        rfl
      · cases hcall

theorem Once.move (h : s.Once) (ok : Bool) : (s.move ok).Once := by
  cases h with
  | opened => exact .opened _ _ _
  | @unopened connected running inside connecting =>
    cases inside with
    | none => exact .unopened nofun
    | some p =>
      have connects := connecting p rfl
      cases p with
      | dial | openHandler =>
        cases ok with
        | true => exact .unopened fun p hp => by cases hp; rfl
        | false => exact .unopened nofun
      | setConnected | setRunning => exact .unopened fun p hp => by cases hp; rfl
      | startThread =>
        cases ok with
        | true => exact .opened connected running .checkRunning
        | false => exact .unopened nofun
      | clearRunning | clearConnected | join | closeHandler => cases connects

theorem Once.loop (h : s.Once) (i : Nat) (ok : Bool) : (s.loop i ok).Once := by
  cases h with
  | unopened connecting => exact .unopened connecting
  | opened connected running place =>
    cases i with
    | succ i => exact .opened connected running place
    | zero =>
      cases place with
      | checkRunning => cases running <;> exact .opened _ _ _
      | checkConnected => cases connected <;> exact .opened _ _ _
      | read => cases ok <;> exact .opened _ _ _
      | clearConnected => exact .opened false running .clearRunning
      | clearRunning => exact .opened connected false .closeHandler
      | closeHandler => exact .opened connected running .ended
      | ended => exact .opened connected running .ended

theorem Once.step (h : s.Once) {e : Event} (hmeets : s.Meets e) : (s.step e).Once := by
  unfold State.step
  rw [if_neg (by rw [h.law.joined]; decide)]
  cases e with
  | move ok => exact h.move ok
  | loop i ok => exact h.loop i ok
  | connect =>
    dsimp only
    split
    · rename_i free
      have held := hmeets free
      cases h with
      | @unopened connected running inside connecting =>
        cases connected with
        | true => exact .unopened connecting
        | false => exact .unopened fun p hp => by cases hp; rfl
      | opened connected running place =>
        obtain rfl : connected = true := held.resolve_right nofun
        exact .opened true running place
    · exact h
  | disconnect =>
    dsimp only
    split
    · rename_i free
      rw [State.disconnect, hmeets free]
      exact h
    · exact h

/-- **One close a connection, and no thread lost**, in every run that opens one connection
and lets the other side end it. -/
theorem every_law {events : List Event} (h : EveryStep step Meets {} events) :
    ∀ reached, reached <+: events → (run step {} reached).Law := by
  intro reached hprefix
  have once : (run step ({} : State) reached).Once :=
    every_state (fun _ _ hs hmeets => hs.step hmeets) (.unopened nofun) h reached hprefix
  exact once.law

/-- A connection that the other side closes. -/
def closedByServer : List Event :=
  .connect :: List.replicate 5 (.move true) ++
    [.loop 0 true, .loop 0 true, .loop 0 false, .loop 0 true, .loop 0 true, .loop 0 true]

theorem every_law_closedByServer : (run step {} closedByServer).Law :=
  @every_law closedByServer
    ⟨fun _ => .inr rfl, trivial, trivial, trivial, trivial, trivial, trivial, trivial, trivial,
      trivial, trivial, trivial, trivial⟩ closedByServer List.prefix_rfl

/-! ## Other runs -/

/-- The caller gets as far as it can, and the event thread to its end in between. -/
def disconnecting : List Event :=
  [.move true, .move true] ++ List.replicate 5 (.loop 0 false) ++ [.move true, .move true]

theorem closeCalls_unopened (running : Bool) :
    (run step ⟨true, running, none, none, [], [], false⟩
      (.disconnect :: disconnecting)).closeCalls = [none] := by
  cases running <;> decide

theorem closeCalls_served (running : Bool) (place : Loop) :
    (run step (served true running place) (.disconnect :: disconnecting)).closeCalls =
        [some 0, some 0] ∧
      (run step (served true running place) (.disconnect :: disconnecting)).loops = [.ended] := by
  cases place <;> cases running <;> decide

/-- A step that does not meet the condition leads to a state the claim fails in. -/
theorem Once.breaks (h : s.Once) {e : Event} (hmeets : ¬ s.Meets e) :
    ∃ more, ¬ (run State.step s (e :: more)).Law := by
  cases e with
  | move | loop => exact absurd trivial hmeets
  | connect =>
    obtain ⟨free, lost⟩ := Classical.not_imp.mp hmeets
    obtain ⟨unconnected, held⟩ := not_or.mp lost
    cases h with
    | unopened => exact absurd rfl held
    | opened connected running place =>
      obtain rfl : connected = false := (Bool.not_eq_true connected).mp unconnected
      exact ⟨List.replicate 5 (.move true), fun law => Bool.noConfusion law.joined⟩
  | disconnect =>
    obtain ⟨free, up⟩ := Classical.not_imp.mp hmeets
    have connected := (Bool.not_eq_false _).mp up
    refine ⟨disconnecting, fun law => ?_⟩
    cases h with
    | @unopened _ running =>
      subst free connected
      obtain ⟨i, hi, -⟩ := law.only none (by rw [closeCalls_unopened]; exact List.mem_cons_self)
      cases hi
    | opened _ running place =>
      obtain rfl := connected
      obtain ⟨calls, ended⟩ := closeCalls_served running place
      have once := law.once 0 (by rw [ended]; rfl)
      rw [calls] at once
      cases once

/-- A connection that the client ends itself. -/
def closedByClient : List Event :=
  .connect :: List.replicate 5 (.move true) ++ .disconnect :: disconnecting

/-- The client announces the end of one connection twice, and where the server ended it, the
next `connect` finds the thread still held. -/
theorem not_every_law :
    (run step {} closedByClient).closeCalls = [some 0, some 0] ∧
      (run step {} (closedByServer ++
        .connect :: List.replicate 5 (.move true))).terminated = true ∧
      ¬ ∀ events, (run step {} events).Law := by
  have twice : (run step {} closedByClient).closeCalls = [some 0, some 0] := by decide
  refine ⟨twice, by decide, fun all => ?_⟩
  have once := (all closedByClient).once 0 (by decide)
  rw [twice] at once
  cases once

end State

end MidnightSdk.Protocols.WebSocket
