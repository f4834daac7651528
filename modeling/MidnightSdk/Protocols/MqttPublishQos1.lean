import Mathlib.Data.List.AList
import MidnightSdk.Library.Runs

/-!
# Publishing with an acknowledgement

Any number of `publish_qos1` calls, the reader and the broker at one connection.
Steps are the sections under a mutex, the sends and what the broker does; beside
the members of the connection a state keeps what has happened so far.
-/

namespace MidnightSdk.Protocols.Mqtt

open Runs

/-- Where a call of `publish_qos1` stands. -/
inductive Phase where
  | idle
  | drawn (id : UInt16)
  | sent (id : UInt16)
  | waiting (id : UInt16)
  | woken (id : UInt16) (success : Bool)
  | returned (result : Bool)
  deriving DecidableEq, Repr

/-- The identifier of a call in progress. -/
def Phase.id? : Phase → Option UInt16
  | .drawn id | .sent id | .waiting id | .woken id _ => some id
  | .idle | .returned _ => none

/-- Its PUBACK would be in time. -/
def Phase.InTime : Phase → Bool
  | .sent _ | .waiting _ => true
  | _ => false

def Phase.WasSent : Phase → Bool
  | .idle | .drawn _ => false
  | _ => true

/-- The identifier a waiter is registered under. -/
def Phase.registered? : Phase → Option UInt16
  | .waiting id | .woken id _ => some id
  | _ => none

structure PendingPuback where
  completed : Bool := false
  success : Bool := false
  deriving DecidableEq, Repr

/-- `κ` tells the calls apart. The last five members are history: how many identifiers were
drawn, and after how many each call drew its own; the calls whose own PUBACK was processed,
and was so before their timeout; whether the connection was lost. -/
structure Connection (κ : Type) [DecidableEq κ] where
  next_packet_id_ : UInt16
  sockOpen : Bool
  pending_pubacks_ : AList fun _ : UInt16 => κ
  waiters : κ → PendingPuback
  calls : κ → Phase
  unanswered : List (UInt16 × κ)
  pubacks : List (UInt16 × κ)
  draws : Nat
  drawnAt : κ → Nat
  processed : κ → Bool
  acked : κ → Bool
  lost : Bool

/-- A step of a call, of another user of identifiers, of the broker, of the reader, or of the
loss of the connection. A PUBLISH or PUBACK is its identifier and the call it belongs to. -/
inductive Event (κ : Type) where
  | start (c : κ)
  | send (c : κ) (ok : Bool)
  | register (c : κ)
  | wake (c : κ)
  | timeout (c : κ)
  | finish (c : κ)
  | subscribe
  | answer (e : UInt16 × κ)
  | puback (e : UInt16 × κ)
  | pubcomp (id : UInt16)
  | lose
  | closeSocket
  | cleanup
  deriving DecidableEq, Repr

/-- `next_packet_id`: the identifier and the counter behind it. -/
def nextPacketId (counter : UInt16) : UInt16 × UInt16 :=
  if counter = 0 then (counter + 1, counter + 1 + 1) else (counter, counter + 1)

variable {κ : Type} [DecidableEq κ]

namespace Connection

/-- A connection that has just been made. -/
def fresh : Connection κ where
  next_packet_id_ := 1
  sockOpen := true
  pending_pubacks_ := ∅
  waiters _ := {}
  calls _ := .idle
  unanswered := []
  pubacks := []
  draws := 0
  drawnAt _ := 0
  processed _ := false
  acked _ := false
  lost := false

variable (s : Connection κ)

def setCall (c : κ) (phase : Phase) : Connection κ :=
  { s with calls := Function.update s.calls c phase }

/-- `next_packet_id` as a step. -/
def draw : Connection κ :=
  { s with next_packet_id_ := (nextPacketId s.next_packet_id_).2, draws := s.draws + 1 }

/-- What `handle_puback` and `handle_pubcomp` do with the waiter of an identifier. -/
def complete (id : UInt16) : Connection κ :=
  match s.pending_pubacks_.lookup id with
  | some c => { s with waiters := Function.update s.waiters c ⟨true, true⟩ }
  | none => s

/-- The waiters that `cleanup` completes with failure. -/
def failAll : Connection κ :=
  { s with
    waiters := fun c =>
      if c ∈ s.pending_pubacks_.entries.map Sigma.snd then ⟨true, false⟩ else s.waiters c
    pending_pubacks_ := ∅ }

/-- A step that is not possible changes nothing. Without a socket nothing more arrives. -/
def step : Event κ → Connection κ
  | .start c =>
    if s.calls c = .idle then
      { s.draw.setCall c (.drawn (nextPacketId s.next_packet_id_).1) with
        drawnAt := Function.update s.drawnAt c s.draws }
    else s
  | .send c ok =>
    match s.calls c with
    | .drawn id =>
      if s.sockOpen && ok then
        { s.setCall c (.sent id) with unanswered := s.unanswered ++ [(id, c)] }
      else s.setCall c (.returned false)
    | _ => s
  | .register c =>
    match s.calls c with
    | .sent id =>
      { s.setCall c (.waiting id) with
        pending_pubacks_ := s.pending_pubacks_.insert id c
        waiters := Function.update s.waiters c {} }
    | _ => s
  | .wake c =>
    match s.calls c with
    | .waiting id => if (s.waiters c).completed then s.setCall c (.woken id true) else s
    | _ => s
  | .timeout c =>
    match s.calls c with
    | .waiting id => s.setCall c (.woken id (s.waiters c).completed)
    | _ => s
  | .finish c =>
    match s.calls c with
    | .woken id success =>
      { s.setCall c (.returned (success && (s.waiters c).success)) with
        pending_pubacks_ := s.pending_pubacks_.erase id }
    | _ => s
  | .subscribe => s.draw
  | .answer e =>
    if e ∈ s.unanswered then
      { s with unanswered := s.unanswered.erase e, pubacks := s.pubacks ++ [e] }
    else s
  | .puback e =>
    if e ∈ s.pubacks then
      { s.complete e.1 with
        pubacks := s.pubacks.erase e
        processed := Function.update s.processed e.2 true
        acked := Function.update s.acked e.2 (s.calls e.2).InTime }
    else s
  | .pubcomp id => s.complete id
  | .lose => { s with lost := true }
  | .closeSocket => if s.lost then { s with sockOpen := false } else s
  | .cleanup =>
    if s.sockOpen then s else { s.failAll with unanswered := [], pubacks := [] }

end Connection

theorem Phase.id?_of_registered? {p : Phase} {id : UInt16} (h : p.registered? = some id) :
    p.id? = some id := by
  cases p with
  | waiting id | woken id success => exact h
  | idle | drawn | sent | returned => cases h

/-! ## Identifiers -/

/-- The identifier drawn after `n` others. -/
def idOf (n : Nat) : UInt16 := UInt16.ofNat (n % 65535 + 1)

theorem toNat_idOf (n : Nat) : (idOf n).toNat = n % 65535 + 1 := by
  rw [idOf, UInt16.toNat_ofNat']
  omega

/-- Identifiers come round after 65535 of them. -/
theorem idOf_inj {m n : Nat} : idOf m = idOf n ↔ m % 65535 = n % 65535 := by
  rw [← UInt16.toNat_inj, toNat_idOf, toNat_idOf]
  omega

/-- The counter stands at the next identifier, or at zero in front of the first one. -/
def CounterAt (n : Nat) (counter : UInt16) : Prop :=
  counter = idOf n ∨ counter = 0 ∧ n % 65535 = 0

theorem counterAt_next {n : Nat} {counter : UInt16} (h : CounterAt n counter) :
    (nextPacketId counter).1 = idOf n ∧ CounterAt (n + 1) (nextPacketId counter).2 := by
  have drawn : (nextPacketId counter).1 = idOf n := by
    rcases h with rfl | ⟨rfl, hn⟩
    · have positive : idOf n ≠ 0 := by
        intro hzero
        have := toNat_idOf n
        rw [hzero] at this
        exact absurd this (Nat.succ_ne_zero _).symm
      rw [nextPacketId, if_neg positive]
    · rw [nextPacketId, if_pos rfl, idOf, hn]
      rfl
  have behind : (nextPacketId counter).2 = (nextPacketId counter).1 + 1 := by
    unfold nextPacketId
    split <;> rfl
  refine ⟨drawn, ?_⟩
  rw [behind, drawn]
  have next : (idOf n + 1).toNat = (n % 65535 + 1 + 1) % 65536 := by
    rw [UInt16.toNat_add, toNat_idOf]
    rfl
  by_cases hlast : n % 65535 = 65534
  · right
    refine ⟨UInt16.toNat_inj.mp ?_, by omega⟩
    rw [next, hlast]
    rfl
  · left
    apply UInt16.toNat_inj.mp
    rw [next, toNat_idOf]
    omega

/-! ## What is promised, and when it is kept -/

namespace Connection

variable (s : Connection κ)

/-- Sent, and its PUBACK not processed yet. -/
def outstanding : List (UInt16 × κ) := s.unanswered ++ s.pubacks

/-- The call has returned true, or the flags it goes by are set. -/
def WillReturnTrue (c : κ) : Prop :=
  s.calls c = .returned true ∨
    (s.waiters c).success = true ∧
      ((∃ id, s.calls c = .woken id true) ∨
        (s.waiters c).completed = true ∧ ∃ id, s.calls c = .waiting id)

structure Kept : Prop where
  acknowledged : ∀ c, s.acked c = true → s.lost = false → s.WillReturnTrue c
  processed : ∀ c, s.calls c = .returned true → s.processed c = true
  apart : ∀ c d id, (s.calls c).id? = some id → (s.calls d).id? = some id → c = d

/-- In progress, or its PUBACK is still outstanding. -/
def Unsettled (c : κ) : Prop := (s.calls c).id?.isSome ∨ ∃ e ∈ s.outstanding, e.2 = c

/-- An identifier is drawn by a call only at other distances from an unsettled one than 65535
and its multiples, a PUBACK finds the waiter of its call registered if the call is not over,
and a PUBCOMP finds none. -/
def Meets : Event κ → Prop
  | .start _ => ∀ c, s.Unsettled c → ¬ 65535 ∣ s.draws - s.drawnAt c
  | .puback e => ∀ id, s.calls e.2 ≠ .sent id
  | .pubcomp id => s.pending_pubacks_.lookup id = none
  | _ => True

/-- Two steps of its own, and the call returns true. -/
theorem willReturnTrue_returns {c : κ} (h : s.WillReturnTrue c) :
    (run step s [.wake c, .finish c]).calls c = .returned true := by
  simp only [run, List.foldl_cons, List.foldl_nil]
  rcases h with hret | ⟨hsuccess, ⟨id, hwoken⟩ | ⟨hcompleted, id, hwaits⟩⟩
  · simp only [step, hret]
  · simp only [step, hwoken, hsuccess, setCall, Function.update_self, Bool.and_self]
  · simp only [step, hwaits, hcompleted, if_true, setCall, Function.update_self, hsuccess,
      Bool.and_self]

/-- Completing a waiter touches nothing but its flags. -/
theorem complete_eq (id : UInt16) :
    s.complete id = { s with waiters := (s.complete id).waiters } := by
  unfold complete
  split <;> rfl

end Connection

end MidnightSdk.Protocols.Mqtt
