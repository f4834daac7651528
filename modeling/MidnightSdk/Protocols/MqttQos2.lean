import Mathlib.Data.List.AList
import MidnightSdk.Protocols.MqttProtocol

/-!
# Receiving with quality of service 2

The connection as the receiver and a broker as the sender, with a queue each way
that loses everything when the connection is made anew. Exactly once depends on
the retransmissions that get through.
-/

namespace MidnightSdk.Protocols.Mqtt

inductive QoS2State where
  | PUBREC_RECEIVED | PUBREL_SENT | PUBCOMP_RECEIVED
  deriving DecidableEq, Repr

/-- What the broker sends. A message is told apart from every other one of the broker. -/
inductive Inbound (μ : Type) where
  | publish (qos : QoS) (id : UInt16) (dup : Bool) (m : μ)
  | pubrec (id : UInt16)
  | pubrel (id : UInt16)
  | pubcomp (id : UInt16)
  deriving DecidableEq, Repr

/-- What the connection sends back. -/
inductive Reply where
  | puback (id : UInt16)
  | pubrec (id : UInt16)
  | pubrel (id : UInt16)
  | pubcomp (id : UInt16)
  deriving DecidableEq, Repr

/-- What the handlers touch: the table of exchanges, and the calls of `msg_cb_`. -/
structure Receiver (μ : Type) where
  pending_qos2_ : AList fun _ : UInt16 => QoS2State
  delivered : List (QoS × μ)

variable {μ : Type}

namespace Receiver

def handlePublish (r : Receiver μ) (qos : QoS) (id : UInt16) (m : μ) : Receiver μ × List Reply :=
  let r := { r with delivered := r.delivered ++ [(qos, m)] }
  match qos with
  | .AT_LEAST_ONCE => (r, [.puback id])
  | .EXACTLY_ONCE =>
    ({ r with pending_qos2_ := r.pending_qos2_.insert id .PUBREC_RECEIVED }, [.pubrec id])
  | _ => (r, [])

def handlePubrec (r : Receiver μ) (id : UInt16) : Receiver μ × List Reply :=
  ({ r with pending_qos2_ := r.pending_qos2_.insert id .PUBREL_SENT }, [.pubrel id])

def handlePubrel (r : Receiver μ) (id : UInt16) : Receiver μ × List Reply :=
  ({ r with pending_qos2_ := r.pending_qos2_.erase id }, [.pubcomp id])

def handlePubcomp (r : Receiver μ) (id : UInt16) : Receiver μ × List Reply :=
  ({ r with pending_qos2_ := r.pending_qos2_.erase id }, [])

/-- `handle_packet` for the packets of an exchange. -/
def handlePacket (r : Receiver μ) : Inbound μ → Receiver μ × List Reply
  | .publish qos id _ m => r.handlePublish qos id m
  | .pubrec id => r.handlePubrec id
  | .pubrel id => r.handlePubrel id
  | .pubcomp id => r.handlePubcomp id

end Receiver

/-! ## The broker -/

/-- Where the broker stands with an identifier. -/
inductive Slot (μ : Type) where
  | free
  | awaitsPubrec (m : μ)
  | awaitsPubcomp (m : μ)
  deriving DecidableEq, Repr

/-- Both sides and the queues between them. `begun` holds the messages the broker has
started to send, `log` the packets the connection has handled with its replies. -/
structure Exchange (μ : Type) where
  receiver : Receiver μ
  slots : UInt16 → Slot μ
  toClient : List (Inbound μ)
  toBroker : List Reply
  begun : List μ
  log : List (Inbound μ × List Reply)

/-- `other` is a packet outside the exchanges of the broker; `renew` loses what is under way. -/
inductive Qos2Event (μ : Type) where
  | begin (id : UInt16) (m : μ)
  | retransmit (id : UInt16)
  | other (p : Inbound μ)
  | handle
  | hear
  | renew
  deriving DecidableEq, Repr

/-- No QoS 2 PUBLISH and no PUBREL. -/
def Inbound.IsOther : Inbound μ → Bool
  | .publish .EXACTLY_ONCE _ _ _ => false
  | .pubrel _ => false
  | _ => true

namespace Exchange

def start : Exchange μ where
  receiver := { pending_qos2_ := ∅, delivered := [] }
  slots _ := .free
  toClient := []
  toBroker := []
  begun := []
  log := []

/-- The broker sends a packet. -/
def send (s : Exchange μ) (p : Inbound μ) : Exchange μ := { s with toClient := s.toClient ++ [p] }

def setSlot (s : Exchange μ) (id : UInt16) (slot : Slot μ) : Exchange μ :=
  { s with slots := Function.update s.slots id slot }

/-- What the broker does with a reply. Replies it does not wait for change nothing. -/
def hearReply (s : Exchange μ) : Reply → Exchange μ
  | .pubrec id =>
    match s.slots id with
    | .awaitsPubrec m => (s.setSlot id (.awaitsPubcomp m)).send (.pubrel id)
    | _ => s
  | .pubcomp id =>
    match s.slots id with
    | .awaitsPubcomp _ => s.setSlot id .free
    | _ => s
  | _ => s

variable [DecidableEq μ]

def step (s : Exchange μ) : Qos2Event μ → Exchange μ
  | .begin id m =>
    match s.slots id with
    | .free =>
      if m ∈ s.begun then s
      else { (s.setSlot id (.awaitsPubrec m)).send (.publish .EXACTLY_ONCE id false m) with
        begun := s.begun ++ [m] }
    | _ => s
  | .retransmit id =>
    match s.slots id with
    | .awaitsPubrec m => s.send (.publish .EXACTLY_ONCE id true m)
    | .awaitsPubcomp _ => s.send (.pubrel id)
    | .free => s
  | .other p => if p.IsOther then s.send p else s
  | .handle =>
    match s.toClient with
    | p :: rest =>
      { s with
        receiver := (s.receiver.handlePacket p).1
        toClient := rest
        toBroker := s.toBroker ++ (s.receiver.handlePacket p).2
        log := s.log ++ [(p, (s.receiver.handlePacket p).2)] }
    | [] => s
  | .hear =>
    match s.toBroker with
    | r :: rest => hearReply { s with toBroker := rest } r
    | [] => s
  | .renew =>
    { s with
      receiver := { s.receiver with pending_qos2_ := ∅ }
      toClient := []
      toBroker := [] }

/-! ## What is claimed of a state -/

/-- The PUBLISH packets of a message that the connection has handled. -/
def IsPublishOf (m : μ) : Inbound μ → Bool
  | .publish .EXACTLY_ONCE _ _ m' => m' = m
  | _ => false

theorem eq_publish {m : μ} {p : Inbound μ} (h : IsPublishOf m p = true) :
    ∃ id dup, p = .publish .EXACTLY_ONCE id dup m := by
  cases p with
  | publish qos id dup m' =>
    cases qos with
    | EXACTLY_ONCE =>
      cases of_decide_eq_true h
      exact ⟨id, dup, rfl⟩
    | AT_MOST_ONCE | AT_LEAST_ONCE | reserved => cases h
  | pubrec | pubrel | pubcomp => cases h

def timesHandled (s : Exchange μ) (m : μ) : Nat := s.log.countP fun e => IsPublishOf m e.1

/-- The broker still waits for the PUBREC of a message. -/
def Awaited (s : Exchange μ) (m : μ) : Prop := ∃ id, s.slots id = .awaitsPubrec m

structure ExactlyOnce (s : Exchange μ) : Prop where
  atMostOnce : ∀ m, s.receiver.delivered.count (.EXACTLY_ONCE, m) ≤ 1
  delivered : ∀ m ∈ s.begun, ¬ s.Awaited m → s.receiver.delivered.count (.EXACTLY_ONCE, m) = 1
  pubrec : ∀ e ∈ s.log, ∀ id dup m, e.1 = .publish .EXACTLY_ONCE id dup m → e.2 = [.pubrec id]
  pubcomp : ∀ e ∈ s.log, ∀ id, e.1 = .pubrel id → e.2 = [.pubcomp id]

/-- A PUBLISH is handled only if none of its message has been handled before. -/
def Meets (s : Exchange μ) : Qos2Event μ → Prop
  | .handle => ∀ id dup m rest, s.toClient = .publish .EXACTLY_ONCE id dup m :: rest →
      s.timesHandled m = 0
  | _ => True

end Exchange

end MidnightSdk.Protocols.Mqtt
