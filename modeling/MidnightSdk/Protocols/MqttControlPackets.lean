import MidnightSdk.Library.BigEndian
import MidnightSdk.Library.Items
import MidnightSdk.Protocols.MqttProtocol

/-!
# All that a client writes

The builders of the client's packets, and a reader of MQTT 3.1.1 on the other side. The reader
looks at the layout, not at what a text may contain.
-/

namespace MidnightSdk.Protocols.Mqtt

open Base128

structure ConnectPayload where
  client_id : List UInt8
  will_topic : List UInt8 := []
  will_message : List UInt8 := []
  username : List UInt8 := []
  password : List UInt8 := []
  keep_alive : UInt16 := 60
  clean_session : Bool := true
  will_retain : Bool := false
  will_qos : QoS := .AT_MOST_ONCE
  deriving DecidableEq, Repr

structure SubscribeTopic where
  topic : List UInt8
  qos : QoS := .AT_MOST_ONCE
  deriving DecidableEq, Repr

namespace ConnectPayload

variable (p : ConnectPayload)

def hasWill : Bool := p.will_topic ≠ []

def hasUsername : Bool := p.username ≠ []

def hasPassword : Bool := p.password ≠ []

def remainingLength : Nat :=
  10 + (2 + p.client_id.length +
    (if p.hasWill then 2 + p.will_topic.length + (2 + p.will_message.length) else 0) +
    (if p.hasUsername then 2 + p.username.length else 0) +
    (if p.hasPassword then 2 + p.password.length else 0))

def connectFlags : UInt8 :=
  let flags : UInt8 := if p.clean_session then 0x02 else 0
  let flags :=
    if p.hasWill then
      let flags := flags ||| (0x04 : UInt8) ||| p.will_qos.code <<< 3
      if p.will_retain then flags ||| 0x20 else flags
    else flags
  let flags := if p.hasUsername then flags ||| 0x80 else flags
  if p.hasPassword then flags ||| 0x40 else flags

/-- All that follows the remaining length. -/
def body : List UInt8 :=
  [0x00, 0x04, 0x4D, 0x51, 0x54, 0x54, 0x04, p.connectFlags] ++
    [(p.keep_alive >>> 8).toUInt8, (p.keep_alive &&& 0xFF).toUInt8] ++
    encodeUtf8String p.client_id ++
    (if p.hasWill then encodeUtf8String p.will_topic ++ encodeUtf8String p.will_message else []) ++
    (if p.hasUsername then encodeUtf8String p.username else []) ++
    (if p.hasPassword then encodeUtf8String p.password else [])

end ConnectPayload

def buildConnectPacket (payload : ConnectPayload) : List UInt8 :=
  PacketType.CONNECT.code <<< 4 ::
    (encodeRemainingLength (UInt32.ofNat payload.remainingLength) ++ payload.body)

/-- A packet that holds only an identifier. -/
def buildIdPacket (first : UInt8) (packet_id : UInt16) : List UInt8 :=
  first :: 0x02 :: encodeBe16 packet_id

def buildPubackPacket : UInt16 → List UInt8 := buildIdPacket (PacketType.PUBACK.code <<< 4)

def buildPubrecPacket : UInt16 → List UInt8 := buildIdPacket (PacketType.PUBREC.code <<< 4)

/-- This one has flags. -/
def buildPubrelPacket : UInt16 → List UInt8 := buildIdPacket (PacketType.PUBREL.code <<< 4 ||| 0x02)

def buildPubcompPacket : UInt16 → List UInt8 := buildIdPacket (PacketType.PUBCOMP.code <<< 4)

def buildSubscribePacket (packet_id : UInt16) (topics : List SubscribeTopic) : List UInt8 :=
  let payloadSize := (topics.map fun t => 2 + t.topic.length + 1).sum
  (PacketType.SUBSCRIBE.code <<< 4 ||| 0x02) ::
    (encodeRemainingLength (UInt32.ofNat (2 + payloadSize)) ++
      (encodeBe16 packet_id ++ topics.flatMap fun t => encodeUtf8String t.topic ++ [t.qos.code]))

def buildUnsubscribePacket (packet_id : UInt16) (topics : List (List UInt8)) : List UInt8 :=
  let payloadSize := (topics.map fun t => 2 + t.length).sum
  (PacketType.UNSUBSCRIBE.code <<< 4 ||| 0x02) ::
    (encodeRemainingLength (UInt32.ofNat (2 + payloadSize)) ++
      (encodeBe16 packet_id ++ topics.flatMap encodeUtf8String))

def buildPingreqPacket : List UInt8 := [PacketType.PINGREQ.code <<< 4, 0x00]

def buildDisconnectPacket : List UInt8 := [PacketType.DISCONNECT.code <<< 4, 0x00]

/-- What a client sends. -/
inductive ClientPacket where
  | connect (payload : ConnectPayload)
  | publish (pub : PublishPacket)
  | puback (packet_id : UInt16)
  | pubrec (packet_id : UInt16)
  | pubrel (packet_id : UInt16)
  | pubcomp (packet_id : UInt16)
  | subscribe (packet_id : UInt16) (topics : List SubscribeTopic)
  | unsubscribe (packet_id : UInt16) (topics : List (List UInt8))
  | pingreq
  | disconnect
  deriving DecidableEq, Repr

def ClientPacket.build : ClientPacket → List UInt8
  | connect payload => buildConnectPacket payload
  | publish pub => buildPublishPacket pub
  | puback packet_id => buildPubackPacket packet_id
  | pubrec packet_id => buildPubrecPacket packet_id
  | pubrel packet_id => buildPubrelPacket packet_id
  | pubcomp packet_id => buildPubcompPacket packet_id
  | subscribe packet_id topics => buildSubscribePacket packet_id topics
  | unsubscribe packet_id topics => buildUnsubscribePacket packet_id topics
  | pingreq => buildPingreqPacket
  | disconnect => buildDisconnectPacket

/-! ## The reader on the other side -/

namespace Broker

def readNumber : List UInt8 → Option (UInt16 × List UInt8)
  | hi :: lo :: rest => some (UInt16.ofNat (BigEndian.beValue [hi, lo]), rest)
  | _ => none

/-- An identifier is not zero. -/
def readIdentifier (bytes : List UInt8) : Option (UInt16 × List UInt8) := do
  let (id, rest) ← readNumber bytes
  if id = 0 then none else some (id, rest)

def readText (bytes : List UInt8) : Option (List UInt8 × List UInt8) := do
  let (length, rest) ← readNumber bytes
  if length.toNat ≤ rest.length then some (rest.take length.toNat, rest.drop length.toNat) else none

/-- A text is there if its flag is set. -/
def readTextIf (flag : Bool) (bytes : List UInt8) : Option (List UInt8 × List UInt8) :=
  if flag then readText bytes else some ([], bytes)

def readQoS (bits : UInt8) : Option QoS :=
  match bits.toNat with
  | 0 => some .AT_MOST_ONCE
  | 1 => some .AT_LEAST_ONCE
  | 2 => some .EXACTLY_ONCE
  | _ => none

/-- What the flags of a CONNECT say. -/
structure ConnectFlags where
  clean_session : Bool
  hasWill : Bool
  will_qos : QoS
  will_retain : Bool
  hasUsername : Bool
  hasPassword : Bool
  deriving DecidableEq, Repr

/-- The bits of the will are zero without a will, and a password needs a username. -/
def readFlags (flags : UInt8) : Option ConnectFlags :=
  if flags &&& 0x01 ≠ 0 then none
  else if flags &&& 0x04 = 0 ∧ flags &&& 0x38 ≠ 0 then none
  else if flags &&& 0x40 ≠ 0 ∧ flags &&& 0x80 = 0 then none
  else
    (readQoS (flags >>> 3 &&& 0x03)).map fun will_qos => {
      will_qos
      clean_session := flags &&& 0x02 ≠ 0
      hasWill := flags &&& 0x04 ≠ 0
      will_retain := flags &&& 0x20 ≠ 0
      hasUsername := flags &&& 0x80 ≠ 0
      hasPassword := flags &&& 0x40 ≠ 0 }

def readConnectFields (flags : ConnectFlags) (bytes : List UInt8) : Option ConnectPayload := do
  let (keep_alive, rest) ← readNumber bytes
  let (client_id, rest) ← readText rest
  let (will_topic, rest) ← readTextIf flags.hasWill rest
  let (will_message, rest) ← readTextIf flags.hasWill rest
  let (username, rest) ← readTextIf flags.hasUsername rest
  let (password, rest) ← readTextIf flags.hasPassword rest
  if rest = [] then
    return {
      client_id, will_topic, will_message, username, password, keep_alive
      clean_session := flags.clean_session
      will_retain := flags.will_retain
      will_qos := flags.will_qos }
  else none

def readConnect : List UInt8 → Option ConnectPayload
  | 0x00 :: 0x04 :: 0x4D :: 0x51 :: 0x54 :: 0x54 :: 0x04 :: flags :: rest => do
    let flags ← readFlags flags
    readConnectFields flags rest
  | _ => none

/-- A message that is sent at most once has no identifier and is no duplicate. -/
def readPublish (flags : UInt8) (bytes : List UInt8) : Option PublishPacket := do
  let qos ← readQoS (flags >>> 1 &&& 0x03)
  let (topic, rest) ← readText bytes
  let dup : Bool := flags &&& 0x08 ≠ 0
  let retain : Bool := flags &&& 0x01 ≠ 0
  if qos = .AT_MOST_ONCE then
    if dup then none
    else return { topic, payload := rest, qos, dup, retain }
  else
    let (packet_id, rest) ← readIdentifier rest
    return { topic, payload := rest, packet_id, qos, dup, retain }

def readOnlyIdentifier (bytes : List UInt8) : Option UInt16 := do
  let (id, rest) ← readIdentifier bytes
  if rest = [] then some id else none

def readTopic (bytes : List UInt8) : Option (SubscribeTopic × List UInt8) := do
  let (topic, rest) ← readText bytes
  match rest with
  | qos :: rest => do
    let qos ← readQoS qos
    return (⟨topic, qos⟩, rest)
  | [] => none

/-- An identifier and at least one item. -/
def readItems {α : Type} (read : List UInt8 → Option (α × List UInt8)) (bytes : List UInt8) :
    Option (UInt16 × List α) := do
  let (id, rest) ← readIdentifier bytes
  let items ← Items.readAll read rest
  if items.isEmpty then none else return (id, items)

def readBody (first : UInt8) (body : List UInt8) : Option ClientPacket :=
  match (first >>> 4).toNat, (first &&& 0x0F).toNat with
  | 1, 0 => (readConnect body).map .connect
  | 3, _ => (readPublish (first &&& 0x0F) body).map .publish
  | 4, 0 => (readOnlyIdentifier body).map .puback
  | 5, 0 => (readOnlyIdentifier body).map .pubrec
  | 6, 2 => (readOnlyIdentifier body).map .pubrel
  | 7, 0 => (readOnlyIdentifier body).map .pubcomp
  | 8, 2 => (readItems readTopic body).map fun (id, topics) => .subscribe id topics
  | 10, 2 => (readItems readText body).map fun (id, topics) => .unsubscribe id topics
  | 12, 0 => if body = [] then some .pingreq else none
  | 14, 0 => if body = [] then some .disconnect else none
  | _, _ => none

/-- The length is at most four bytes long, and counts all of the body. -/
def readPacket : List UInt8 → Option (ClientPacket × List UInt8)
  | first :: rest => do
    let (length, rest) ← Base128.read 4 rest
    if length ≤ rest.length then
      let packet ← readBody first (rest.take length)
      return (packet, rest.drop length)
    else none
  | [] => none

/-- All packets of a connection. -/
def readPackets : List UInt8 → Option (List ClientPacket) := Items.readAll readPacket

end Broker

/-! ## What the format allows -/

namespace ClientPacket

/-- The length of the body. -/
def remainingLength : ClientPacket → Nat
  | connect payload => payload.remainingLength
  | publish pub => pub.remainingLength
  | puback _ | pubrec _ | pubrel _ | pubcomp _ => 2
  | subscribe _ topics => 2 + (topics.map fun t => 2 + t.topic.length + 1).sum
  | unsubscribe _ topics => 2 + (topics.map fun t => 2 + t.length).sum
  | pingreq | disconnect => 0

def texts : ClientPacket → List (List UInt8)
  | connect payload =>
    [payload.client_id, payload.will_topic, payload.will_message, payload.username, payload.password]
  | publish pub => [pub.topic]
  | subscribe _ topics => topics.map (·.topic)
  | unsubscribe _ topics => topics
  | _ => []

/-- The lengths fit their fields. -/
structure Fits (p : ClientPacket) : Prop where
  total : p.remainingLength ≤ 268435455
  texts : ∀ text ∈ p.texts, text.length ≤ 65535

def Legal : ClientPacket → Prop
  | connect payload =>
    (payload.will_topic ≠ [] → payload.will_qos ≠ .reserved) ∧
      (payload.password ≠ [] → payload.username ≠ [])
  | publish pub =>
    pub.qos ≠ .reserved ∧ (pub.qos = .AT_MOST_ONCE → pub.dup = false) ∧
      (pub.qos ≠ .AT_MOST_ONCE → pub.packet_id ≠ 0)
  | puback packet_id | pubrec packet_id | pubrel packet_id | pubcomp packet_id => packet_id ≠ 0
  | subscribe packet_id topics => packet_id ≠ 0 ∧ topics ≠ [] ∧ ∀ t ∈ topics, t.qos ≠ .reserved
  | unsubscribe packet_id topics => packet_id ≠ 0 ∧ topics ≠ []
  | pingreq | disconnect => True

/-- What is on the wire of a packet: no will without a topic, and no identifier of a message that
is sent at most once. -/
def sent : ClientPacket → ClientPacket
  | connect payload => connect
      (if payload.hasWill then payload
       else { payload with will_message := [], will_qos := .AT_MOST_ONCE, will_retain := false })
  | publish pub => publish { pub with packet_id := if pub.qos = .AT_MOST_ONCE then 0 else pub.packet_id }
  | p => p

instance : (p : ClientPacket) → Decidable p.Legal
  | connect payload => inferInstanceAs (Decidable
      ((payload.will_topic ≠ [] → payload.will_qos ≠ .reserved) ∧
        (payload.password ≠ [] → payload.username ≠ [])))
  | publish pub => inferInstanceAs (Decidable
      (pub.qos ≠ .reserved ∧ (pub.qos = .AT_MOST_ONCE → pub.dup = false) ∧
        (pub.qos ≠ .AT_MOST_ONCE → pub.packet_id ≠ 0)))
  | puback packet_id | pubrec packet_id | pubrel packet_id | pubcomp packet_id =>
    inferInstanceAs (Decidable (packet_id ≠ 0))
  | subscribe packet_id topics => inferInstanceAs (Decidable
      (packet_id ≠ 0 ∧ topics ≠ [] ∧ ∀ t ∈ topics, t.qos ≠ .reserved))
  | unsubscribe packet_id topics => inferInstanceAs (Decidable (packet_id ≠ 0 ∧ topics ≠ []))
  | pingreq | disconnect => inferInstanceAs (Decidable True)

end ClientPacket

/-! ## Fields read back -/

namespace Broker

theorem encodeBe16_eq (v : UInt16) : encodeBe16 v = BigEndian.beBytes 2 v.toNat := by
  have range := v.toNat_lt
  have low : (v &&& 0xFF).toUInt8 = UInt8.ofNat v.toNat := by
    apply UInt8.toNat_inj.mp
    rw [UInt16.toNat_toUInt8, UInt16.toNat_and, UInt8.toNat_ofNat']
    change (v.toNat &&& (2 ^ 8 - 1)) % 256 = _
    rw [Nat.and_two_pow_sub_one_eq_mod]
    omega
  have high : (v >>> 8 &&& 0xFF).toUInt8 = UInt8.ofNat (v.toNat / 256) := by
    apply UInt8.toNat_inj.mp
    rw [UInt16.toNat_toUInt8, UInt16.toNat_and, UInt16.toNat_shiftRight, UInt8.toNat_ofNat']
    change (v.toNat >>> 8 &&& (2 ^ 8 - 1)) % 256 = _
    rw [Nat.and_two_pow_sub_one_eq_mod, Nat.shiftRight_eq_div_pow]
    omega
  rw [encodeBe16, low, high]
  rfl

theorem readNumber_encodeBe16 (v : UInt16) (rest : List UInt8) :
    readNumber (encodeBe16 v ++ rest) = some (v, rest) := by
  have number : BigEndian.beValue (BigEndian.beBytes 2 v.toNat) = v.toNat :=
    BigEndian.beValue_beBytes_of_lt (k := 2) v.toNat_lt
  rw [← encodeBe16_eq] at number
  simp only [encodeBe16, List.cons_append, List.nil_append, readNumber] at number ⊢
  rw [number, UInt16.ofNat_toNat]

theorem readIdentifier_encodeBe16 (v : UInt16) (rest : List UInt8) :
    readIdentifier (encodeBe16 v ++ rest) = if v = 0 then none else some (v, rest) := by
  rw [readIdentifier, readNumber_encodeBe16]
  rfl

theorem readOnlyIdentifier_encodeBe16 (v : UInt16) :
    readOnlyIdentifier (encodeBe16 v) = if v = 0 then none else some v := by
  have read := readIdentifier_encodeBe16 v []
  rw [List.append_nil] at read
  rw [readOnlyIdentifier, read]
  split <;> rfl

theorem readText_encode {text : List UInt8} (h : text.length ≤ 65535) (rest : List UInt8) :
    readText (encodeUtf8String text ++ rest) = some (text, rest) := by
  have length : (UInt16.ofNat text.length).toNat = text.length := by
    rw [UInt16.toNat_ofNat']
    omega
  have enough : text.length ≤ (text ++ rest).length := by
    rw [List.length_append]
    omega
  rw [readText, encodeUtf8String, List.append_assoc, readNumber_encodeBe16]
  simp only [Option.bind_eq_bind, Option.bind_some]
  rw [length, if_pos enough, List.take_left, List.drop_left]

theorem readTextIf_encode (flag : Bool) {text : List UInt8} (h : text.length ≤ 65535)
    (rest : List UInt8) : readTextIf flag ((if flag then encodeUtf8String text else []) ++ rest) =
      some (if flag then text else [], rest) := by
  cases flag with
  | true => exact readText_encode h rest
  | false => rfl

theorem readQoS_code (qos : QoS) : readQoS qos.code = if qos = .reserved then none else some qos := by
  cases qos <;> rfl

/-! ## Packets read back -/

theorem readPacket_field (first : UInt8) {field body : List UInt8} (h : Terminated field)
    (hfield : field.length ≤ 4) (hbody : body.length = value field) (rest : List UInt8) :
    readPacket (first :: (field ++ body) ++ rest) =
      (readBody first body).map fun packet => (packet, rest) := by
  have length := read_terminated h hfield (body ++ rest)
  have enough : value field ≤ (body ++ rest).length := by
    rw [List.length_append]
    omega
  rw [List.cons_append, List.append_assoc, readPacket, length]
  simp only [Option.bind_eq_bind, Option.bind_some]
  rw [if_pos enough, List.take_left' hbody, List.drop_left' hbody]
  cases readBody first body with
  | none => rfl
  | some packet => rfl

theorem readPacket_frame (first : UInt8) {n : Nat} {body : List UInt8} (hbody : body.length = n)
    (hn : n ≤ 268435455) (rest : List UInt8) :
    readPacket (first :: (encodeRemainingLength (UInt32.ofNat n) ++ body) ++ rest) =
      (readBody first body).map fun packet => (packet, rest) := by
  have small : (UInt32.ofNat n).toNat = n := by
    rw [UInt32.toNat_ofNat']
    omega
  rw [encodeRemainingLength_eq, small]
  apply readPacket_field first (terminated_encode n) (length_encode_le (by omega))
  rw [hbody, value_encode]

/-- The packets of which the length is one byte. -/
theorem readPacket_short (first length : UInt8) (body : List UInt8) (h : length.toNat < 128)
    (hbody : body.length = length.toNat) (rest : List UInt8) :
    readPacket (first :: length :: body ++ rest) =
      (readBody first body).map fun packet => (packet, rest) := by
  apply readPacket_field first (.last h) (by simp)
  rw [hbody, value, value]
  omega

/-- What the payload announces. -/
def announced (p : ConnectPayload) : ConnectFlags where
  clean_session := p.clean_session
  hasWill := p.hasWill
  will_qos := if p.hasWill then p.will_qos else .AT_MOST_ONCE
  will_retain := p.hasWill && p.will_retain
  hasUsername := p.hasUsername
  hasPassword := p.hasPassword

theorem readFlags_connectFlags (p : ConnectPayload) : readFlags p.connectFlags =
    if (p.hasWill = true → p.will_qos ≠ .reserved) ∧ (p.hasPassword = true → p.hasUsername = true)
    then some (announced p) else none := by
  rw [ConnectPayload.connectFlags, announced]
  generalize p.hasWill = will, p.hasUsername = username, p.hasPassword = password
  generalize p.clean_session = clean, p.will_retain = retain, p.will_qos = qos
  cases qos <;> cases will <;> cases clean <;> cases retain <;> cases username <;>
    cases password <;> decide

theorem keepAlive_eq (v : UInt16) : [(v >>> 8).toUInt8, (v &&& 0xFF).toUInt8] = encodeBe16 v := by
  have range := v.toNat_lt
  have high : (v >>> 8).toUInt8 = (v >>> 8 &&& 0xFF).toUInt8 := by
    apply UInt8.toNat_inj.mp
    rw [UInt16.toNat_toUInt8, UInt16.toNat_toUInt8, UInt16.toNat_and]
    change _ = ((v >>> 8).toNat &&& (2 ^ 8 - 1)) % 256
    rw [Nat.and_two_pow_sub_one_eq_mod]
    omega
  rw [high, encodeBe16]

/-- The fields of the payload that the flags announce. -/
theorem body_eq (p : ConnectPayload) : p.body =
    0x00 :: 0x04 :: 0x4D :: 0x51 :: 0x54 :: 0x54 :: 0x04 :: p.connectFlags ::
      (encodeBe16 p.keep_alive ++ (encodeUtf8String p.client_id ++
        ((if p.hasWill then encodeUtf8String p.will_topic else []) ++
          ((if p.hasWill then encodeUtf8String p.will_message else []) ++
            ((if p.hasUsername then encodeUtf8String p.username else []) ++
              ((if p.hasPassword then encodeUtf8String p.password else []) ++ [])))))) := by
  rw [ConnectPayload.body, keepAlive_eq]
  cases p.hasWill with
  | true => simp
  | false => simp

/-- A text that is not announced is empty. -/
theorem announced_text (text : List UInt8) : (if decide (text ≠ []) then text else []) = text := by
  cases text with
  | nil => rfl
  | cons => rfl

theorem readConnectFields_eq {p : ConnectPayload} (fits : (ClientPacket.connect p).Fits) :
    readConnectFields (announced p) (encodeBe16 p.keep_alive ++ (encodeUtf8String p.client_id ++
        ((if p.hasWill then encodeUtf8String p.will_topic else []) ++
          ((if p.hasWill then encodeUtf8String p.will_message else []) ++
            ((if p.hasUsername then encodeUtf8String p.username else []) ++
              ((if p.hasPassword then encodeUtf8String p.password else []) ++ [])))))) =
      some (if p.hasWill then p
        else { p with will_message := [], will_qos := .AT_MOST_ONCE, will_retain := false }) := by
  obtain ⟨hclient, htopic, hmessage, husername, hpassword⟩ : p.client_id.length ≤ 65535 ∧
      p.will_topic.length ≤ 65535 ∧ p.will_message.length ≤ 65535 ∧ p.username.length ≤ 65535 ∧
      p.password.length ≤ 65535 := by
    simpa [ClientPacket.texts] using fits.texts
  have username : (if p.hasUsername then p.username else []) = p.username :=
    announced_text p.username
  have password : (if p.hasPassword then p.password else []) = p.password :=
    announced_text p.password
  have topic : (if p.hasWill then p.will_topic else []) = p.will_topic :=
    announced_text p.will_topic
  rw [readConnectFields, readNumber_encodeBe16]
  simp only [announced, Option.bind_eq_bind, Option.bind_some, readText_encode hclient,
    readTextIf_encode _ htopic, readTextIf_encode _ hmessage, readTextIf_encode _ husername,
    readTextIf_encode _ hpassword, username, password, topic, if_true]
  cases p.hasWill with
  | true => rfl
  | false => rfl

theorem readConnect_body {p : ConnectPayload} (fits : (ClientPacket.connect p).Fits) :
    (readConnect p.body).map .connect =
      if (ClientPacket.connect p).Legal then some (ClientPacket.connect p).sent else none := by
  have legal : (ClientPacket.connect p).Legal ↔
      (p.hasWill = true → p.will_qos ≠ .reserved) ∧ (p.hasPassword = true → p.hasUsername = true) := by
    simp [ClientPacket.Legal, ConnectPayload.hasWill, ConnectPayload.hasUsername,
      ConnectPayload.hasPassword]
  rw [body_eq, readConnect, readFlags_connectFlags]
  by_cases h : (ClientPacket.connect p).Legal
  · rw [if_pos h, if_pos (legal.mp h), Option.bind_eq_bind, Option.bind_some,
      readConnectFields_eq fits]
    rfl
  · rw [if_neg h, if_neg (mt legal.mpr h)]
    rfl

/-! ## The other bodies -/

theorem publishFlags (pub : PublishPacket) :
    pub.fixedByte >>> 4 = 3 ∧ (pub.fixedByte &&& 0x0F) >>> 1 &&& 0x03 = pub.qos.code ∧
      decide ((pub.fixedByte &&& 0x0F) &&& 0x08 ≠ 0) = pub.dup ∧
      decide ((pub.fixedByte &&& 0x0F) &&& 0x01 ≠ 0) = pub.retain := by
  rw [PublishPacket.fixedByte]
  cases pub.qos <;> cases pub.dup <;> cases pub.retain <;> decide

theorem readPublish_body {pub : PublishPacket} (fits : (ClientPacket.publish pub).Fits) :
    (readPublish (pub.fixedByte &&& 0x0F) pub.body).map .publish =
      if (ClientPacket.publish pub).Legal then some (ClientPacket.publish pub).sent else none := by
  have htopic : pub.topic.length ≤ 65535 := fits.texts pub.topic (List.mem_singleton_self _)
  have topic : readText pub.body = some (pub.topic,
      (if pub.qos ≠ .AT_MOST_ONCE then encodeBe16 pub.packet_id else []) ++ pub.payload) :=
    readText_encode htopic _
  obtain ⟨-, qos, dup, retain⟩ := publishFlags pub
  generalize pub.fixedByte = first at qos dup retain ⊢
  simp only [readPublish, qos, dup, retain, readQoS_code, topic]
  clear qos dup retain topic htopic fits
  obtain ⟨topic, payload, packet_id, qos, dup, retain⟩ := pub
  cases qos with
  | reserved => rfl
  | AT_MOST_ONCE =>
    cases dup with
    | true => rfl
    | false => rfl
  | AT_LEAST_ONCE | EXACTLY_ONCE =>
    by_cases hid : packet_id = 0
    · simp [readIdentifier_encodeBe16, hid, ClientPacket.Legal]
    · simp [readIdentifier_encodeBe16, hid, ClientPacket.Legal, ClientPacket.sent]

theorem readTopic_encode {t : SubscribeTopic} (h : t.topic.length ≤ 65535) (rest : List UInt8) :
    readTopic (encodeUtf8String t.topic ++ [t.qos.code] ++ rest) =
      (if t.qos ≠ .reserved then some t else none).map fun t => (t, rest) := by
  rw [readTopic, List.append_assoc, readText_encode h]
  simp only [Option.bind_eq_bind, Option.bind_some, List.singleton_append, readQoS_code]
  obtain ⟨topic, qos⟩ := t
  cases qos with
  | reserved => rfl
  | AT_MOST_ONCE | AT_LEAST_ONCE | EXACTLY_ONCE => rfl

theorem readItems_encode {α : Type} (read : List UInt8 → Option (α × List UInt8))
    (write : α → List UInt8) (legal : α → Prop) [DecidablePred legal] {items : List α}
    (hne : ∀ a ∈ items, write a ≠ [])
    (h : ∀ a ∈ items, ∀ rest, read (write a ++ rest) =
      (if legal a then some a else none).map fun a => (a, rest)) (id : UInt16) :
    readItems read (encodeBe16 id ++ items.flatMap write) =
      if id ≠ 0 ∧ items ≠ [] ∧ ∀ a ∈ items, legal a then some (id, items) else none := by
  rw [readItems, readIdentifier_encodeBe16]
  by_cases hid : id = 0
  · simp [hid]
  · have all := Items.readAll_flatMap hne h
    rw [Items.mapM_ite (f := fun a => a), List.map_id'] at all
    simp only [hid, if_false, Option.bind_eq_bind, Option.bind_some, all]
    by_cases hlegal : ∀ a ∈ items, legal a
    · rw [if_pos hlegal]
      cases items with
      | nil => simp
      | cons a items =>
        rw [if_pos ⟨hid, List.cons_ne_nil a items, hlegal⟩]
        rfl
    · rw [if_neg hlegal, if_neg fun legal => hlegal legal.2.2]
      rfl

/-- What the packets of these two kinds look like to the reader. -/
theorem topics_length (topics : List SubscribeTopic) :
    (topics.flatMap fun t => encodeUtf8String t.topic ++ [t.qos.code]).length =
      (topics.map fun t => 2 + t.topic.length + 1).sum := by
  induction topics with
  | nil => rfl
  | cons t topics ih =>
    rw [List.flatMap_cons, List.length_append, ih, List.map_cons, List.sum_cons]
    simp [encodeUtf8String, encodeBe16]
    omega

theorem texts_length (texts : List (List UInt8)) :
    (texts.flatMap encodeUtf8String).length = (texts.map fun t => 2 + t.length).sum := by
  induction texts with
  | nil => rfl
  | cons t texts ih =>
    rw [List.flatMap_cons, List.length_append, ih, List.map_cons, List.sum_cons]
    simp [encodeUtf8String, encodeBe16]
    omega

theorem connectBody_length (p : ConnectPayload) : p.body.length = p.remainingLength := by
  have text (t : List UInt8) : (encodeUtf8String t).length = 2 + t.length := by
    simp [encodeUtf8String, encodeBe16]
    omega
  simp only [ConnectPayload.body, ConnectPayload.remainingLength, List.length_append, text,
    apply_ite List.length, List.length_nil, List.length_cons]
  omega

theorem readBody_publish (pub : PublishPacket) (body : List UInt8) :
    readBody pub.fixedByte body = (readPublish (pub.fixedByte &&& 0x0F) body).map .publish := by
  have type := (publishFlags pub).1
  unfold readBody
  rw [type]
  rfl

/-- One packet, with whatever follows it. -/
theorem readPacket_build {p : ClientPacket} (fits : p.Fits) (rest : List UInt8) :
    readPacket (p.build ++ rest) =
      (if p.Legal then some p.sent else none).map fun packet => (packet, rest) := by
  cases p with
  | connect payload =>
    rw [← readConnect_body fits]
    exact readPacket_frame _ (connectBody_length payload) fits.total rest
  | publish pub =>
    rw [← readPublish_body fits, ← readBody_publish]
    exact readPacket_frame _ (body_length pub) fits.total rest
  | puback id | pubrec id | pubrel id | pubcomp id =>
    refine (readPacket_short _ 0x02 (encodeBe16 id) (by decide) rfl rest).trans
      (congrArg (Option.map fun packet => (packet, rest)) ?_)
    refine (congrArg (Option.map _) (readOnlyIdentifier_encodeBe16 id)).trans ?_
    by_cases hid : id = 0
    · simp [hid, ClientPacket.Legal]
    · simp [hid, ClientPacket.Legal, ClientPacket.sent]
  | subscribe id topics =>
    have htexts : ∀ t ∈ topics, t.topic.length ≤ 65535 := fun t ht =>
      fits.texts t.topic (List.mem_map_of_mem ht)
    have items := readItems_encode readTopic
      (fun t : SubscribeTopic => encodeUtf8String t.topic ++ [t.qos.code])
      (fun t => t.qos ≠ .reserved) (by simp)
      (fun t (ht : t ∈ topics) => readTopic_encode (htexts t ht)) id
    refine (readPacket_frame _ ?_ fits.total rest).trans
      (congrArg (Option.map fun packet => (packet, rest)) ?_)
    · rw [List.length_append, topics_length]
      rfl
    · refine (congrArg (Option.map _) items).trans ?_
      rw [apply_ite (Option.map _)]
      rfl
  | unsubscribe id topics =>
    have items := readItems_encode readText encodeUtf8String (fun _ => True)
      (by simp [encodeUtf8String, encodeBe16])
      (fun t (ht : t ∈ topics) => by
        rw [if_pos trivial]
        exact readText_encode (fits.texts t ht)) id
    refine (readPacket_frame _ ?_ fits.total rest).trans
      (congrArg (Option.map fun packet => (packet, rest)) ?_)
    · rw [List.length_append, texts_length]
      rfl
    · refine (congrArg (Option.map _) items).trans ?_
      by_cases hlegal : (ClientPacket.unsubscribe id topics).Legal
      · rw [if_pos hlegal, if_pos ⟨hlegal.1, hlegal.2, fun _ _ => trivial⟩]
        rfl
      · rw [if_neg hlegal, if_neg fun h => hlegal ⟨h.1, h.2.1⟩]
        rfl
  | pingreq | disconnect =>
    exact readPacket_short _ 0x00 [] (by decide) rfl rest

theorem build_ne_nil (p : ClientPacket) : p.build ≠ [] := by
  cases p <;> exact List.cons_ne_nil _ _

end Broker

/-- **What a broker reads.** However many packets a client writes one after the other, as long as
their lengths fit, the broker reads exactly these packets, or fails at one that the format does
not allow. -/
theorem readPackets_wire {packets : List ClientPacket} (fits : ∀ p ∈ packets, p.Fits) :
    Broker.readPackets (packets.flatMap ClientPacket.build) =
      if ∀ p ∈ packets, p.Legal then some (packets.map ClientPacket.sent) else none := by
  rw [← Items.mapM_ite]
  apply Items.readAll_flatMap
  · exact fun p _ => Broker.build_ne_nil p
  · exact fun p hp rest => Broker.readPacket_build (fits p hp) rest

/-- A session with a will that is kept, and a password. -/
def shortSession : List ClientPacket :=
  [.connect { client_id := Cpp.literal "meter-7", will_topic := Cpp.literal "gone",
              will_message := Cpp.literal "7", will_qos := .AT_LEAST_ONCE, will_retain := true,
              username := Cpp.literal "meter", password := Cpp.literal "secret" },
    .subscribe 1 [⟨Cpp.literal "orders/#", .EXACTLY_ONCE⟩], .publish sampleReading, .pubrec 9,
    .pingreq, .disconnect]

theorem readPackets_wire_shortSession :
    Broker.readPackets (shortSession.flatMap ClientPacket.build) =
      if ∀ p ∈ shortSession, p.Legal then some (shortSession.map ClientPacket.sent) else none := by
  apply readPackets_wire
  have fit : ∀ p ∈ shortSession, p.remainingLength ≤ 268435455 ∧
      ∀ text ∈ p.texts, text.length ≤ 65535 := by decide
  exact fun p hp => ⟨(fit p hp).1, (fit p hp).2⟩

end MidnightSdk.Protocols.Mqtt
