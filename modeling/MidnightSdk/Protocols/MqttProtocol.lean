import MidnightSdk.Library.Base128
import MidnightSdk.Library.Cpp
import MidnightSdk.Library.LittleEndian

/-!
# MQTT control packets

What is built for a PUBLISH, and what is read back from a packet. A length that
does not fit its 16 bits is cut off, and an incomplete packet is an error.
-/

namespace MidnightSdk.Protocols.Mqtt

open Base128 LittleEndian

/-- `reserved` is the value 0, which has no enumerator. -/
inductive PacketType where
  | reserved | CONNECT | CONNACK | PUBLISH | PUBACK | PUBREC | PUBREL | PUBCOMP
  | SUBSCRIBE | SUBACK | UNSUBSCRIBE | UNSUBACK | PINGREQ | PINGRESP | DISCONNECT | AUTH
  deriving DecidableEq, Repr

def PacketType.code (t : PacketType) : UInt8 := UInt8.ofNat t.ctorIdx

/-- `static_cast<PacketType>` of an upper nibble. -/
def PacketType.ofNibble (n : UInt8) : PacketType :=
  [.reserved, .CONNECT, .CONNACK, .PUBLISH, .PUBACK, .PUBREC, .PUBREL, .PUBCOMP,
    .SUBSCRIBE, .SUBACK, .UNSUBSCRIBE, .UNSUBACK, .PINGREQ, .PINGRESP, .DISCONNECT,
    .AUTH].getD n.toNat .reserved

/-- `reserved` is the value 3, which has no enumerator. -/
inductive QoS where
  | AT_MOST_ONCE | AT_LEAST_ONCE | EXACTLY_ONCE | reserved
  deriving DecidableEq, Repr

def QoS.code (q : QoS) : UInt8 := UInt8.ofNat q.ctorIdx

/-- `static_cast<QoS>` of two bits. -/
def QoS.ofBits (n : UInt8) : QoS :=
  [.AT_MOST_ONCE, .AT_LEAST_ONCE, .EXACTLY_ONCE, .reserved].getD n.toNat .reserved

structure PublishPacket where
  topic : List UInt8
  payload : List UInt8
  packet_id : UInt16 := 0
  qos : QoS := .AT_MOST_ONCE
  dup : Bool := false
  retain : Bool := false
  deriving DecidableEq, Repr

/-- Type and flags are unset while the error says that there is no packet. -/
structure ParsedPacket where
  type : PacketType := .reserved
  flags : UInt8 := 0
  payload : List UInt8 := []
  error : String := ""
  deriving DecidableEq, Repr

structure PublishData where
  topic : List UInt8 := []
  payload : List UInt8 := []
  packet_id : UInt16 := 0
  qos : QoS := .AT_MOST_ONCE
  dup : Bool := false
  retain : Bool := false
  deriving DecidableEq, Repr

/-! ## Numbers and strings -/

/-- The loop that writes a remaining length. -/
def encodeRemainingLength (rl : UInt32) : List UInt8 :=
  if rl / 128 > 0 then ((rl % 128).toUInt8 ||| 0x80) :: encodeRemainingLength (rl / 128)
  else [(rl % 128).toUInt8]
termination_by rl.toNat
decreasing_by
  rename_i h
  rw [gt_iff_lt, UInt32.lt_iff_toNat_lt] at h
  simp only [UInt32.toNat_div] at h ⊢
  change 0 < rl.toNat / 128 at h
  change rl.toNat / 128 < rl.toNat
  omega

/-- The loop of `decode_remaining_length`, after `i` bytes. -/
def decodeLoop : List UInt8 → Nat → UInt32 → UInt32 → Nat × UInt32
  | [], i, outLen, _ => (i, outLen)
  | byte :: rest, i, outLen, multiplier =>
    if i < 4 then
      if byte &&& 0x80 = 0 then (i + 1, outLen + (byte &&& 0x7F).toUInt32 * multiplier)
      else decodeLoop rest (i + 1) (outLen + (byte &&& 0x7F).toUInt32 * multiplier)
        (multiplier * 128)
    else (i, outLen)

/-- The number of bytes used, and the length. -/
def decodeRemainingLength (data : List UInt8) : Nat × UInt32 := decodeLoop data 0 0 1

def decodeBe16 (hi lo : UInt8) : UInt16 := hi.toUInt16 <<< 8 ||| lo.toUInt16

def encodeBe16 (value : UInt16) : List UInt8 :=
  [(value >>> 8 &&& 0xFF).toUInt8, (value &&& 0xFF).toUInt8]

def encodeUtf8String (str : List UInt8) : List UInt8 :=
  encodeBe16 (UInt16.ofNat str.length) ++ str

/-- The string, and the bytes the pointer is left at. -/
def decodeUtf8String : List UInt8 → List UInt8 × List UInt8
  | hi :: lo :: data =>
    if (decodeBe16 hi lo).toNat > data.length then ([], data)
    else (data.take (decodeBe16 hi lo).toNat, data.drop (decodeBe16 hi lo).toNat)
  | data => ([], data)

/-! ## Packets -/

def PublishPacket.fixedByte (pub : PublishPacket) : UInt8 :=
  PacketType.PUBLISH.code <<< 4 ||| (if pub.dup then (0x08 : UInt8) else 0) |||
    (if pub.retain then (0x01 : UInt8) else 0) ||| pub.qos.code <<< 1

def PublishPacket.remainingLength (pub : PublishPacket) : Nat :=
  2 + pub.topic.length + (if pub.qos ≠ .AT_MOST_ONCE then 2 else 0) + pub.payload.length

def buildPublishPacket (pub : PublishPacket) : List UInt8 :=
  pub.fixedByte :: (encodeRemainingLength (UInt32.ofNat pub.remainingLength) ++
    (encodeUtf8String pub.topic ++
      ((if pub.qos ≠ .AT_MOST_ONCE then encodeBe16 pub.packet_id else []) ++ pub.payload)))

def parsePacket : List UInt8 → ParsedPacket
  | first :: second :: rest =>
    let result : ParsedPacket :=
      { type := PacketType.ofNibble (first >>> 4), flags := first &&& 0x0F }
    let (rlBytes, remainingLength) := decodeRemainingLength (second :: rest)
    if rlBytes = 0 ∨ 1 + rlBytes + remainingLength.toNat > (first :: second :: rest).length then
      { result with error := "Invalid remaining length or incomplete packet" }
    else
      { result with
        payload := ((second :: rest).drop rlBytes).take remainingLength.toNat }
  | _ => { error := "Packet too small" }

def parsePublish (header : UInt8) (payload : List UInt8) : PublishData :=
  let result : PublishData :=
    { qos := QoS.ofBits (header >>> 1 &&& 0x03)
      dup := header &&& 0x08 ≠ 0
      retain := header &&& 0x01 ≠ 0 }
  if payload.length < 2 then result
  else
    let (topic, rest) := decodeUtf8String payload
    match result.qos, rest with
    | .AT_MOST_ONCE, rest => { result with topic := topic, payload := rest }
    | _, hi :: lo :: rest =>
      { result with topic := topic, packet_id := decodeBe16 hi lo, payload := rest }
    | _, rest => { result with topic := topic, payload := rest }

/-! ## The two loops over the length -/

theorem toNat_and_0x7F (b : UInt8) : (b &&& 0x7F).toNat = b.toNat % 128 := by
  rw [UInt8.toNat_and]
  exact Nat.and_two_pow_sub_one_eq_mod b.toNat 7

theorem and_0x80_eq_zero (b : UInt8) : b &&& 0x80 = 0 ↔ b.toNat < 128 := by
  revert b
  exact Cpp.forall_byte (by decide +kernel)

/-- What is written is the shortest form. -/
theorem encodeRemainingLength_eq (rl : UInt32) : encodeRemainingLength rl = encode rl.toNat := by
  induction h : rl.toNat using Nat.strongRecOn generalizing rl with
  | ind n ih =>
    have low : (rl % 128).toNat = n % 128 := by rw [UInt32.toNat_mod, h]; rfl
    have high : (rl / 128).toNat = n / 128 := by rw [UInt32.toNat_div, h]; rfl
    have goesOn : rl / 128 > 0 ↔ 128 ≤ n := by
      rw [gt_iff_lt, UInt32.lt_iff_toNat_lt, high]
      change 0 < n / 128 ↔ _
      omega
    rw [encodeRemainingLength, encode]
    by_cases hn : n < 128
    · rw [if_neg (by rw [goesOn]; omega), if_pos hn]
      congr 1
      apply UInt8.toNat_inj.mp
      rw [UInt32.toNat_toUInt8, low, UInt8.toNat_ofNat']
      omega
    · rw [if_pos (by rw [goesOn]; omega), if_neg hn, ih (n / 128) (by omega) _ high]
      congr 1
      apply UInt8.toNat_inj.mp
      have below : n % 128 < 2 ^ 7 := Nat.mod_lt n (by decide)
      have top := Nat.two_pow_add_eq_or_of_lt below 1
      rw [UInt8.toNat_or, UInt32.toNat_toUInt8, low, UInt8.toNat_ofNat']
      change n % 128 % 256 ||| 128 = (n % 128 + 128) % 256
      rw [Nat.mod_eq_of_lt (show n % 128 < 256 by omega), Nat.or_comm, ← top]
      omega

theorem digit_eq (b : UInt8) : (b &&& 0x7F).toUInt32 = UInt32.ofNat (b.toNat % 128) := by
  apply UInt32.toNat_inj.mp
  rw [UInt8.toNat_toUInt32, toNat_and_0x7F, UInt32.toNat_ofNat']
  omega

/-- Bytes that go on are counted, and the loop stands behind them. -/
theorem decodeLoop_more {field : List UInt8} (more : ∀ b ∈ field, 128 ≤ b.toNat) (tail : List UInt8)
    {i : Nat} (hi : i + field.length ≤ 4) (outLen multiplier : UInt32) :
    decodeLoop (field ++ tail) i outLen multiplier =
      decodeLoop tail (i + field.length) (outLen + UInt32.ofNat (value field) * multiplier)
        (UInt32.ofNat (128 ^ field.length) * multiplier) := by
  induction field generalizing i outLen multiplier with
  | nil => simp [value]
  | cons b bs ih =>
    obtain ⟨hb, hbs⟩ := List.forall_mem_cons.mp more
    rw [List.length_cons] at hi ⊢
    have goesOn : ¬ b &&& 0x80 = 0 := by
      rw [and_0x80_eq_zero]
      omega
    rw [List.cons_append, decodeLoop, if_pos (by omega), if_neg goesOn, ih hbs (by omega), digit_eq,
      value, UInt32.ofNat_add, UInt32.ofNat_mul, Nat.pow_succ, UInt32.ofNat_mul]
    change decodeLoop tail _ (_ + UInt32.ofNat (value bs) * (multiplier * 128))
        (UInt32.ofNat (128 ^ bs.length) * (multiplier * 128)) =
      decodeLoop tail _ (outLen + (UInt32.ofNat (b.toNat % 128) + 128 * UInt32.ofNat (value bs)) *
        multiplier) (UInt32.ofNat (128 ^ bs.length) * 128 * multiplier)
    congr 1
    · omega
    · grind
    · grind

/-- The reader accepts any terminated length of at most four bytes. -/
theorem decodeLoop_terminated {field : List UInt8} (h : Terminated field) (tail : List UInt8)
    {i : Nat} (hi : i + field.length ≤ 4) (outLen multiplier : UInt32) :
    decodeLoop (field ++ tail) i outLen multiplier =
      (i + field.length, outLen + UInt32.ofNat (value field) * multiplier) := by
  obtain ⟨more, b, rfl, last, hmore⟩ := h.eq_concat
  rw [List.length_append, List.length_singleton] at hi ⊢
  rw [List.append_assoc, List.singleton_append, decodeLoop_more hmore _ (by omega), decodeLoop,
    if_pos (by omega), if_pos ((and_0x80_eq_zero b).mpr last), digit_eq, value_append,
    UInt32.ofNat_add, UInt32.ofNat_mul]
  simp only [value, Nat.mul_zero, Nat.add_zero]
  congr 1
  grind

theorem decodeRemainingLength_terminated {field : List UInt8} (h : Terminated field)
    (hlen : field.length ≤ 4) (tail : List UInt8) :
    decodeRemainingLength (field ++ tail) = (field.length, UInt32.ofNat (value field)) := by
  rw [decodeRemainingLength, decodeLoop_terminated h tail (by omega), Nat.zero_add, UInt32.zero_add,
    UInt32.mul_one]

/-! ## Reading a packet -/

/-- With a terminated length in front, the body is cut to that length, and one that is
shorter is an error. -/
theorem parsePacket_field (first : UInt8) {field : List UInt8} (h : Terminated field)
    (hlen : field.length ≤ 4) (body : List UInt8) :
    parsePacket (first :: (field ++ body)) =
      if value field > body.length then
        { type := PacketType.ofNibble (first >>> 4), flags := first &&& 0x0F,
          error := "Invalid remaining length or incomplete packet" }
      else
        { type := PacketType.ofNibble (first >>> 4), flags := first &&& 0x0F,
          payload := body.take (value field) } := by
  have decoded := decodeRemainingLength_terminated h hlen body
  have small : (UInt32.ofNat (value field)).toNat = value field := by
    have below := value_lt field
    have widest := Nat.pow_le_pow_right (show 0 < 128 by decide) hlen
    rw [UInt32.toNat_ofNat']
    omega
  have cut : (field ++ body).drop field.length = body := List.drop_left' rfl
  have total : (field ++ body).length = field.length + body.length := List.length_append
  have positive := h.length_pos
  cases hbytes : field ++ body with
  | nil =>
    rw [hbytes] at total
    rw [List.length_nil] at total
    omega
  | cons second rest =>
    rw [hbytes] at decoded cut total
    have short : (field.length = 0 ∨ 1 + field.length + value field >
        (first :: second :: rest).length) ↔ value field > body.length := by
      rw [List.length_cons, total]
      omega
    simp only [parsePacket, decoded, small, short, cut]

theorem parsePacket_of_length (first : UInt8) {field : List UInt8} (h : Terminated field)
    (hlen : field.length ≤ 4) {body : List UInt8} (hbody : value field = body.length) :
    parsePacket (first :: (field ++ body)) =
      { type := PacketType.ofNibble (first >>> 4), flags := first &&& 0x0F, payload := body } := by
  rw [parsePacket_field first h hlen, hbody, if_neg (Nat.lt_irrefl _), List.take_length]

/-! ## Sixteen bits -/

theorem decodeBe16_encodeBe16 (v : UInt16) :
    decodeBe16 (v >>> 8 &&& 0xFF).toUInt8 (v &&& 0xFF).toUInt8 = v := by
  have range := v.toNat_lt
  have low : (v &&& 0xFF).toNat = v.toNat % 256 := by
    rw [UInt16.toNat_and]
    exact Nat.and_two_pow_sub_one_eq_mod v.toNat 8
  have high : (v >>> 8 &&& 0xFF).toNat = v.toNat / 256 := by
    rw [UInt16.toNat_and, UInt16.toNat_shiftRight]
    change v.toNat >>> 8 &&& (2 ^ 8 - 1) = _
    rw [Nat.and_two_pow_sub_one_eq_mod, Nat.shiftRight_eq_div_pow]
    omega
  have hi : (v >>> 8 &&& 0xFF).toUInt8.toNat = v.toNat / 256 := by
    rw [UInt16.toNat_toUInt8, high]
    omega
  have lo : (v &&& 0xFF).toUInt8.toNat = v.toNat % 256 := by
    rw [UInt16.toNat_toUInt8, low]
    omega
  apply UInt16.toNat_inj.mp
  rw [decodeBe16, UInt16.toNat_or, UInt16.toNat_shiftLeft, UInt8.toNat_toUInt16,
    UInt8.toNat_toUInt16, hi, lo]
  change (v.toNat / 256) <<< 8 % 2 ^ 16 ||| v.toNat % 256 = v.toNat
  have below : v.toNat % 256 < 2 ^ 8 := Nat.mod_lt _ (by decide)
  have fits : (v.toNat / 256) <<< 8 < 2 ^ 16 := by
    rw [Nat.shiftLeft_eq]
    omega
  rw [Nat.mod_eq_of_lt fits, Nat.or_comm, or_shiftLeft below]
  omega

theorem decodeUtf8String_encode {str : List UInt8} (h : str.length < 2 ^ 16) (rest : List UInt8) :
    decodeUtf8String (encodeUtf8String str ++ rest) = (str, rest) := by
  have len : (UInt16.ofNat str.length).toNat = str.length := by
    rw [UInt16.toNat_ofNat']
    omega
  have enough : ¬ str.length > (str ++ rest).length := by
    rw [List.length_append]
    omega
  simp only [encodeUtf8String, encodeBe16, List.cons_append, List.nil_append, decodeUtf8String,
    decodeBe16_encodeBe16, len, if_neg enough, List.take_left', List.drop_left']

/-! ## A PUBLISH read back -/

theorem fixedByte_type (pub : PublishPacket) :
    PacketType.ofNibble (pub.fixedByte >>> 4) = .PUBLISH := by
  rw [PublishPacket.fixedByte]
  cases pub.qos <;> cases pub.dup <;> cases pub.retain <;> decide

theorem fixedByte_flags (pub : PublishPacket) :
    QoS.ofBits ((pub.fixedByte &&& 0x0F) >>> 1 &&& 0x03) = pub.qos ∧
      decide ((pub.fixedByte &&& 0x0F) &&& 0x08 ≠ 0) = pub.dup ∧
      decide ((pub.fixedByte &&& 0x0F) &&& 0x01 ≠ 0) = pub.retain := by
  rw [PublishPacket.fixedByte]
  cases pub.qos <;> cases pub.dup <;> cases pub.retain <;> decide

/-- Behind the fixed header stand topic, identifier and payload. -/
def PublishPacket.body (pub : PublishPacket) : List UInt8 :=
  encodeUtf8String pub.topic ++
    ((if pub.qos ≠ .AT_MOST_ONCE then encodeBe16 pub.packet_id else []) ++ pub.payload)

theorem body_length (pub : PublishPacket) : pub.body.length = pub.remainingLength := by
  have two (v : UInt16) : (encodeBe16 v).length = 2 := rfl
  simp only [PublishPacket.body, PublishPacket.remainingLength, encodeUtf8String, List.length_append,
    apply_ite List.length, two, List.length_nil]
  omega

theorem parsePacket_build {pub : PublishPacket} (h : pub.remainingLength ≤ 268435455) :
    parsePacket (buildPublishPacket pub) =
      { type := .PUBLISH, flags := pub.fixedByte &&& 0x0F, payload := pub.body } := by
  have small : (UInt32.ofNat pub.remainingLength).toNat = pub.remainingLength := by
    rw [UInt32.toNat_ofNat']
    omega
  have width : (encode pub.remainingLength).length ≤ 4 := length_encode_le (by omega)
  rw [buildPublishPacket, ← PublishPacket.body, encodeRemainingLength_eq, small,
    parsePacket_of_length _ (terminated_encode _) width
      ((value_encode _).trans (body_length pub).symm), fixedByte_type]

theorem parsePublish_body {pub : PublishPacket} (h : pub.topic.length ≤ 65535) :
    parsePublish (pub.fixedByte &&& 0x0F) pub.body =
      { topic := pub.topic, payload := pub.payload,
        packet_id := if pub.qos ≠ .AT_MOST_ONCE then pub.packet_id else 0,
        qos := pub.qos, dup := pub.dup, retain := pub.retain } := by
  obtain ⟨hqos, hdup, hretain⟩ := fixedByte_flags pub
  have long : ¬ pub.body.length < 2 := by
    rw [body_length, PublishPacket.remainingLength]
    omega
  have read := decodeUtf8String_encode (Nat.lt_succ_of_le h)
    ((if pub.qos ≠ .AT_MOST_ONCE then encodeBe16 pub.packet_id else []) ++ pub.payload)
  rw [parsePublish, if_neg long, PublishPacket.body, read, hqos, hdup, hretain]
  cases hq : pub.qos with
  | AT_MOST_ONCE => rfl
  | AT_LEAST_ONCE | EXACTLY_ONCE | reserved =>
    simp only [ne_eq, reduceCtorEq, not_false_eq_true, if_true, encodeBe16, List.cons_append,
      List.nil_append, decodeBe16_encodeBe16]

/-- **A PUBLISH is read back as it was built**, with one to four bytes of length. -/
theorem publish_read_back (p : PublishPacket) (htopic : p.topic.length ≤ 65535)
    (htotal : p.remainingLength ≤ 268435455) :
    let packet := parsePacket (buildPublishPacket p)
    let data := parsePublish packet.flags packet.payload
    packet.error = "" ∧ data.topic = p.topic ∧ data.payload = p.payload ∧ data.qos = p.qos ∧
      data.dup = p.dup ∧ data.retain = p.retain ∧
      (p.qos ≠ .AT_MOST_ONCE → data.packet_id = p.packet_id) := by
  simp only [parsePacket_build htotal, parsePublish_body htopic]
  refine ⟨trivial, trivial, trivial, trivial, trivial, trivial, ?_⟩
  intro hqos
  exact if_pos hqos

/-- A retained reading, sent again with its identifier. -/
def sampleReading : PublishPacket :=
  { topic := Cpp.literal "house/temperature", payload := Cpp.literal "21.5",
    packet_id := 258, qos := .AT_LEAST_ONCE, dup := true, retain := true }

theorem publish_read_back_sampleReading :
    let packet := parsePacket (buildPublishPacket sampleReading)
    let data := parsePublish packet.flags packet.payload
    packet.error = "" ∧ data.topic = sampleReading.topic ∧ data.payload = sampleReading.payload ∧
      data.qos = sampleReading.qos ∧ data.dup = sampleReading.dup ∧
      data.retain = sampleReading.retain ∧
      (sampleReading.qos ≠ .AT_MOST_ONCE → data.packet_id = sampleReading.packet_id) :=
  publish_read_back sampleReading (by decide) (by decide)

end MidnightSdk.Protocols.Mqtt
