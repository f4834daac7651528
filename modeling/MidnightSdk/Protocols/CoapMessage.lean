import MidnightSdk.Library.DeltaOptions
import MidnightSdk.Library.LittleEndian

/-!
# CoAP messages

The parser takes the header and the token and hands what is left to
`parse_options`, which takes it for a whole message: it jumps over a header and a
token once more before it reads an option.
-/

namespace MidnightSdk.Protocols.Coap

open DeltaOptions LittleEndian

inductive MessageType where
  | CON | NON | ACK | RST
  deriving DecidableEq, Repr

def MessageType.code (t : MessageType) : UInt8 := UInt8.ofNat t.ctorIdx

/-- `static_cast<MessageType>` of two bits. -/
def MessageType.ofBits (n : UInt8) : MessageType :=
  [.CON, .NON, .ACK, .RST].getD n.toNat .RST

def PAYLOAD_MARKER : UInt8 := 0xFF

def COAP_VERSION : UInt8 := 1

def COAP_HEADER_SIZE : Nat := 4

structure CoapOption where
  number : UInt16
  value : List UInt8
  deriving DecidableEq, Repr

structure CoapMessage where
  version : UInt8 := 0
  type : MessageType := .NON
  code : UInt8 := 0
  message_id : UInt16 := 0
  token : List UInt8 := []
  options : List CoapOption := []
  payload : List UInt8 := []
  deriving DecidableEq, Repr

/-! ## Writing an option -/

/-- The first byte with the upper half set, and the extended delta. -/
def encodeDelta (delta : UInt16) : List UInt8 :=
  if delta < 13 then [(delta <<< 4).toUInt8]
  else if delta < 269 then [(13 : UInt8) <<< 4, (delta - 13).toUInt8]
  else [(14 : UInt8) <<< 4, ((delta - 269) >>> 8).toUInt8, ((delta - 269) &&& 0xFF).toUInt8]

/-- The lower half of the first byte, and the extended length. A length that does
not fit its two bytes is cut off. -/
def encodeLength (opt : List UInt8) (len : Nat) : List UInt8 :=
  if len < 13 then opt.modifyHead (· ||| UInt8.ofNat len)
  else if len < 269 then opt.modifyHead (· ||| 13) ++ [UInt8.ofNat (len - 13)]
  else
    opt.modifyHead (· ||| 14) ++
      [UInt8.ofNat ((len - 269) >>> 8), UInt8.ofNat ((len - 269) &&& 0xFF)]

def encodeOption (optionNumber : UInt16) (value : List UInt8) : List UInt8 :=
  encodeLength (encodeDelta optionNumber) value.length ++ value

/-- The length that reaches the bytes. -/
def written (len : Nat) : Nat := if len < 269 then len else 269 + (len - 269) % 65536

theorem written_le (len : Nat) : written len ≤ len := by
  unfold written
  split <;> omega

theorem written_le_greatest (len : Nat) : written len ≤ greatest := by
  unfold written greatest
  split <;> omega

theorem written_eq_iff {len : Nat} : written len = len ↔ len ≤ greatest := by
  unfold written greatest
  split <;> omega

theorem or_nibble {high low : Nat} (hhigh : high < 16) (hlow : low < 16) :
    UInt8.ofNat (16 * high) ||| UInt8.ofNat low = UInt8.ofNat (16 * high + low) := by
  have both := or_shiftLeft (show low < 2 ^ 4 by omega) high
  rw [Nat.shiftLeft_eq, Nat.or_comm] at both
  have sum : 16 * high ||| low = 16 * high + low := by
    rw [show 16 * high = high * 2 ^ 4 by omega, both]
    omega
  rw [← UInt8.toNat_inj, UInt8.toNat_or, UInt8.toNat_ofNat', UInt8.toNat_ofNat',
    UInt8.toNat_ofNat', Nat.mod_eq_of_lt (by omega), Nat.mod_eq_of_lt (by omega),
    Nat.mod_eq_of_lt (by omega), sum]

theorem encodeDelta_eq (delta : UInt16) :
    encodeDelta delta = UInt8.ofNat (16 * nibble delta.toNat) :: extension delta.toNat := by
  have range := delta.toNat_lt
  have lt13 : delta < 13 ↔ delta.toNat < 13 := UInt16.lt_iff_toNat_lt
  have lt269 : delta < 269 ↔ delta.toNat < 269 := UInt16.lt_iff_toNat_lt
  simp only [encodeDelta, nibble, extension, lt13, lt269]
  split
  · have low : (delta <<< 4).toUInt8 = UInt8.ofNat (16 * delta.toNat) := by
      rw [← UInt8.toNat_inj]
      simp [Nat.shiftLeft_eq]
      omega
    rw [low]
  · split
    · have step : (delta - 13).toNat = delta.toNat - 13 := by
        refine UInt16.toNat_sub_of_le delta 13 (UInt16.le_iff_toNat_le.mpr ?_)
        change 13 ≤ delta.toNat
        omega
      have low : (delta - 13).toUInt8 = UInt8.ofNat (delta.toNat - 13) := by
        rw [← UInt8.toNat_inj, UInt16.toNat_toUInt8, step, UInt8.toNat_ofNat']
      rw [low]
      rfl
    · have step : (delta - 269).toNat = delta.toNat - 269 := by
        refine UInt16.toNat_sub_of_le delta 269 (UInt16.le_iff_toNat_le.mpr ?_)
        change 269 ≤ delta.toNat
        omega
      have high : ((delta - 269) >>> 8).toUInt8 = UInt8.ofNat ((delta.toNat - 269) / 256) := by
        rw [← UInt8.toNat_inj, UInt16.toNat_toUInt8, UInt16.toNat_shiftRight, step,
          UInt8.toNat_ofNat']
        exact congrArg (· % 2 ^ 8) (Nat.shiftRight_eq_div_pow (delta.toNat - 269) 8)
      have low : ((delta - 269) &&& 0xFF).toUInt8 = UInt8.ofNat ((delta.toNat - 269) % 256) := by
        rw [← UInt8.toNat_inj, UInt16.toNat_toUInt8, UInt16.toNat_and, step, UInt8.toNat_ofNat']
        exact congrArg (· % 2 ^ 8) (Nat.and_two_pow_sub_one_eq_mod (delta.toNat - 269) 8)
      rw [high, low]
      rfl

theorem encodeLength_eq {high : Nat} (hhigh : high < 16) (ext : List UInt8) (len : Nat) :
    encodeLength (UInt8.ofNat (16 * high) :: ext) len =
      UInt8.ofNat (16 * high + nibble (written len)) :: (ext ++ extension (written len)) := by
  by_cases short : len < 13
  · rw [encodeLength, if_pos short, List.modifyHead_cons, or_nibble hhigh (by omega), written,
      if_pos (by omega), nibble, if_pos short, extension, if_pos short, List.append_nil]
  · by_cases one : len < 269
    · have byte := or_nibble hhigh (show 13 < 16 by decide)
      rw [encodeLength, if_neg short, if_pos one, List.modifyHead_cons, written, if_pos one,
        nibble, if_neg short, if_pos one, extension, if_neg short, if_pos one, ← byte]
      rfl
    · have byte := or_nibble hhigh (show 14 < 16 by decide)
      have upper : UInt8.ofNat ((len - 269) >>> 8) = UInt8.ofNat ((len - 269) % 65536 / 256) := by
        rw [← UInt8.toNat_inj, UInt8.toNat_ofNat', UInt8.toNat_ofNat', Nat.shiftRight_eq_div_pow]
        omega
      have lower : (len - 269) &&& 0xFF = (len - 269) % 65536 % 256 := by
        rw [Nat.mod_mod_of_dvd _ (by decide)]
        exact Nat.and_two_pow_sub_one_eq_mod (len - 269) 8
      rw [encodeLength, if_neg short, if_neg one, List.modifyHead_cons, written, if_neg one,
        nibble, if_neg (by omega), if_neg (by omega), extension, if_neg (by omega),
        if_neg (by omega), Nat.add_sub_cancel_left, ← byte, upper, lower]
      rfl

/-- An option is written with its number as the step, and the length cut to two bytes. -/
theorem encodeOption_eq (number : UInt16) (value : List UInt8) :
    encodeOption number value =
      head number.toNat (written value.length) ::
        (extension number.toNat ++ (extension (written value.length) ++ value)) := by
  have small := nibble_lt number.toNat
  rw [encodeOption, encodeDelta_eq, encodeLength_eq (by omega), List.cons_append,
    List.append_assoc]
  rfl

/-! ## Reading options -/

/-- The position behind the extended delta of an option with `len` bytes left. -/
def deltaEnd (deltaNibble : UInt8) (len : Nat) : Option Nat :=
  if deltaNibble = 13 then if 1 ≥ len then none else some 2
  else if deltaNibble = 14 then if 1 + 1 ≥ len then none else some 3
  else some 1

/-- The length of the value, and the position behind the extended length. -/
def optionLength (data : List UInt8) (lengthNibble : UInt8) (pos : Nat) : Option (Nat × Nat) :=
  if lengthNibble = 13 then
    if pos ≥ data.length then none else some (13 + (data.getD pos 0).toNat, pos + 1)
  else if lengthNibble = 14 then
    if pos + 1 ≥ data.length then none
    else some (269 + (data.getD pos 0).toNat * 256 + (data.getD (pos + 1) 0).toNat, pos + 2)
  else some (lengthNibble.toNat, pos)

/-- The value of the first option and the bytes consumed, none where it is cut off. -/
def decodeOptionValue (data : List UInt8) : List UInt8 × Nat :=
  if data.length = 0 then ([], 0)
  else
    let firstByte := data.getD 0 0
    match deltaEnd (firstByte >>> 4 &&& 0x0F) data.length with
    | none => ([], 0)
    | some pos =>
      match optionLength data (firstByte &&& 0x0F) pos with
      | none => ([], 0)
      | some (optLen, pos) =>
        if pos + optLen > data.length then ([], 0)
        else ((data.drop pos).take optLen, pos + optLen)

/-- The delta of the option the bytes start with, in 16 bits. -/
def headerDelta (data : List UInt8) : UInt16 :=
  let nibble := data.getD 0 0 >>> 4 &&& 0x0F
  if nibble = 13 then
    if 1 < data.length then 13 + (data.getD 1 0).toUInt16 else nibble.toUInt16
  else if nibble = 14 then
    if 2 < data.length then
      269 + ((data.getD 1 0).toUInt16 <<< (8 : UInt16)) + (data.getD 2 0).toUInt16
    else nibble.toUInt16
  else nibble.toUInt16

/-- The `while` loop of `parse_options`, on the bytes from `pos` on. -/
def optionLoop (prevOption : UInt16) (data : List UInt8) : List CoapOption :=
  if data.length = 0 ∨ data.getD 0 0 = PAYLOAD_MARKER then []
  else if (decodeOptionValue data).2 = 0 then []
  else
    ⟨prevOption + headerDelta data, (decodeOptionValue data).1⟩ ::
      optionLoop (prevOption + headerDelta data) (data.drop (decodeOptionValue data).2)
termination_by data.length
decreasing_by
  rw [List.length_drop]
  omega

/-- The options and `header_size`. -/
def parseOptions (data : List UInt8) : List CoapOption × Nat :=
  if data.length < COAP_HEADER_SIZE then ([], COAP_HEADER_SIZE)
  else
    let headerSize := COAP_HEADER_SIZE + (data.getD 0 0 &&& 0x0F).toNat
    (optionLoop 0 (data.drop headerSize), headerSize)

/-! ## Reading a message -/

/-- What is left of `out` is there after a message that is refused, too. -/
def parseMessage (data : List UInt8) (out : CoapMessage) : Bool × CoapMessage :=
  if data.length < COAP_HEADER_SIZE then (false, out)
  else
    let first := data.getD 0 0
    let tokenLen := (first &&& 0x0F).toNat
    let out := { out with
      version := first >>> 6 &&& 0x03
      type := MessageType.ofBits (first >>> 4 &&& 0x03)
      code := data.getD 1 0
      message_id := (data.getD 2 0).toUInt16 <<< 8 ||| (data.getD 3 0).toUInt16 }
    if out.version ≠ COAP_VERSION then (false, out)
    else
      let pos := COAP_HEADER_SIZE
      let (token, pos) :=
        if tokenLen > 0 ∧ pos + tokenLen ≤ data.length then
          ((data.drop pos).take tokenLen, pos + tokenLen)
        else (out.token, pos)
      let (options, headerEnd) := parseOptions (data.drop pos)
      let pos := pos + headerEnd
      let pos := if pos < data.length ∧ data.getD pos 0 = PAYLOAD_MARKER then pos + 1 else pos
      let payload := if pos < data.length then data.drop pos else out.payload
      (true, { out with token, options, payload })

/-! ## Messages on the wire -/

theorem toNat_high (b : UInt8) : (b >>> 4 &&& 0x0F).toNat = b.toNat / 16 := by
  have small : b.toNat < 256 := b.toNat_lt
  rw [UInt8.toNat_and, UInt8.toNat_shiftRight]
  change b.toNat >>> 4 &&& 2 ^ 4 - 1 = _
  rw [Nat.and_two_pow_sub_one_eq_mod, Nat.shiftRight_eq_div_pow]
  omega

theorem toNat_low (b : UInt8) : (b &&& 0x0F).toNat = b.toNat % 16 := by
  rw [UInt8.toNat_and]
  change b.toNat &&& 2 ^ 4 - 1 = _
  rw [Nat.and_two_pow_sub_one_eq_mod]

theorem parsed_header (type : MessageType) {length : Nat} (short : length ≤ 8) :
    UInt8.ofNat (64 + 16 * type.ctorIdx + length) >>> 6 &&& 0x03 = COAP_VERSION ∧
      MessageType.ofBits (UInt8.ofNat (64 + 16 * type.ctorIdx + length) >>> 4 &&& 0x03) = type ∧
      (UInt8.ofNat (64 + 16 * type.ctorIdx + length) &&& 0x0F).toNat = length := by
  have every : ∀ n < 9,
      UInt8.ofNat (64 + 16 * type.ctorIdx + n) >>> 6 &&& 0x03 = COAP_VERSION ∧
        MessageType.ofBits (UInt8.ofNat (64 + 16 * type.ctorIdx + n) >>> 4 &&& 0x03) = type ∧
        (UInt8.ofNat (64 + 16 * type.ctorIdx + n) &&& 0x0F).toNat = n := by
    cases type <;> decide
  exact every length (by omega)

theorem parsed_message_id (id : UInt16) :
    (UInt8.ofNat (id.toNat / 256)).toUInt16 <<< 8 ||| (UInt8.ofNat (id.toNat % 256)).toUInt16 =
      id := by
  have range := id.toNat_lt
  have high : (UInt8.ofNat (id.toNat / 256)).toNat = id.toNat / 256 := by
    rw [UInt8.toNat_ofNat']
    omega
  have low : (UInt8.ofNat (id.toNat % 256)).toNat = id.toNat % 256 := by
    rw [UInt8.toNat_ofNat']
    omega
  apply UInt16.toNat_inj.mp
  rw [UInt16.toNat_or, UInt16.toNat_shiftLeft, UInt8.toNat_toUInt16, UInt8.toNat_toUInt16, high,
    low]
  change (id.toNat / 256) <<< 8 % 2 ^ 16 ||| id.toNat % 256 = id.toNat
  have below : id.toNat % 256 < 2 ^ 8 := Nat.mod_lt _ (by decide)
  have fits : (id.toNat / 256) <<< 8 < 2 ^ 16 := by
    rw [Nat.shiftLeft_eq]
    omega
  rw [Nat.mod_eq_of_lt fits, Nat.or_comm, or_shiftLeft below]
  omega

/-- A message of the protocol, with what its layout asks of it. -/
structure WireMessage where
  type : MessageType
  code : UInt8
  messageId : UInt16
  token : List UInt8
  options : List CoapOption
  payload : List UInt8
  token_le : token.length ≤ 8
  ascending : options.Pairwise fun a b => a.number ≤ b.number
  value_le : ∀ o ∈ options, o.value.length ≤ greatest

def CoapOption.numbered (o : CoapOption) : Numbered := ⟨o.number.toNat, o.value⟩

namespace WireMessage

variable (m : WireMessage)

/-- Version 1, the type and the length of the token. -/
def first : UInt8 := UInt8.ofNat (64 + 16 * m.type.ctorIdx + m.token.length)

def optionBytes : List UInt8 := encode 0 (m.options.map CoapOption.numbered)

/-- What stands behind the token. -/
def body : List UInt8 := m.optionBytes ++ marked m.payload

def bytes : List UInt8 :=
  m.first :: m.code :: UInt8.ofNat (m.messageId.toNat / 256) ::
    UInt8.ofNat (m.messageId.toNat % 256) :: (m.token ++ m.body)

/-- The message as the parser should leave it. -/
def message : CoapMessage where
  version := COAP_VERSION
  type := m.type
  code := m.code
  message_id := m.messageId
  token := m.token
  options := m.options
  payload := m.payload

theorem writable_of_ascending {options : List CoapOption} {prev : UInt16}
    (above : ∀ o ∈ options, prev ≤ o.number)
    (ascending : options.Pairwise fun a b => a.number ≤ b.number)
    (short : ∀ o ∈ options, o.value.length ≤ greatest) :
    Writable prev.toNat (options.map CoapOption.numbered) := by
  induction options generalizing prev with
  | nil => exact .nil
  | cons o options ih =>
    obtain ⟨first, rest⟩ := List.pairwise_cons.mp ascending
    have number : o.number.toNat < 2 ^ 16 := o.number.toNat_lt
    refine .cons (UInt16.le_iff_toNat_le.mp (above o List.mem_cons_self)) ?_
      (short o List.mem_cons_self) ?_
    · simp only [CoapOption.numbered, greatest]
      omega
    · exact ih first rest fun x hx => short x (List.mem_cons_of_mem o hx)

/-- A reader of the layout finds the options and the payload in the body. -/
theorem read_body : read 0 m.body = some (m.options.map CoapOption.numbered, m.payload) :=
  read_encode (writable_of_ascending (fun _ _ => UInt16.zero_le) m.ascending m.value_le) m.payload

end WireMessage

/-- What a reader of the layout finds in a message. -/
structure Contents where
  type : MessageType
  code : UInt8
  messageId : UInt16
  token : List UInt8
  options : List Numbered
  payload : List UInt8
  deriving DecidableEq, Repr

/-- Version 1 and a token of at most eight bytes, then the body. -/
def readContents : List UInt8 → Option Contents
  | first :: code :: high :: low :: rest =>
    if first.toNat / 64 = 1 ∧ first.toNat % 16 ≤ 8 ∧ first.toNat % 16 ≤ rest.length then
      (read 0 (rest.drop (first.toNat % 16))).map fun r =>
        { type := MessageType.ofBits (first >>> 4 &&& 0x03)
          code := code
          messageId := high.toUInt16 <<< 8 ||| low.toUInt16
          token := rest.take (first.toNat % 16)
          options := r.1
          payload := r.2 }
    else none
  | _ => none

/-- A message of the protocol is read as what it holds. -/
theorem WireMessage.read_bytes (m : WireMessage) : readContents m.bytes =
    some ⟨m.type, m.code, m.messageId, m.token, m.options.map CoapOption.numbered, m.payload⟩ := by
  obtain ⟨-, type, tokenLen⟩ := parsed_header m.type m.token_le
  have small := m.token_le
  have version : m.first.toNat / 64 = 1 := by
    have range : m.type.ctorIdx < 4 := by cases m.type <;> decide
    rw [first, UInt8.toNat_ofNat']
    omega
  rw [toNat_low] at tokenLen
  change m.first.toNat % 16 = m.token.length at tokenLen
  have whole : m.first.toNat / 64 = 1 ∧ m.first.toNat % 16 ≤ 8 ∧
      m.first.toNat % 16 ≤ (m.token ++ m.body).length := by
    rw [tokenLen, List.length_append]
    exact ⟨version, small, Nat.le_add_right _ _⟩
  rw [bytes, readContents, if_pos whole, tokenLen, List.drop_left, List.take_left, m.read_body,
    parsed_message_id]
  simp only [Option.map_some, Option.some.injEq, Contents.mk.injEq, and_true]
  exact type

end MidnightSdk.Protocols.Coap
