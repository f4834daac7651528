import MidnightSdk.Codec.ScaleDecoder
import MidnightSdk.Codec.ScaleEncoder

/-!
# Written values are read back

A sequence of typed values, written one after the other, is read by the calls
of the same types: each encoding is self-delimiting, so the readers compose.
-/

namespace MidnightSdk.Codec

open ByteReader LittleEndian

/-- The sixteen little-endian bytes of a 128-bit value. -/
def U128.toBytes (v : U128) : Vector UInt8 16 :=
  ⟨(leBytes 8 v.lo.toNat ++ leBytes 8 v.hi.toNat).toArray, by simp⟩

inductive Value where
  | u8 (v : UInt8)
  | u16 (v : UInt16)
  | u32 (v : UInt32)
  | u64 (v : UInt64)
  | u128 (v : Vector UInt8 16)
  | bool (v : Bool)
  | bytes (data : List UInt8)
  | string (str : List UInt8)
  | compact (v : UInt64)
  | raw (data : List UInt8)
  deriving DecidableEq, Repr

/-- A call of the decoder. -/
inductive Call where
  | u8
  | u16
  | u32
  | u64
  | u128
  | bool
  | bytes
  | string
  | compact
  | raw (len : UInt64)
  deriving DecidableEq, Repr

def Value.encode (e : ScaleEncoder) : Value → ScaleEncoder
  | .u8 v => e.encodeU8 v
  | .u16 v => e.encodeU16Le v
  | .u32 v => e.encodeU32Le v
  | .u64 v => e.encodeU64Le v
  | .u128 v => e.encodeU128Le v
  | .bool v => e.encodeBool v
  | .bytes data => e.encodeBytes data
  | .string str => e.encodeString str
  | .compact v => e.encodeCompact v
  | .raw data => e.encodeRaw data

/-- The matching call. -/
def Value.call : Value → Call
  | .u8 _ => .u8
  | .u16 _ => .u16
  | .u32 _ => .u32
  | .u64 _ => .u64
  | .u128 _ => .u128
  | .bool _ => .bool
  | .bytes _ => .bytes
  | .string _ => .string
  | .compact _ => .compact
  | .raw data => .raw (UInt64.ofNat data.length)

open ScaleDecoder in
def Call.run : Call → Reader Value
  | .u8 => do return .u8 (← decodeU8)
  | .u16 => do return .u16 (← decodeU16Le)
  | .u32 => do return .u32 (← decodeU32Le)
  | .u64 => do return .u64 (← decodeU64Le)
  | .u128 => do return .u128 (← decodeU128Le).toBytes
  | .bool => do return .bool (← decodeBool)
  | .bytes => do return .bytes (← decodeBytes)
  | .string => do return .string (← decodeString)
  | .compact => do return .compact (← decodeCompact)
  | .raw len => do return .raw (← decodeRaw len)

def encodeAll (values : List Value) : ScaleEncoder := values.foldl Value.encode {}

def decodeAll : List Call → Reader (List Value)
  | [] => return []
  | call :: calls => do
    let v ← call.run
    let vs ← decodeAll calls
    return v :: vs

/-! ## One value -/

/-- What a value appends to the buffer. -/
def Value.encoded : Value → List UInt8
  | .u8 v => [v]
  | .u16 v => leBytes 2 v.toNat
  | .u32 v => leBytes 4 v.toNat
  | .u64 v => leBytes 8 v.toNat
  | .u128 v => v.toList
  | .bool v => [if v then 0x01 else 0x00]
  | .bytes data => Compact.encode (UInt64.ofNat data.length).toNat ++ data
  | .string str => Compact.encode (UInt64.ofNat str.length).toNat ++ str
  | .compact v => Compact.encode v.toNat
  | .raw data => data

theorem encode_buffer (e : ScaleEncoder) (v : Value) :
    (v.encode e).buffer = e.buffer ++ v.encoded := by
  cases v with
  | u8 v => rfl
  | u16 v => exact ScaleEncoder.encodeU16Le_buffer e v
  | u32 v => exact ScaleEncoder.encodeU32Le_buffer e v
  | u64 v => exact ScaleEncoder.encodeU64Le_buffer e v
  | u128 v => rfl
  | bool v => rfl
  | bytes data =>
    simp [Value.encode, ScaleEncoder.encodeBytes, ScaleEncoder.encodeCompact_buffer, Value.encoded]
  | string str =>
    simp [Value.encode, ScaleEncoder.encodeString, ScaleEncoder.encodeCompact_buffer, Value.encoded]
  | compact v => exact ScaleEncoder.encodeCompact_buffer e v
  | raw data => rfl

theorem encodeAll_buffer (values : List Value) :
    (encodeAll values).buffer = values.flatMap Value.encoded := by
  have appends (e : ScaleEncoder) : (values.foldl Value.encode e).buffer =
      e.buffer ++ values.flatMap Value.encoded := by
    induction values generalizing e with
    | nil => simp
    | cons v values ih => simp [ih, encode_buffer]
  exact appends {}

theorem U128.toBytes_ofBytes (v : Vector UInt8 16) :
    U128.toBytes ⟨UInt64.ofNat (leValue (v.toList.take 8)), UInt64.ofNat (leValue (v.toList.drop 8))⟩ =
      v := by
  have half {xs : List UInt8} (hxs : xs.length = 8) :
      leBytes 8 (UInt64.ofNat (leValue xs)).toNat = xs := by
    have bound := leValue_lt xs
    have back := leBytes_leValue xs
    rw [hxs] at bound back
    rw [UInt64.toNat_ofNat', Nat.mod_eq_of_lt (show _ < 2 ^ 64 from bound), back]
  apply Vector.toList_inj.mp
  simp only [U128.toBytes, Vector.toList_mk]
  rw [half (by simp), half (by simp), List.take_append_drop]

open ScaleDecoder in
/-- The matching call reads the value's bytes and nothing more. -/
theorem call_reads (v : Value) (h : v.encoded.length < 2 ^ 63) : Reads v.call.run v.encoded v := by
  cases v with
  | u8 v => exact Reads.map (decodeU8_fixed.reads [v] rfl) _
  | u16 v =>
    have word := decodeU16Le_fixed.reads (leBytes 2 v.toNat) (leBytes_length _ _)
    rw [leValue_leBytes_of_lt v.toNat_lt, UInt16.ofNat_toNat] at word
    exact Reads.map word _
  | u32 v =>
    have word := decodeU32Le_fixed.reads (leBytes 4 v.toNat) (leBytes_length _ _)
    rw [leValue_leBytes_of_lt v.toNat_lt, UInt32.ofNat_toNat] at word
    exact Reads.map word _
  | u64 v =>
    have word := decodeU64Le_fixed.reads (leBytes 8 v.toNat) (leBytes_length _ _)
    rw [leValue_leBytes_of_lt v.toNat_lt, UInt64.ofNat_toNat] at word
    exact Reads.map word _
  | u128 v =>
    have word := Reads.map (decodeU128Le_fixed.reads v.toList (by simp)) fun w => Value.u128 w.toBytes
    rwa [U128.toBytes_ofBytes] at word
  | bool v =>
    have flag := decodeBool_fixed.reads [if v then 0x01 else 0x00] rfl
    cases v <;> exact Reads.map flag _
  | bytes data =>
    have short : data.length < 2 ^ 64 := by
      rw [Value.encoded, List.length_append] at h
      omega
    have read := decodeBytes_reads short
    rw [Value.encoded, UInt64.toNat_ofNat', Nat.mod_eq_of_lt short]
    exact Reads.map read _
  | string str =>
    have short : str.length < 2 ^ 64 := by
      rw [Value.encoded, List.length_append] at h
      omega
    have read : Reads decodeString _ str := decodeBytes_reads short
    rw [Value.encoded, UInt64.toNat_ofNat', Nat.mod_eq_of_lt short]
    exact Reads.map read _
  | compact v => exact Reads.map (decodeCompact_reads v) _
  | raw data =>
    have count : (UInt64.ofNat data.length).toNat = data.length := by
      rw [UInt64.toNat_ofNat']
      change data.length < _ at h
      omega
    exact Reads.map (decodeRaw_reads count) _

/-! ## A sequence of values -/

theorem decodeAll_reads {values : List Value}
    (h : (values.flatMap Value.encoded).length < 2 ^ 63) :
    Reads (decodeAll (values.map Value.call)) (values.flatMap Value.encoded) values := by
  induction values with
  | nil => exact Reads.pure []
  | cons v values ih =>
    rw [List.flatMap_cons, List.length_append] at h
    rw [List.flatMap_cons]
    exact (call_reads v (by omega)).bind (Reads.map (ih (by omega)) (v :: ·))

/-- **What is written is read back.** The matching calls return the values in
order and stop exactly at the end of their encoding, whatever follows it. -/
theorem decode_encode_values (values : List Value) (suffix : List UInt8)
    (h : ((encodeAll values).buffer ++ suffix).length < 2 ^ 63) :
    decodeAll (values.map Value.call) ⟨(encodeAll values).buffer ++ suffix, h⟩ 0 =
      .ok values (UInt64.ofNat (encodeAll values).buffer.length) := by
  have fits : (values.flatMap Value.encoded).length < 2 ^ 63 := by
    rw [encodeAll_buffer, List.length_append] at h
    omega
  have front : ((encodeAll values).buffer ++ suffix).drop 0 =
      values.flatMap Value.encoded ++ suffix := by
    rw [List.drop_zero, encodeAll_buffer]
  have read := decodeAll_reads fits ⟨(encodeAll values).buffer ++ suffix, h⟩ 0 suffix
    (Nat.zero_le _) front
  rw [read, encodeAll_buffer, UInt64.zero_add]

/-- Three values, one of them in the four-byte compact form, before two more bytes. -/
theorem decode_encode_three_values :
    decodeAll [.compact, .bytes, .u16]
        ⟨(encodeAll [.compact 70000, .bytes [1, 2], .u16 515]).buffer ++ [9, 9], by decide⟩ 0 =
      .ok [.compact 70000, .bytes [1, 2], .u16 515] 9 :=
  decode_encode_values [.compact 70000, .bytes [1, 2], .u16 515] [9, 9] (by decide)

end MidnightSdk.Codec
