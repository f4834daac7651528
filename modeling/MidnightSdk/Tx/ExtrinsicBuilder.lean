import MidnightSdk.Codec.ScaleEncoder
import MidnightSdk.Library.Cpp

/-!
# Unsigned extrinsics

A call of the runtime and its unsigned extrinsic. The builder writes the bytes
of a call behind a version byte and a length; the format reads them back.
-/

namespace MidnightSdk.Tx

open Cpp Codec

structure PalletCall where
  palletIndex : UInt8
  callIndex : UInt8
  callData : List UInt8
  deriving DecidableEq, Repr

/-- The pallet of the current runtime. -/
def midnightPallet : UInt8 := 5

def PalletCall.midnightSendMnTransaction (midnightTx : List UInt8) (palletIndex : UInt8) :
    Throws PalletCall :=
  if midnightTx.isEmpty then .error (.runtimeError "Midnight transaction bytes cannot be empty")
  else .ok ⟨palletIndex, 0x00, (ScaleEncoder.encodeBytes {} midnightTx).buffer⟩

/-- The parameters an unsigned extrinsic depends on. -/
structure ExtrinsicParams where
  genesisHash : List UInt8
  blockHash : List UInt8
  deriving DecidableEq, Repr

structure ExtrinsicBuilder where
  params : ExtrinsicParams
  genesis_length : params.genesisHash.length = 32
  block_length : params.blockHash.length = 32

namespace ExtrinsicBuilder

/-- The constructor. -/
def make (params : ExtrinsicParams) : Throws ExtrinsicBuilder :=
  if genesis : params.genesisHash.length = 32 then
    if block : params.blockHash.length = 32 then .ok ⟨params, genesis, block⟩
    else .error (.runtimeError "Block hash must be 32 bytes")
  else .error (.runtimeError "Genesis hash must be 32 bytes")

theorem make_params {params : ExtrinsicParams} {builder : ExtrinsicBuilder}
    (h : make params = .ok builder) : builder.params = params := by
  unfold make at h
  split at h
  · split at h
    · cases h
      rfl
    · cases h
  · cases h

def encodeCall (_ : ExtrinsicBuilder) (call : PalletCall) : List UInt8 :=
  [call.palletIndex, call.callIndex] ++ call.callData

def buildUnsigned (builder : ExtrinsicBuilder) (call : PalletCall) : List UInt8 :=
  let body := ScaleEncoder.encodeU8 {} 0x04
  let body := body.encodeRaw (builder.encodeCall call)
  body.finalizeWithLength

end ExtrinsicBuilder

/-! ## The format -/

/-- The parts of an unsigned extrinsic whose call takes one byte vector. -/
structure UnsignedExtrinsic where
  version : UInt8
  palletIndex : UInt8
  callIndex : UInt8
  argument : List UInt8
  deriving DecidableEq, Repr

/-- A byte vector behind its length, with nothing after it. -/
def decodeExactly (bytes : List UInt8) : Option (List UInt8) :=
  match Compact.decode bytes with
  | some (len, rest) => if len = rest.length then some rest else none
  | none => none

/-- The length of all that follows, the version, the call and its argument. -/
def decodeExtrinsic (bytes : List UInt8) : Option UnsignedExtrinsic :=
  match decodeExactly bytes with
  | some (version :: palletIndex :: callIndex :: rest) =>
    (decodeExactly rest).map fun argument => ⟨version, palletIndex, callIndex, argument⟩
  | _ => none

theorem decodeExactly_encode {data : List UInt8} (h : data.length < 2 ^ 64) :
    decodeExactly (Compact.encode data.length ++ data) = some data := by
  have number := Compact.decode_encode (n := data.length) (Nat.lt_trans h (by decide)) data
  rw [decodeExactly, number]
  exact if_pos rfl

theorem midnightSend_ok {tx : List UInt8} (hne : tx ≠ []) (h : tx.length < 2 ^ 64)
    (palletIndex : UInt8) :
    PalletCall.midnightSendMnTransaction tx palletIndex =
      .ok ⟨palletIndex, 0x00, Compact.encode tx.length ++ tx⟩ := by
  have some : tx.isEmpty = false := by simpa using hne
  have data := ScaleEncoder.encodeBytes_buffer {} h
  rw [List.nil_append] at data
  rw [PalletCall.midnightSendMnTransaction, some, data]
  rfl

/-- An unsigned extrinsic around one byte vector is read back in its parts. -/
theorem decode_buildUnsigned (builder : ExtrinsicBuilder) {call : PalletCall} {tx : List UInt8}
    (hdata : call.callData = Compact.encode tx.length ++ tx) (h : call.callData.length + 3 < 2 ^ 64) :
    decodeExtrinsic (builder.buildUnsigned call) =
      some ⟨0x04, call.palletIndex, call.callIndex, tx⟩ := by
  have body : ((ScaleEncoder.encodeU8 {} 0x04).encodeRaw (builder.encodeCall call)).buffer =
      0x04 :: call.palletIndex :: call.callIndex :: call.callData := rfl
  have whole : decodeExactly (builder.buildUnsigned call) =
      some (0x04 :: call.palletIndex :: call.callIndex :: call.callData) := by
    have short : (0x04 :: call.palletIndex :: call.callIndex :: call.callData).length < 2 ^ 64 := h
    rw [ExtrinsicBuilder.buildUnsigned, ScaleEncoder.finalizeWithLength_eq _ (by rwa [body]), body]
    exact decodeExactly_encode short
  have argument : decodeExactly call.callData = some tx := by
    rw [hdata, List.length_append] at h
    rw [hdata]
    exact decodeExactly_encode (by omega)
  rw [decodeExtrinsic, whole]
  simp only [argument, Option.map_some]

end MidnightSdk.Tx
