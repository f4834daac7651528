import MidnightSdk.Library.Json
import MidnightSdk.Tx.ExtrinsicBuilder
import MidnightSdk.Util.Hex

/-!
# Submitting to the node

A transaction in hex becomes the payload of one remote call. The remote calls
themselves are given: each answers with a value or the text of its error.
-/

namespace MidnightSdk.Network

open Cpp HexText Tx Util

/-- The two ways to reach the node. -/
structure MidnightNodeRpc where
  rpcCall : String → Json → Except String Json
  rpcCallWebsocket : String → Json → Except String Json

/-- `text.find(part) != npos` -/
def contains (text part : String) : Bool := text.toList.tails.any part.toList.isPrefixOf

def shouldTryWebsocketSubmitFallback (error : String) : Bool :=
  contains error "HTTP 403" || contains error "HTTP 413" || contains error "Payload Too Large" ||
    contains error "Request Entity Too Large"

/-- The checks of a submitted extrinsic, and the payload that is sent. -/
def extrinsicPayload (extrinsicHex : List Char) : Throws (List Char) :=
  let cleanExtrinsicHex := stripHexPrefix extrinsicHex
  if cleanExtrinsicHex.isEmpty then .error (.runtimeError "Extrinsic bytes cannot be empty")
  else if !isHexString cleanExtrinsicHex then
    .error (.runtimeError "Extrinsic must be an even-length hex string")
  else .ok (ensureHexPrefix cleanExtrinsicHex)

/-- An unsigned extrinsic says nothing of the chain: its hashes are zero. -/
def unsignedParams : ExtrinsicParams := ⟨List.replicate 32 0, List.replicate 32 0⟩

/-- The extrinsic around a transaction, in hex. -/
def transactionExtrinsic (txHex : List Char) : Throws (List Char) :=
  let cleanTxHex := stripHexPrefix txHex
  if cleanTxHex.isEmpty then .error (.runtimeError "Midnight transaction bytes cannot be empty")
  else if !isHexString cleanTxHex then
    .error (.runtimeError "Midnight transaction must be an even-length hex string")
  else do
    let midnightTx ← hexToBytes cleanTxHex
    let call ← PalletCall.midnightSendMnTransaction midnightTx midnightPallet
    let builder ← ExtrinsicBuilder.make unsignedParams
    return ensureHexPrefix (bytesToHex (builder.buildUnsigned call))

namespace MidnightNodeRpc

def authorSubmitExtrinsic (rpc : MidnightNodeRpc) (payload : List Char) : Throws Json :=
  let params := Json.array [.string (String.ofList payload)]
  match rpc.rpcCall "author_submitExtrinsic" params with
  | .ok response => .ok response
  | .error httpError =>
    if !shouldTryWebsocketSubmitFallback httpError then
      .error (.runtimeError ("author_submitExtrinsic failed: " ++ httpError))
    else
      match rpc.rpcCallWebsocket "author_submitExtrinsic" params with
      | .ok response => .ok response
      | .error wsError =>
        .error (.runtimeError
          ("author_submitExtrinsic failed over HTTP and WebSocket fallback: http=" ++ httpError ++
            " websocket=" ++ wsError))

/-- The payload sent, and the transaction identifier in the answer. -/
def send (rpc : MidnightNodeRpc) (payload : List Char) : Throws String := do
  let response ← rpc.authorSubmitExtrinsic payload
  let txId ← match response with
    | .string s => .ok s
    | _ => response.valueString "txId" ""
  if txId.isEmpty then
    throw (.runtimeError "Transaction submission response missing transaction identifier")
  return txId

def submitExtrinsic (rpc : MidnightNodeRpc) (extrinsicHex : List Char) : Throws String := do
  let payload ← extrinsicPayload extrinsicHex
  rpc.send payload

def submitTransaction (rpc : MidnightNodeRpc) (txHex : List Char) : Throws String := do
  let extrinsicHex ← transactionExtrinsic txHex
  rpc.submitExtrinsic extrinsicHex

end MidnightNodeRpc

/-! ## The payload of a transaction -/

/-- Hex that a prefix was put before passes the checks unchanged. -/
theorem extrinsicPayload_spells {text : List Char} {bytes : List UInt8} (h : Spells text bytes)
    (hne : text ≠ []) : extrinsicPayload (['0', 'x'] ++ text) = .ok (['0', 'x'] ++ text) := by
  have clean : stripHexPrefix (['0', 'x'] ++ text) = text := stripHexPrefix_digits (by simp) h.mem_digits
  have even := h.length
  have some : text.isEmpty = false := by simpa using hne
  rw [extrinsicPayload, clean, some, isHexString_digits hne (by omega) h.mem_digits,
    ensureHexPrefix_digits hne h.mem_digits]
  rfl

theorem hex_of_extrinsic {bytes : List UInt8} {extrinsic : UnsignedExtrinsic}
    (h : decodeExtrinsic bytes = some extrinsic) : bytesToHex bytes ≠ [] := by
  cases bytes with
  | nil => cases h
  | cons b bytes => exact List.cons_ne_nil _ _

/-- The extrinsic of a transaction carries the bytes its hex spells. -/
theorem transactionExtrinsic_spells {lead text : List Char} {tx : List UInt8}
    (hlead : lead ∈ [[], ['0', 'x'], ['0', 'X']]) (h : Spells text tx) (hne : text ≠ [])
    (hsize : text.length < 2 ^ 63) :
    ∃ extrinsic, transactionExtrinsic (lead ++ text) = .ok (['0', 'x'] ++ bytesToHex extrinsic) ∧
      decodeExtrinsic extrinsic = some ⟨0x04, midnightPallet, 0x00, tx⟩ := by
  have clean := stripHexPrefix_digits hlead h.mem_digits
  have even := h.length
  have some : text.isEmpty = false := by simpa using hne
  have bytes : tx ≠ [] := by
    rintro rfl
    exact hne (List.length_eq_zero_iff.mp even)
  have header : (Compact.encode tx.length).length ≤ 9 := by
    apply Compact.encode_length_le (k := 8) (by decide)
    omega
  let call : PalletCall := ⟨midnightPallet, 0x00, Compact.encode tx.length ++ tx⟩
  let builder : ExtrinsicBuilder := ⟨unsignedParams, rfl, rfl⟩
  have sent : PalletCall.midnightSendMnTransaction tx midnightPallet = .ok call :=
    midnightSend_ok bytes (by omega) midnightPallet
  have made : ExtrinsicBuilder.make unsignedParams = .ok builder := rfl
  have short : call.callData.length + 3 < 2 ^ 64 := by
    change (Compact.encode tx.length ++ tx).length + 3 < 2 ^ 64
    rw [List.length_append]
    omega
  have decoded := decode_buildUnsigned builder rfl short
  have spelled := bytesToHex_spells (builder.buildUnsigned call)
  have written := hex_of_extrinsic decoded
  refine ⟨_, ?_, decoded⟩
  rw [transactionExtrinsic, clean, some, isHexString_digits hne (by omega) h.mem_digits]
  apply bind_eq_ok.mpr
  refine ⟨tx, hexToBytes_spells h, bind_eq_ok.mpr ⟨call, sent, bind_eq_ok.mpr ⟨builder, made, ?_⟩⟩⟩
  rw [ensureHexPrefix_digits written spelled.mem_digits]
  rfl

/-- **What the node receives.** A transaction of an even number of digits, with
or without a prefix, is sent as an unsigned extrinsic whose only argument is
its bytes, and an empty one is refused before anything is sent. -/
theorem submitted_extrinsic {lead text : List Char} (hlead : lead ∈ [[], ['0', 'x'], ['0', 'X']])
    (hdigits : ∀ c ∈ text, c ∈ digits) (heven : text.length % 2 = 0)
    (hsize : (lead ++ text).length < 2 ^ 63) :
    ∃ tx, Spells text tx ∧
      if text = [] then ∀ rpc : MidnightNodeRpc, rpc.submitTransaction (lead ++ text) =
          .error (.runtimeError "Midnight transaction bytes cannot be empty")
      else ∃ hex extrinsic, Spells hex extrinsic ∧
        (∀ rpc : MidnightNodeRpc,
          rpc.submitTransaction (lead ++ text) = rpc.send (['0', 'x'] ++ hex)) ∧
        decodeExtrinsic extrinsic = some ⟨0x04, 5, 0x00, tx⟩ := by
  obtain ⟨tx, h⟩ := exists_spells hdigits heven
  refine ⟨tx, h, ?_⟩
  by_cases hne : text = []
  · rw [if_pos hne]
    intro rpc
    have clean := stripHexPrefix_digits hlead hdigits
    have refused : transactionExtrinsic (lead ++ text) =
        .error (.runtimeError "Midnight transaction bytes cannot be empty") := by
      rw [transactionExtrinsic, clean, hne]
      rfl
    rw [MidnightNodeRpc.submitTransaction, refused]
    rfl
  · rw [if_neg hne]
    rw [List.length_append] at hsize
    obtain ⟨extrinsic, built, decoded⟩ := transactionExtrinsic_spells hlead h hne (by omega)
    have spelled := bytesToHex_spells extrinsic
    refine ⟨bytesToHex extrinsic, extrinsic, spelled, ?_, decoded⟩
    intro rpc
    rw [MidnightNodeRpc.submitTransaction, built]
    change rpc.submitExtrinsic (['0', 'x'] ++ bytesToHex extrinsic) = _
    rw [MidnightNodeRpc.submitExtrinsic, extrinsicPayload_spells spelled (hex_of_extrinsic decoded)]
    rfl

/-- Two bytes behind a prefix, their digits in either case. -/
theorem submitted_extrinsic_two_bytes :
    ∃ tx, Spells ['0', 'a', 'F', 'f'] tx ∧
      if ['0', 'a', 'F', 'f'] = [] then ∀ rpc : MidnightNodeRpc,
        rpc.submitTransaction (['0', 'x'] ++ ['0', 'a', 'F', 'f']) =
          .error (.runtimeError "Midnight transaction bytes cannot be empty")
      else ∃ hex extrinsic, Spells hex extrinsic ∧
        (∀ rpc : MidnightNodeRpc, rpc.submitTransaction (['0', 'x'] ++ ['0', 'a', 'F', 'f']) =
          rpc.send (['0', 'x'] ++ hex)) ∧
        decodeExtrinsic extrinsic = some ⟨0x04, 5, 0x00, tx⟩ :=
  submitted_extrinsic (by decide) (List.forall_iff_forall_mem.mp (by decide)) rfl (by decide)

end MidnightSdk.Network
