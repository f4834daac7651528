import MidnightSdk.Ledger.FfiRequests
import MidnightSdk.Util.Hex

/-!
# The native ledger backend

Every operation asks a function of the native library with a JSON text and reads
the JSON text it answers. What the library answers, to which request, is given.
-/

namespace MidnightSdk.Ledger.FfiLedgerBackend

open Cpp HexText JsonTree Util

/-! ## Results -/

structure WalletAddressDerivationResult where
  success : Bool := false
  network : String := ""
  shielded : String := ""
  unshielded : String := ""
  dust : String := ""
  dustPublic : String := ""
  coinPublic : String := ""
  coinPublicTagged : String := ""
  verifyingKey : String := ""
  userAddress : String := ""
  unshieldedUserAddressUntagged : String := ""
  error : String := ""
  deriving DecidableEq, Repr

structure BackendInfo where
  success : Bool := false
  ffiName : String := ""
  ffiVersion : String := ""
  abiVersion : UInt32 := 0
  source : String := ""
  ledger : String := ""
  zswap : String := ""
  onchainRuntime : String := ""
  compactToolchain : String := ""
  compactRuntime : String := ""
  indexerSchema : String := ""
  proofServer : String := ""
  panicStrategy : String := ""
  capabilities : List (List Char) := []
  warnings : List (List Char) := []
  error : String := ""
  rawJson : String := ""
  deriving DecidableEq, Repr

structure ValidationResult where
  success : Bool := false
  valid : Bool := false
  kind : String := ""
  normalized : String := ""
  network : String := ""
  error : String := ""
  deriving DecidableEq, Repr

structure TransactionInspectionResult where
  success : Bool := false
  verified : Bool := false
  transactionHash : String := ""
  txType : String := ""
  sizeBytes : UInt64 := 0
  ledgerVersion : String := ""
  contractAddress : String := ""
  taggedContractAddress : String := ""
  error : String := ""
  deriving DecidableEq, Repr

/-- What every kind of result has: a default-constructed one, the flag and the error. -/
class NativeResult (α : Type) where
  fresh : α
  success : α → Bool
  error : α → String
  withError : String → α → α
  success_fresh : success fresh = false
  success_withError : ∀ e r, success (withError e r) = success r
  error_withError : ∀ e r, error (withError e r) = e

instance : NativeResult BuildResult where
  fresh := {}
  success r := r.success
  error r := r.error
  withError error r := { r with error }
  success_fresh := rfl
  success_withError _ _ := rfl
  error_withError _ _ := rfl

instance : NativeResult WalletAddressDerivationResult where
  fresh := {}
  success r := r.success
  error r := r.error
  withError error r := { r with error }
  success_fresh := rfl
  success_withError _ _ := rfl
  error_withError _ _ := rfl

instance : NativeResult BackendInfo where
  fresh := {}
  success r := r.success
  error r := r.error
  withError error r := { r with error }
  success_fresh := rfl
  success_withError _ _ := rfl
  error_withError _ _ := rfl

instance : NativeResult ValidationResult where
  fresh := {}
  success r := r.success
  error r := r.error
  withError error r := { r with error }
  success_fresh := rfl
  success_withError _ _ := rfl
  error_withError _ _ := rfl

instance : NativeResult TransactionInspectionResult where
  fresh := {}
  success r := r.success
  error r := r.error
  withError error r := { r with error }
  success_fresh := rfl
  success_withError _ _ := rfl
  error_withError _ _ := rfl

/-! ## Reading a response -/

def valueText (j : JsonTree) (key : String) : Throws String :=
  return String.ofList (← j.valueString key [])

def valueUnsigned (j : JsonTree) (key : String) : Throws UInt32 := j.value getUInt32 key 0

def valueTexts (j : JsonTree) (key : String) : Throws (List (List Char)) :=
  j.value getStrings key []

/-- The end of `build_result_from_json`: the bytes of the transaction. -/
def withTransactionBytes (result : BuildResult) : Throws BuildResult :=
  if result.transactionHex = "" then return result
  else
    let hex := stripHexPrefix result.transactionHex.toList
    if hex.length % 2 ≠ 0 || !isHexString hex then
      return { result with
        success := false
        error := "Native Midnight ledger FFI returned invalid transaction_hex" }
    else return { result with transactionBytes := ← hexToBytes hex }

def buildResultFromJson (j : JsonTree) : Throws BuildResult := do
  let success ← j.valueBool "success" false
  let transactionHex ← valueText j "transaction_hex"
  let transactionHash ← valueText j "transaction_hash"
  let contractAddress ← valueText j "contract_address"
  let outputFile ← valueText j "output_file"
  let intentPath ← valueText j "intent_path"
  let privateStatePath ← valueText j "private_state_path"
  let zswapStatePath ← valueText j "zswap_state_path"
  let onchainStatePath ← valueText j "onchain_state_path"
  let resultPath ← valueText j "result_path"
  let rawOutput ← valueText j "raw_output"
  let command ← valueText j "command"
  let log ← valueText j "log"
  let error ← valueText j "error"
  withTransactionBytes
    { success, transactionHex, transactionHash, contractAddress, outputFile, intentPath,
      privateStatePath, zswapStatePath, onchainStatePath, resultPath, rawOutput, command, log,
      error }

def walletAddressesFromJson (j : JsonTree) : Throws WalletAddressDerivationResult := do
  let success ← j.valueBool "success" false
  let network ← valueText j "network"
  let shielded ← valueText j "shielded"
  let unshielded ← valueText j "unshielded"
  let dust ← valueText j "dust"
  let dustPublic ← valueText j "dust_public"
  let coinPublic ← valueText j "coin_public"
  let coinPublicTagged ← valueText j "coin_public_tagged"
  let verifyingKey ← valueText j "verifying_key"
  let userAddress ← valueText j "user_address"
  let unshieldedUserAddressUntagged ← valueText j "unshielded_user_address_untagged"
  let error ← valueText j "error"
  return {
    success, network, shielded, unshielded, dust, dustPublic, coinPublic, coinPublicTagged,
    verifyingKey, userAddress, unshieldedUserAddressUntagged, error }

def backendInfoFromJson (rawJson : String) (j : JsonTree) : Throws BackendInfo := do
  let success ← j.valueBool "success" false
  let ffiName ← valueText j "ffi_name"
  let ffiVersion ← valueText j "ffi_version"
  let abiVersion ← valueUnsigned j "abi_version"
  let source ← valueText j "source"
  let ledger ← valueText j "ledger"
  let zswap ← valueText j "zswap"
  let onchainRuntime ← valueText j "onchain_runtime"
  let compactToolchain ← valueText j "compact_toolchain"
  let compactRuntime ← valueText j "compact_runtime"
  let indexerSchema ← valueText j "indexer_schema"
  let proofServer ← valueText j "proof_server"
  let panicStrategy ← valueText j "panic_strategy"
  let capabilities ← valueTexts j "capabilities"
  let warnings ← valueTexts j "warnings"
  let error ← valueText j "error"
  return {
    success, ffiName, ffiVersion, abiVersion, source, ledger, zswap, onchainRuntime,
    compactToolchain, compactRuntime, indexerSchema, proofServer, panicStrategy, capabilities,
    warnings, error, rawJson }

def validationFromJson (j : JsonTree) : Throws ValidationResult := do
  let success ← j.valueBool "success" false
  let valid ← j.valueBool "valid" false
  let kind ← valueText j "kind"
  let normalized ← valueText j "normalized"
  let network ← valueText j "network"
  let error ← valueText j "error"
  return { success, valid, kind, normalized, network, error }

def inspectionFromJson (j : JsonTree) : Throws TransactionInspectionResult := do
  let success ← j.valueBool "success" false
  let verified ← j.valueBool "verified" false
  let transactionHash ← valueText j "transaction_hash"
  let txType ← valueText j "tx_type"
  let sizeBytes ← valueUnsigned j "size_bytes"
  let ledgerVersion ← valueText j "ledger_version"
  let contractAddress ← valueText j "contract_address"
  let taggedContractAddress ← valueText j "tagged_contract_address"
  let error ← valueText j "error"
  return {
    success, verified, transactionHash, txType, sizeBytes := sizeBytes.toUInt64, ledgerVersion,
    contractAddress, taggedContractAddress, error }

/-! ## Asking the library -/

/-- The JSON texts that go to the native library and come back, with their characters. -/
structure Texts (Text : Type) extends JsonFormat Text where
  spell : Text → String
  spell_eq_empty {text : Text} : spell text = "" ↔ text = blank

/-- What a function of the native library answers; a null pointer is no response. -/
structure Native (Text : Type) where
  code : Int32
  response : Option Text

structure Backend (Text : Type) where
  build_fn_ : Option (Text → Native Text)
  info_fn_ : Option (Native Text)
  wallet_addresses_fn_ : Option (Text → Native Text)
  validate_fn_ : Option (Text → Native Text)
  inspect_tx_fn_ : Option (Text → Native Text)
  free_fn_ : Bool
  last_error_ : String

/-- The texts an operation reports of its own. -/
structure Messages where
  missing : String
  invalid : String
  failed : String
  invalid_ne : invalid ≠ "" := by decide
  failed_ne : failed ≠ "" := by decide

def infoMessages : Messages where
  missing := "Native Midnight ledger FFI backend is missing midnight_ledger_backend_info"
  invalid := "Invalid native Midnight backend info response: "
  failed := "Native Midnight backend info call failed"

def validateMessages : Messages where
  missing := "Native Midnight ledger FFI backend is missing midnight_ledger_validate"
  invalid := "Invalid native Midnight validation response: "
  failed := "Native Midnight validation call failed"

def inspectMessages : Messages where
  missing := "Native Midnight ledger FFI backend is missing midnight_ledger_inspect_transaction"
  invalid := "Invalid native Midnight transaction inspection response: "
  failed := "Native Midnight transaction inspection call failed"

def deriveMessages : Messages where
  missing := "Native Midnight ledger FFI backend is missing midnight_ledger_derive_wallet_addresses"
  invalid := "Invalid native Midnight wallet FFI response: "
  failed := "Native Midnight wallet FFI call failed"

def buildMessages : Messages where
  missing := "Native Midnight ledger FFI backend is not available"
  invalid := "Invalid native Midnight ledger FFI response: "
  failed := "Native Midnight ledger FFI call failed"

variable {Text α : Type} (format : Texts Text)

def Native.text (native : Native Text) : Text := native.response.getD format.blank

/-- The body of a `try`: nothing comes of an exception. -/
def readResponse (read : JsonTree → Throws α) (response : Text) : Option α :=
  (format.parse response).bind fun j => (read j).toOption

open NativeResult

/-- What an operation makes of an answer; `what` is what a caught exception says. -/
def answer [NativeResult α] (messages : Messages) (read : JsonTree → Throws α) (what : String)
    (native : Native Text) : α :=
  match readResponse format read (native.text format) with
  | none => withError (messages.invalid ++ what) fresh
  | some result =>
    if native.code ≠ 0 ∧ error result = "" then withError messages.failed result else result

/-- `call_backend` looks at the code first. -/
def buildAnswer (what : String) (native : Native Text) : BuildResult :=
  let response := native.text format
  if native.code ≠ 0 then
    if format.spell response ≠ "" then
      match readResponse format buildResultFromJson response with
      | some result =>
        if result.error = "" then { result with error := buildMessages.failed } else result
      | none => { error := format.spell response }
    else { error := buildMessages.failed }
  else
    match readResponse format buildResultFromJson response with
    | some result => result
    | none => { error := buildMessages.invalid ++ what }

namespace Backend

variable (backend : Backend Text)

/-- A function is called only if the library has it and the one that frees its responses. -/
def usable {β : Type} (fn : Option β) : Option β := if backend.free_fn_ then fn else none

def unavailable [NativeResult α] (messages : Messages) : α :=
  withError (if backend.last_error_ = "" then messages.missing else backend.last_error_) fresh

def inquire [NativeResult α] (messages : Messages) (fn : Option (Text → Native Text))
    (request : PlainJson) (read : JsonTree → Throws α) (what : String) : Throws α :=
  match backend.usable fn with
  | none => return backend.unavailable messages
  | some fn => return answer format messages read what (fn (← format.dump request.tree))

def backendInfo (what : String) : BackendInfo :=
  match backend.usable backend.info_fn_ with
  | none => backend.unavailable infoMessages
  | some native =>
    answer format infoMessages (backendInfoFromJson (format.spell (native.text format))) what native

def validateRequest (kind value network : List Char) : PlainJson :=
  .ofFields [("kind", .text kind), ("value", .text value), ("network", .text network)]

def validate (kind value network : List Char) (what : String) : Throws ValidationResult :=
  backend.inquire format validateMessages backend.validate_fn_ (validateRequest kind value network)
    validationFromJson what

def inspectRequest (transactionHex : List Char) (ledgerVersion : UInt8) : PlainJson :=
  .ofFields [("transaction_hex", .text transactionHex), ("ledger_version", .word8 ledgerVersion)]

def inspectTransaction (transactionHex : List Char) (ledgerVersion : UInt8) (what : String) :
    Throws TransactionInspectionResult :=
  backend.inquire format inspectMessages backend.inspect_tx_fn_
    (inspectRequest transactionHex ledgerVersion) inspectionFromJson what

def deriveRequest (seed network : List Char) : PlainJson :=
  .ofFields [("seed", .text seed),
    ("network", if network = [] then .string "preview" else .text network)]

def deriveWalletAddresses (seed network : List Char) (what : String) :
    Throws WalletAddressDerivationResult :=
  backend.inquire format deriveMessages backend.wallet_addresses_fn_ (deriveRequest seed network)
    walletAddressesFromJson what

def callBackend (operation : String) (paramsJson : Text) (what : String) : Throws BuildResult :=
  match backend.usable backend.build_fn_ with
  | none => return backend.unavailable buildMessages
  | some fn => do
    let params ← match format.parse paramsJson with
      | some params => .ok params
      | none => .error (.runtimeError what)
    let request ← format.dump
      (.ofFields [("operation", .string operation.toList), ("params", params)])
    return buildAnswer format what (fn request)

/-- The operations that go through `call_backend`. -/
def build (call : LedgerCall) (what : String) : Throws BuildResult := do
  backend.callBackend format call.operation (← format.dump call.params.tree) what

end Backend

/-! ## Responses that claim success -/

def isText : JsonTree → Bool
  | .string _ => true
  | _ => false

def isFlag : JsonTree → Bool
  | .boolean _ => true
  | _ => false

/-- What is read as an unsigned number: truth values count. -/
def isUnsigned : JsonTree → Bool
  | .integer _ | .float _ | .boolean _ => true
  | _ => false

def isTexts : JsonTree → Bool
  | .array elements => elements.all isText
  | _ => false

/-- No text, or digits for whole bytes behind an optional prefix. -/
def isTransactionHex : JsonTree → Bool
  | .string text => text.isEmpty || isHexString (stripHexPrefix text)
  | _ => false

/-- The response says that the call succeeded, and what else is read of it can be read. -/
def Accepted (fields : List (String × (JsonTree → Bool))) (j : JsonTree) : Prop :=
  j.find? "success" = some (.boolean true) ∧ ∀ field ∈ fields, j.Fits field.1 field.2

def buildFields : List (String × (JsonTree → Bool)) :=
  ("transaction_hex", isTransactionHex) ::
    ["transaction_hash", "contract_address", "output_file", "intent_path", "private_state_path",
      "zswap_state_path", "onchain_state_path", "result_path", "raw_output", "command", "log",
      "error"].map fun key => (key, isText)

def addressFields : List (String × (JsonTree → Bool)) :=
  ["network", "shielded", "unshielded", "dust", "dust_public", "coin_public", "coin_public_tagged",
    "verifying_key", "user_address", "unshielded_user_address_untagged", "error"].map fun key =>
    (key, isText)

def infoFields : List (String × (JsonTree → Bool)) :=
  [("ffi_name", isText), ("ffi_version", isText), ("abi_version", isUnsigned), ("source", isText),
    ("ledger", isText), ("zswap", isText), ("onchain_runtime", isText),
    ("compact_toolchain", isText), ("compact_runtime", isText), ("indexer_schema", isText),
    ("proof_server", isText), ("panic_strategy", isText), ("capabilities", isTexts),
    ("warnings", isTexts), ("error", isText)]

def validationFields : List (String × (JsonTree → Bool)) :=
  [("valid", isFlag), ("kind", isText), ("normalized", isText), ("network", isText),
    ("error", isText)]

def inspectionFields : List (String × (JsonTree → Bool)) :=
  [("verified", isFlag), ("transaction_hash", isText), ("tx_type", isText),
    ("size_bytes", isUnsigned), ("ledger_version", isText), ("contract_address", isText),
    ("tagged_contract_address", isText), ("error", isText)]

/-! ## What is read of them -/

section Reading
variable {j : JsonTree} (object : j.isObject = true)
include object

theorem valueBool_reads (key : String) (default : Bool) :
    (∃ b, j.valueBool key default = .ok b) ↔ j.Fits key isFlag := by
  apply value_reads _ object
  intro v
  cases v <;> simp [getBool, isFlag]

theorem valueText_reads (key : String) : (∃ t, valueText j key = .ok t) ↔ j.Fits key isText := by
  have texts : (∃ t, j.valueString key [] = .ok t) ↔ j.Fits key isText := by
    apply value_reads _ object
    intro v
    cases v <;> simp [getString, isText]
  rw [← texts]
  constructor
  · rintro ⟨t, h⟩
    obtain ⟨u, hu, -⟩ := bind_eq_ok.mp h
    exact ⟨u, hu⟩
  · rintro ⟨u, hu⟩
    exact ⟨String.ofList u, bind_eq_ok.mpr ⟨u, hu, rfl⟩⟩

theorem valueUnsigned_reads (key : String) :
    (∃ n, valueUnsigned j key = .ok n) ↔ j.Fits key isUnsigned := by
  apply value_reads _ object
  intro v
  cases v <;> simp [getUInt32, isUnsigned]

theorem valueTexts_reads (key : String) :
    (∃ ts, valueTexts j key = .ok ts) ↔ j.Fits key isTexts := by
  apply value_reads _ object
  intro v
  cases v with
  | array elements =>
    rw [getStrings, mapM_reads, isTexts, List.all_eq_true]
    apply forall₂_congr
    intro element _
    cases element <;> simp [getString, isText]
  | _ => simp [getStrings, isTexts]

/-- The text that the bytes are made of is read, and passes for hex. -/
theorem transactionHex_reads :
    (∃ t, valueText j "transaction_hex" = .ok t ∧ isTransactionHex (.string t.toList) = true) ↔
      j.Fits "transaction_hex" isTransactionHex := by
  cases j with
  | object members =>
    simp only [valueText, valueString, value, Fits, find?]
    cases members.lookup "transaction_hex".toList with
    | none =>
      constructor
      · intro _ v hv
        cases hv
      · intro _
        exact ⟨"", rfl, rfl⟩
    | some v =>
      cases v with
      | string text =>
        constructor
        · rintro ⟨t, ht, passes⟩ v hv
          cases ht
          cases hv
          rwa [String.toList_ofList] at passes
        · intro h
          refine ⟨String.ofList text, rfl, ?_⟩
          rw [String.toList_ofList]
          exact h _ rfl
      | _ =>
        constructor
        · rintro ⟨t, ht, -⟩
          cases ht
        · intro h
          cases h _ rfl
  | _ => cases object

end Reading

section Success
variable {j : JsonTree}

/-- The flag is read first, and it is false unless it is there. -/
theorem yields_success {R : α → Prop} {P : Prop} {rest : Bool → Throws α}
    (h : j.isObject = true → ∀ s, Yields R (rest s) ↔ P ∧ s = true) :
    Yields R (j.valueBool "success" false >>= rest) ↔
      j.find? "success" = some (.boolean true) ∧ P := by
  rw [yields_bind]
  cases j with
  | object members =>
    have hrest := h rfl
    simp only [hrest, valueBool, value, find?]
    cases members.lookup "success".toList with
    | none => simp
    | some v => cases v <;> simp [getBool]
  | _ => simp [valueBool, value, find?]

theorem yields_validationFromJson :
    Yields (fun r => r.success = true) (validationFromJson j) ↔ Accepted validationFields j := by
  apply yields_success
  intro object s
  simp only [yields_bind, yields_pure, exists_and_right, valueBool_reads object,
    valueText_reads object, validationFields, List.forall_mem_cons, List.not_mem_nil, false_implies,
    implies_true, and_true, and_assoc]

theorem yields_inspectionFromJson :
    Yields (fun r => r.success = true) (inspectionFromJson j) ↔ Accepted inspectionFields j := by
  apply yields_success
  intro object s
  simp only [yields_bind, yields_pure, exists_and_right, valueBool_reads object,
    valueText_reads object, valueUnsigned_reads object, inspectionFields, List.forall_mem_cons,
    List.not_mem_nil, false_implies, implies_true, and_true, and_assoc]

theorem yields_backendInfoFromJson (rawJson : String) :
    Yields (fun r => r.success = true) (backendInfoFromJson rawJson j) ↔ Accepted infoFields j := by
  apply yields_success
  intro object s
  simp only [yields_bind, yields_pure, exists_and_right, valueText_reads object,
    valueUnsigned_reads object, valueTexts_reads object, infoFields, List.forall_mem_cons,
    List.not_mem_nil, false_implies, implies_true, and_true, and_assoc]

theorem yields_walletAddressesFromJson :
    Yields (fun r => r.success = true) (walletAddressesFromJson j) ↔ Accepted addressFields j := by
  apply yields_success
  intro object s
  simp only [yields_bind, yields_pure, exists_and_right, valueText_reads object, addressFields,
    List.map_cons, List.map_nil, List.forall_mem_cons, List.not_mem_nil, false_implies,
    implies_true, and_true, and_assoc]

/-- Bytes are made of a text that `is_hex_string` passes. -/
theorem yields_withTransactionBytes (result : BuildResult) :
    Yields (fun r => r.success = true) (withTransactionBytes result) ↔
      result.success = true ∧ isTransactionHex (.string result.transactionHex.toList) = true := by
  unfold withTransactionBytes
  by_cases empty : result.transactionHex = ""
  · rw [if_pos empty, yields_pure, empty]
    exact (and_iff_left rfl).symm
  · have some : result.transactionHex.toList.isEmpty = false := by simpa using empty
    rw [if_neg empty, isTransactionHex, some, Bool.false_or]
    dsimp only
    cases hex : isHexString (stripHexPrefix result.transactionHex.toList) with
    | false =>
      rw [if_pos (by simp), yields_pure]
      simp
    | true =>
      obtain ⟨-, bytes, spelled⟩ := isHexString_iff.mp hex
      have even : (stripHexPrefix result.transactionHex.toList).length % 2 = 0 := by
        rw [spelled.length]
        omega
      rw [if_neg (by simp [even]), hexToBytes_spells spelled]
      exact yields_pure.trans (and_iff_left rfl).symm

theorem yields_buildResultFromJson :
    Yields (fun r => r.success = true) (buildResultFromJson j) ↔ Accepted buildFields j := by
  apply yields_success
  intro object s
  simp only [yields_bind, exists_and_right, valueText_reads object, yields_withTransactionBytes,
    buildFields, List.map_cons, List.map_nil, List.forall_mem_cons, List.not_mem_nil,
    false_implies, implies_true, and_true, ← transactionHex_reads object]
  constructor
  · rintro ⟨t, ht, h1, h2, h3, h4, h5, h6, h7, h8, h9, h10, h11, h12, hs, passes⟩
    exact ⟨⟨⟨t, ht, passes⟩, h1, h2, h3, h4, h5, h6, h7, h8, h9, h10, h11, h12⟩, hs⟩
  · rintro ⟨⟨⟨t, ht, passes⟩, h1, h2, h3, h4, h5, h6, h7, h8, h9, h10, h11, h12⟩, hs⟩
    exact ⟨t, ht, h1, h2, h3, h4, h5, h6, h7, h8, h9, h10, h11, h12, hs, passes⟩

end Success

/-! ## Bytes -/

/-- The bytes are those the text spells, and there are none exactly where it spells none. -/
def Denotes (hex : String) (bytes : List UInt8) : Prop :=
  Spells (stripHexPrefix hex.toList) bytes ∧ (bytes = [] ↔ stripHexPrefix hex.toList = [])

theorem denotes_of_spells {hex : String} {bytes : List UInt8}
    (h : Spells (stripHexPrefix hex.toList) bytes) : Denotes hex bytes := by
  refine ⟨h, ?_⟩
  have size := h.length
  rw [← List.length_eq_zero_iff, ← List.length_eq_zero_iff]
  omega

def BytesMatch (result : BuildResult) : Prop :=
  result.success = true → Denotes result.transactionHex result.transactionBytes

theorem bytesMatch_withTransactionBytes {result : BuildResult} (h : result.transactionBytes = []) :
    IfReturns BytesMatch (withTransactionBytes result) := by
  unfold withTransactionBytes
  split
  · rename_i empty
    apply ifReturns_pure
    intro _
    rw [empty, h]
    exact denotes_of_spells .nil
  · dsimp only
    split
    · exact ifReturns_pure nofun
    · rename_i passes
      simp only [Bool.or_eq_true, Bool.not_eq_true', not_or, Bool.not_eq_false] at passes
      obtain ⟨-, bytes, spelled⟩ := isHexString_iff.mp passes.2
      rw [hexToBytes_spells spelled]
      apply ifReturns_pure
      intro _
      exact denotes_of_spells spelled

theorem bytesMatch_buildResultFromJson (j : JsonTree) :
    IfReturns BytesMatch (buildResultFromJson j) := by
  unfold buildResultFromJson
  iterate 14
    apply ifReturns_bind
    intro _
  exact bytesMatch_withTransactionBytes rfl

/-! ## Return codes -/

/-- The operation returns, and a code other than 0 makes it report a failure with an error. -/
structure Honest [NativeResult α] (native : Option (Native Text)) (outcome : Throws α) : Prop where
  returns : ∃ result, outcome = .ok result
  failure : ∀ result answered, outcome = .ok result → native = some answered → answered.code ≠ 0 →
    success result = false ∧ error result ≠ ""

/-- No response claims success beside a code other than 0. -/
def Consistent (fields : List (String × (JsonTree → Bool)))
    (native : Option (Native Text)) : Prop :=
  ∀ answered, native = some answered → answered.code ≠ 0 →
    ¬ ∃ j, format.parse (answered.text format) = some j ∧ Accepted fields j

section Codes
variable {format} [NativeResult α] {fields : List (String × (JsonTree → Bool))}
  {read : JsonTree → Throws α} {native : Native Text}

theorem readResponse_success
    (hread : ∀ j, Yields (fun r => success r = true) (read j) ↔ Accepted fields j)
    (response : Text) : (∃ r, readResponse format read response = some r ∧ success r = true) ↔
      ∃ j, format.parse response = some j ∧ Accepted fields j := by
  unfold readResponse
  cases format.parse response with
  | none => simp
  | some j =>
    simp only [Option.bind_some, Option.some.injEq, exists_eq_left', ← hread]
    rw [Yields]
    cases read j <;> simp [Except.toOption]

/-- Behind a code other than 0 the error is never empty, but the flag stays as it was read. -/
theorem answer_failure
    (hread : ∀ j, Yields (fun r => success r = true) (read j) ↔ Accepted fields j)
    (messages : Messages) (what : String) (hcode : native.code ≠ 0) :
    (success (answer format messages read what native) = false ∧
      error (answer format messages read what native) ≠ "") ↔
      ¬ ∃ j, format.parse (native.text format) = some j ∧ Accepted fields j := by
  rw [← readResponse_success hread]
  unfold answer
  cases readResponse format read (native.text format) with
  | none => simp [success_withError, success_fresh, error_withError, messages.invalid_ne]
  | some result =>
    by_cases silent : error result = ""
    · simp [hcode, silent, success_withError, error_withError, messages.failed_ne]
    · simp [silent]

theorem buildAnswer_failure (what : String) (hcode : native.code ≠ 0) :
    ((buildAnswer format what native).success = false ∧
      (buildAnswer format what native).error ≠ "") ↔
      ¬ ∃ j, format.parse (native.text format) = some j ∧ Accepted buildFields j := by
  have spec := @readResponse_success _ _ format _ _ _ (fun j => @yields_buildResultFromJson j)
    (native.text format)
  rw [← spec]
  unfold buildAnswer
  rw [if_pos hcode]
  by_cases spelled : format.spell (native.text format) = ""
  · -- no text at all is no JSON
    have nothing : readResponse format buildResultFromJson (native.text format) = none := by
      rw [readResponse, format.spell_eq_empty.mp spelled, format.parse_blank, Option.bind_none]
    simp only [spelled, nothing, ne_eq, not_true_eq_false, if_false]
    exact ⟨fun _ => by simp, fun _ => ⟨trivial, buildMessages.failed_ne⟩⟩
  · cases found : readResponse format buildResultFromJson (native.text format) with
    | none => simp [spelled]
    | some result =>
      by_cases silent : result.error = ""
      · simp [spelled, silent, success, buildMessages.failed_ne]
      · simp [spelled, silent, success]

end Codes

/-! ## Every operation -/

namespace Backend

variable {format} (backend : Backend Text)

/-- What the library answers to a request, if it is asked. -/
def asked (format : Texts Text) (fn : Option (Text → Native Text)) (request : PlainJson) :
    Option (Native Text) :=
  (backend.usable fn).bind fun fn => (format.dump request.tree).toOption.map fn

/-- A result that reports a failure unless the response claims success. -/
theorem honest_iff_consistent [NativeResult α] {fields : List (String × (JsonTree → Bool))}
    {native : Native Text} {result : α}
    (failure : native.code ≠ 0 → (success result = false ∧ error result ≠ "" ↔
      ¬∃ j, format.parse (native.text format) = some j ∧ Accepted fields j)) :
    Honest (some native) (.ok result) ↔ Consistent format fields (some native) := by
  constructor
  · rintro h answered ⟨⟩ hcode
    exact (failure hcode).mp (h.failure _ _ rfl rfl hcode)
  · intro h
    refine ⟨⟨_, rfl⟩, ?_⟩
    rintro result answered ⟨⟩ ⟨⟩ hcode
    exact (failure hcode).mpr (h _ rfl hcode)

theorem honest_answer [NativeResult α] {fields : List (String × (JsonTree → Bool))}
    {read : JsonTree → Throws α}
    (hread : ∀ j, Yields (fun r => success r = true) (read j) ↔ Accepted fields j)
    (messages : Messages) (what : String) (native : Native Text) :
    Honest (some native) (.ok (answer format messages read what native)) ↔
      Consistent format fields (some native) :=
  honest_iff_consistent fun hcode => answer_failure hread messages what hcode

/-- Without the library there is no code. -/
theorem honest_none [NativeResult α] (result : α) :
    Honest (none : Option (Native Text)) (.ok result) := ⟨⟨result, rfl⟩, nofun⟩

/-- An operation that asks the library needs a request that can be written, and a response that
does not contradict the code. -/
theorem inquire_honest [NativeResult α] {fields : List (String × (JsonTree → Bool))}
    {read : JsonTree → Throws α}
    (hread : ∀ j, Yields (fun r => success r = true) (read j) ↔ Accepted fields j)
    (messages : Messages) (fn : Option (Text → Native Text)) (request : PlainJson) (what : String) :
    Honest (backend.asked format fn request)
        (backend.inquire format messages fn request read what) ↔
      ((backend.usable fn).isSome → request.writable = true) ∧
        Consistent format fields (backend.asked format fn request) := by
  unfold asked inquire
  cases backend.usable fn with
  | none => exact iff_of_true (honest_none _) ⟨nofun, nofun⟩
  | some fn =>
    dsimp only [Option.bind_some]
    cases dumped : format.dump request.tree with
    | error e =>
      refine iff_of_false (fun h => nomatch h.returns) ?_
      rintro ⟨hwritable, -⟩
      obtain ⟨text, written⟩ := PlainJson.dump_eq_ok.mpr (hwritable rfl)
      rw [dumped] at written
      cases written
    | ok text =>
      have hwritable : request.writable = true := PlainJson.dump_eq_ok.mp ⟨text, dumped⟩
      exact (honest_answer hread messages what (fn text)).trans
        (and_iff_right fun _ => hwritable).symm

theorem backendInfo_honest (what : String) :
    Honest (backend.usable backend.info_fn_) (.ok (backend.backendInfo format what)) ↔
      Consistent format infoFields (backend.usable backend.info_fn_) := by
  unfold backendInfo
  cases backend.usable backend.info_fn_ with
  | none => exact iff_of_true (honest_none _) nofun
  | some native =>
    exact honest_answer (fun _ => yields_backendInfoFromJson _) infoMessages what native

theorem honest_buildAnswer (what : String) (native : Native Text) :
    Honest (some native) (.ok (buildAnswer format what native)) ↔
      Consistent format buildFields (some native) :=
  honest_iff_consistent fun hcode => buildAnswer_failure what hcode

/-- The parameters are written, read back and written again as a part of the request. -/
theorem build_eq (call : LedgerCall) {text request : Text} {fn : Text → Native Text} (what : String)
    (husable : backend.usable backend.build_fn_ = some fn)
    (hparams : format.dump call.params.tree = .ok text)
    (hrequest : format.dump call.request.tree = .ok request) :
    backend.build format call what = .ok (buildAnswer format what (fn request)) := by
  have whole : JsonTree.ofFields [("operation", .string call.operation.toList),
      ("params", call.params.tree)] = call.request.tree := rfl
  rw [build, hparams, ok_bind, callBackend, husable]
  dsimp only
  rw [PlainJson.parse_dump hparams]
  dsimp only
  rw [ok_bind, whole, hrequest]
  rfl

theorem build_honest (call : LedgerCall) (what : String) :
    Honest (backend.asked format backend.build_fn_ call.request) (backend.build format call what) ↔
      call.params.writable = true ∧
        Consistent format buildFields (backend.asked format backend.build_fn_ call.request) := by
  cases hparams : format.dump call.params.tree with
  | error e =>
    have thrown : backend.build format call what = .error e := by
      rw [build, hparams]
      rfl
    rw [thrown]
    refine iff_of_false (fun h => nomatch h.returns) ?_
    rintro ⟨hwritable, -⟩
    obtain ⟨text, written⟩ := (@PlainJson.dump_eq_ok _ format.toJsonFormat _).mpr hwritable
    rw [hparams] at written
    cases written
  | ok text =>
    have hwritable : call.params.writable = true := PlainJson.dump_eq_ok.mp ⟨text, hparams⟩
    rw [and_iff_right hwritable]
    cases husable : backend.usable backend.build_fn_ with
    | none =>
      have missing : backend.build format call what = .ok (backend.unavailable buildMessages) := by
        rw [build, hparams, ok_bind, callBackend, husable]
        rfl
      rw [missing, asked, husable]
      exact iff_of_true (honest_none _) nofun
    | some fn =>
      obtain ⟨request, hrequest⟩ :=
        (@PlainJson.dump_eq_ok _ format.toJsonFormat _).mpr (call.writable_request.mpr hwritable)
      have answered : backend.asked format backend.build_fn_ call.request = some (fn request) := by
        rw [asked, husable, hrequest]
        rfl
      rw [backend.build_eq call what husable hparams hrequest, answered]
      exact honest_buildAnswer what (fn request)

theorem build_bytes (call : LedgerCall) (what : String) :
    IfReturns BytesMatch (backend.build format call what) := by
  have answered (native : Native Text) : BytesMatch (buildAnswer format what native) := by
    have read : ∀ result,
        readResponse format buildResultFromJson (native.text format) = some result →
          BytesMatch result := by
      intro result h
      obtain ⟨j, -, hj⟩ := Option.bind_eq_some_iff.mp h
      cases hread : buildResultFromJson j with
      | error e =>
        rw [hread] at hj
        cases hj
      | ok r =>
        rw [hread] at hj
        cases hj
        exact bytesMatch_buildResultFromJson j _ hread
    unfold buildAnswer
    dsimp only
    split
    · split
      · split
        · rename_i result found
          split
          · exact read result found
          · exact read result found
        · exact nofun
      · exact nofun
    · split
      · rename_i result found
        exact read result found
      · exact nofun
  unfold build
  apply ifReturns_bind
  intro paramsJson
  unfold callBackend
  split
  · exact ifReturns_pure nofun
  · dsimp only
    split
    · exact ifReturns_bind fun _ => ifReturns_bind fun _ => ifReturns_pure (answered _)
    · exact ifReturns_bind fun _ => ifReturns_bind fun _ => ifReturns_pure (answered _)

theorem writable_validateRequest (kind value network : List Char) :
    (validateRequest kind value network).writable = true ↔
      utf8 kind = true ∧ utf8 value = true ∧ utf8 network = true := by
  rw [validateRequest, PlainJson.writable_ofFields (by simp)]
  simp only [List.forall_mem_cons, List.not_mem_nil, false_implies, implies_true, and_true]
  have keys : utf8 "kind".toList = true ∧ utf8 "value".toList = true ∧
      utf8 "network".toList = true :=
    ⟨utf8_of_ascii (by simp), utf8_of_ascii (by simp), utf8_of_ascii (by simp)⟩
  rw [and_iff_right keys.1, and_iff_right keys.2.1, and_iff_right keys.2.2]
  rfl

theorem writable_inspectRequest (transactionHex : List Char) (ledgerVersion : UInt8) :
    (inspectRequest transactionHex ledgerVersion).writable = true ↔ utf8 transactionHex = true := by
  rw [inspectRequest, PlainJson.writable_ofFields (by simp)]
  simp only [List.forall_mem_cons, List.not_mem_nil, false_implies, implies_true, and_true]
  have keys : utf8 "transaction_hex".toList = true ∧ utf8 "ledger_version".toList = true :=
    ⟨utf8_of_ascii (by simp), utf8_of_ascii (by simp)⟩
  rw [and_iff_right keys.1, and_iff_right keys.2]
  exact and_iff_left rfl

/-- The default network is a text that can be written, and so is no text at all. -/
theorem writable_deriveRequest (seed network : List Char) :
    (deriveRequest seed network).writable = true ↔ utf8 seed = true ∧ utf8 network = true := by
  rw [deriveRequest, PlainJson.writable_ofFields (by simp)]
  simp only [List.forall_mem_cons, List.not_mem_nil, false_implies, implies_true, and_true]
  have keys : utf8 "seed".toList = true ∧ utf8 "network".toList = true :=
    ⟨utf8_of_ascii (by simp), utf8_of_ascii (by simp)⟩
  rw [and_iff_right keys.1, and_iff_right keys.2]
  by_cases empty : network = []
  · have preview : utf8 "preview".toList = true := utf8_of_ascii (by simp)
    rw [if_pos empty, empty]
    exact and_congr_right fun _ => iff_of_true preview rfl
  · rw [if_neg empty]
    rfl

/-- **What every operation does with a return code and a response.** A request that cannot be
written is an exception; a response that claims success beside a code other than 0 is believed;
the bytes of a transaction are always those of its text. -/
theorem honest_iff (format : Texts Text) (what : String) :
    (∀ call : LedgerCall,
      (Honest (backend.asked format backend.build_fn_ call.request)
          (backend.build format call what) ∧
        IfReturns BytesMatch (backend.build format call what)) ↔
      call.params.writable = true ∧
        Consistent format buildFields (backend.asked format backend.build_fn_ call.request)) ∧
    (Honest (backend.usable backend.info_fn_) (.ok (backend.backendInfo format what)) ↔
      Consistent format infoFields (backend.usable backend.info_fn_)) ∧
    (∀ kind value network : List Char,
      Honest (backend.asked format backend.validate_fn_ (validateRequest kind value network))
        (backend.validate format kind value network what) ↔
      ((backend.usable backend.validate_fn_).isSome →
        utf8 kind = true ∧ utf8 value = true ∧ utf8 network = true) ∧
        Consistent format validationFields
          (backend.asked format backend.validate_fn_ (validateRequest kind value network))) ∧
    (∀ (transactionHex : List Char) (ledgerVersion : UInt8),
      Honest (backend.asked format backend.inspect_tx_fn_
          (inspectRequest transactionHex ledgerVersion))
        (backend.inspectTransaction format transactionHex ledgerVersion what) ↔
      ((backend.usable backend.inspect_tx_fn_).isSome → utf8 transactionHex = true) ∧
        Consistent format inspectionFields
          (backend.asked format backend.inspect_tx_fn_
            (inspectRequest transactionHex ledgerVersion))) ∧
    ∀ seed network : List Char,
      Honest (backend.asked format backend.wallet_addresses_fn_ (deriveRequest seed network))
        (backend.deriveWalletAddresses format seed network what) ↔
      ((backend.usable backend.wallet_addresses_fn_).isSome →
        utf8 seed = true ∧ utf8 network = true) ∧
        Consistent format addressFields
          (backend.asked format backend.wallet_addresses_fn_ (deriveRequest seed network)) := by
  refine ⟨?_, backend.backendInfo_honest what, ?_, ?_, ?_⟩
  · intro call
    rw [and_iff_left (backend.build_bytes call what)]
    exact backend.build_honest call what
  · intro kind value network
    rw [← writable_validateRequest]
    exact backend.inquire_honest (fun _ => yields_validationFromJson) _ _ _ what
  · intro transactionHex ledgerVersion
    rw [← writable_inspectRequest transactionHex ledgerVersion]
    exact backend.inquire_honest (fun _ => yields_inspectionFromJson) _ _ _ what
  · intro seed network
    rw [← writable_deriveRequest]
    exact backend.inquire_honest (fun _ => yields_walletAddressesFromJson) _ _ _ what

/-- Texts that are the values themselves. -/
def sampleTexts : Texts (Option JsonTree) where
  toJsonFormat := .values
  spell text := if text = none then "" else "\x7b\x7d"
  spell_eq_empty {text} := by
    cases text <;> simp [JsonFormat.values]

/-- A library whose validation answers 1 and that it succeeded. -/
def contradicting : Backend (Option JsonTree) where
  build_fn_ := none
  info_fn_ := none
  wallet_addresses_fn_ := none
  validate_fn_ := some fun _ => ⟨1, some (some (.ofFields [("success", .boolean true)]))⟩
  inspect_tx_fn_ := none
  free_fn_ := true
  last_error_ := ""

/-- A success is reported beside the code 1, and a kind that is not UTF-8 is an exception. -/
theorem not_honest_contradicting :
    ¬ Honest (contradicting.asked sampleTexts contradicting.validate_fn_ (validateRequest [] [] []))
      (contradicting.validate sampleTexts [] [] [] "") ∧
    ¬ Honest (contradicting.asked sampleTexts contradicting.validate_fn_
        (validateRequest [Char.ofNat 255] [] []))
      (contradicting.validate sampleTexts [Char.ofNat 255] [] [] "") := by
  have spec (kind : List Char) := @inquire_honest _ _ sampleTexts contradicting _ _ _
    (fun _ => yields_validationFromJson) validateMessages contradicting.validate_fn_
    (validateRequest kind [] []) ""
  constructor
  · intro h
    have consistent := ((spec []).mp h).2
    have written : (validateRequest [] [] []).writable = true :=
      (writable_validateRequest [] [] []).mpr ⟨rfl, rfl, rfl⟩
    obtain ⟨text, dumped⟩ := (@PlainJson.dump_eq_ok _ sampleTexts.toJsonFormat _).mpr written
    refine consistent ⟨1, some (some (.ofFields [("success", .boolean true)]))⟩ ?_ (by decide) ?_
    · rw [asked, dumped]
      rfl
    · refine ⟨_, rfl, ?_, ?_⟩
      · rw [find?_ofFields (by simp)]
        rfl
      · intro field hfield v hv
        rw [find?_ofFields (by simp)] at hv
        simp only [validationFields, List.mem_cons, List.not_mem_nil, or_false] at hfield
        rcases hfield with rfl | rfl | rfl | rfl | rfl <;> cases hv
  · intro h
    have written := ((spec [Char.ofNat 255]).mp h).1 rfl
    exact absurd ((writable_validateRequest _ _ _).mp written).1 (by decide)

end Backend

end MidnightSdk.Ledger.FfiLedgerBackend
