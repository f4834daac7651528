import MidnightSdk.Ledger.FfiLedgerBackend
import MidnightSdk.Network.NodePaths
import MidnightSdk.Network.SignedSubmissions

/-!
# Submitting what the ledger built

A contract manager submits over one client of the node, a contract interactor over another, and
the server hands requests to either. All of them wrap the same bytes in the same extrinsic.
-/

namespace MidnightSdk.Contract

open Cpp HexText Interaction Ledger.FfiLedgerBackend Network Tx Util

/-- Both clients' `DeployResult`; the identifier is a `tx_hash` or a `txid`. -/
structure DeployResult where
  success : Bool := false
  txHash : String := ""
  contractAddress : String := ""
  error : String := ""
  deriving DecidableEq, Repr

structure CallResult where
  success : Bool := false
  txHash : String := ""
  error : String := ""
  deriving DecidableEq, Repr

inductive StatusCode where
  | OK
  | INVALID_ARGUMENT
  | FAILED_PRECONDITION
  | INTERNAL
  deriving DecidableEq, Repr

structure Status where
  code : StatusCode := .OK
  message : String := ""
  deriving DecidableEq, Repr

/-- The address of a deployed contract is not among what the server fills in. -/
structure ContractResponse where
  success : String
  result : String := ""
  error : String := ""
  deriving DecidableEq, Repr

structure SubmitTxResponse where
  txHash : String := ""
  success : Bool
  error : String := ""
  deriving DecidableEq, Repr

section Submitting

variable {Text : Type} (format : Texts Text) (ledgerBackend : Option (Backend Text)) (what : String)
variable (dump : Json → String) (typeErrorText : Nat → String)

def canInspectTransactions (ffi : Backend Text) : Bool := ffi.inspect_tx_fn_.isSome && ffi.free_fn_

/-- The address a native library sees in a deployment. -/
def inspectedAddress (transactionBytes : List UInt8) : Throws String :=
  match ledgerBackend with
  | none => return ""
  | some ffi =>
    if canInspectTransactions ffi then do
      let inspection ← ffi.inspectTransaction format (bytesToHex transactionBytes) 8 what
      return if inspection.success then inspection.contractAddress else ""
    else return ""

namespace ContractManager

def submitMidnightTxBytes (transactionBytes : List UInt8) : SubstrateRpc.Act String := do
  if transactionBytes.isEmpty then
    Action.throw (.runtimeError "Midnight transaction bytes cannot be empty")
  else
    let call ← Action.ofExcept
      (PalletCall.midnightSendMnTransaction transactionBytes midnightPallet)
    let builder ← Action.ofExcept (ExtrinsicBuilder.make unsignedParams)
    let extrinsic := builder.buildUnsigned call
    let submit ← SubstrateRpc.submitExtrinsic typeErrorText
      (String.ofList (ensureHexPrefix (SubstrateRpc.toHex extrinsic).toList))
    if !submit.success then
      Action.throw (.runtimeError
        (if submit.error.isEmpty then "author_submitExtrinsic failed" else submit.error))
    else return submit.txHash

def submitDeployTransaction (transactionBytes : List UInt8) : SubstrateRpc.Act DeployResult :=
  match inspectedAddress format ledgerBackend what transactionBytes with
  | .error e => return { error := e.what typeErrorText }
  | .ok contractAddress =>
    Action.catching
      (do
        let txHash ← submitMidnightTxBytes typeErrorText transactionBytes
        return { success := !txHash.isEmpty, txHash, contractAddress })
      fun e => return { contractAddress, error := e.what typeErrorText }

def submitCallTransaction (transactionBytes : List UInt8) : SubstrateRpc.Act CallResult :=
  Action.catching
    (do
      let txHash ← submitMidnightTxBytes typeErrorText transactionBytes
      return { success := !txHash.isEmpty, txHash })
    fun e => return { error := e.what typeErrorText }

end ContractManager

namespace ContractInteractor

def submitSerializedTransaction (transactionBytes : List UInt8) : NodeRpc.Act CallResult :=
  if transactionBytes.isEmpty then
    return { error := "Serialized transaction bytes cannot be empty." }
  else
    Action.catching
      (do
        let txid ← NodeRpc.submitTransaction dump typeErrorText
          (ensureHexPrefix (bytesToHex transactionBytes))
        return if txid.isEmpty then { error := "Node RPC returned an empty transaction hash." }
          else { success := true, txHash := txid })
      fun e => return { error := "Serialized transaction submit failed: " ++ e.what typeErrorText }

/-- The inspection stands outside of the `try`. -/
def submitDeployTransaction (transactionBytes : List UInt8) : NodeRpc.Act DeployResult := do
  let contractAddress ← Action.ofExcept
    (inspectedAddress format ledgerBackend what transactionBytes)
  let submit ← submitSerializedTransaction dump typeErrorText transactionBytes
  return { success := submit.success, txHash := submit.txHash, contractAddress
           error := submit.error }

def submitCallTransaction : List UInt8 → NodeRpc.Act CallResult :=
  submitSerializedTransaction dump typeErrorText

def submitTransferTransaction : List UInt8 → NodeRpc.Act CallResult :=
  submitSerializedTransaction dump typeErrorText

def submitDustRegistrationTransaction : List UInt8 → NodeRpc.Act CallResult :=
  submitSerializedTransaction dump typeErrorText

end ContractInteractor

namespace MidnightGrpcServer

/-- A result as the server tells it. -/
def told (success : Bool) (txHash error : String) : Status × ContractResponse :=
  (if success then {} else ⟨.INTERNAL, error⟩,
    { success := if success then "true" else "false", result := txHash, error })

/-- An exception at the end of a handler. -/
def failed (e : Exception) : Status × ContractResponse :=
  (⟨.INTERNAL, e.what typeErrorText⟩, { success := "false", error := e.what typeErrorText })

def unconfigured (message : String) : Status × ContractResponse :=
  (⟨.FAILED_PRECONDITION, message⟩, { success := "false", error := "ContractManager not configured" })

def missing (message : String) : Status × ContractResponse :=
  (⟨.INVALID_ARGUMENT, message⟩, { success := "false", error := message })

def deployContract (contractMgr : Bool) (code : List UInt8) :
    SubstrateRpc.Act (Status × ContractResponse) :=
  if !contractMgr then
    return unconfigured ("ContractManager not configured — cannot deploy contract via gRPC. " ++
      "Use ContractInteractor::submit_deploy_transaction() with ledger-built bytes.")
  else if code.isEmpty then
    return missing "DeployContract requires ledger-built deployment transaction bytes in code"
  else
    Action.catching
      (do
        let result ← ContractManager.submitDeployTransaction format ledgerBackend what
          typeErrorText code
        return told result.success result.txHash result.error)
      fun e => return failed typeErrorText e

def callContract (contractMgr : Bool) (callData : List UInt8) :
    SubstrateRpc.Act (Status × ContractResponse) :=
  if !contractMgr then
    return unconfigured "ContractManager not configured — cannot call contract via gRPC."
  else if callData.isEmpty then
    return missing "CallContract requires ledger-built call transaction bytes in call_data"
  else
    Action.catching
      (do
        let result ← ContractManager.submitCallTransaction typeErrorText callData
        return told result.success result.txHash result.error)
      fun e => return failed typeErrorText e

/-- The status is `OK` whatever the response says. -/
def submitTransaction (nodeRpc : Bool) (transaction : List UInt8) :
    NodeRpc.Act SubmitTxResponse :=
  if !nodeRpc then return { success := false, error := "MidnightNodeRPC not configured" }
  else
    Action.catching
      (do
        let txHash ← NodeRpc.submitTransaction dump typeErrorText (bytesToHex transaction)
        return { success := true, txHash })
      fun e => return { success := false, error := e.what typeErrorText }

end MidnightGrpcServer

end Submitting

/-! ## The extrinsic around a transaction -/

/-- The text that stands for a transaction on the wire. -/
def Wraps (tx : List UInt8) (payload : List Char) : Prop :=
  ∃ call builder, PalletCall.midnightSendMnTransaction tx midnightPallet = .ok call ∧
    ExtrinsicBuilder.make unsignedParams = .ok builder ∧
    payload = ensureHexPrefix (bytesToHex (builder.buildUnsigned call))

theorem Wraps.unique {tx : List UInt8} {payload payload' : List Char} (h : Wraps tx payload)
    (h' : Wraps tx payload') : payload = payload' := by
  obtain ⟨call, builder, hcall, hbuilder, rfl⟩ := h
  obtain ⟨call', builder', hcall', hbuilder', rfl⟩ := h'
  rw [hcall] at hcall'
  rw [hbuilder] at hbuilder'
  cases hcall'
  cases hbuilder'
  rfl

theorem wraps_of_transactionExtrinsic {txHex payload : List Char}
    (h : transactionExtrinsic txHex = .ok payload) :
    ∃ tx, hexToBytes (stripHexPrefix txHex) = .ok tx ∧ Wraps tx payload := by
  simp only [transactionExtrinsic] at h
  split at h
  · cases h
  · split at h
    · cases h
    · obtain ⟨tx, hread, h⟩ := bind_eq_ok.mp h
      obtain ⟨call, hcall, h⟩ := bind_eq_ok.mp h
      obtain ⟨builder, hbuilder, h⟩ := bind_eq_ok.mp h
      cases h
      exact ⟨tx, hread, call, builder, hcall, hbuilder, rfl⟩

theorem bytesToHex_ne_nil {bytes : List UInt8} (hne : bytes ≠ []) : bytesToHex bytes ≠ [] := by
  cases bytes with
  | nil => exact absurd rfl hne
  | cons byte rest => exact List.cons_ne_nil _ _

/-- The text of a transaction reads back as the transaction. -/
theorem exists_wraps {tx : List UInt8} (hne : tx ≠ []) (hsize : tx.length < 2 ^ 62) :
    ∃ hex extrinsic, Spells hex extrinsic ∧
      decodeExtrinsic extrinsic = some ⟨0x04, 5, 0x00, tx⟩ ∧
      Wraps tx (['0', 'x'] ++ hex) := by
  have spells := bytesToHex_spells tx
  have even := spells.length
  have written := bytesToHex_ne_nil hne
  obtain ⟨extrinsic, built, decoded⟩ :=
    transactionExtrinsic_spells List.mem_cons_self spells written (by omega)
  obtain ⟨tx', hread, wraps⟩ := wraps_of_transactionExtrinsic built
  rw [stripHexPrefix_digits List.mem_cons_self spells.mem_digits, hexToBytes_spells spells] at hread
  cases hread
  exact ⟨bytesToHex extrinsic, extrinsic, bytesToHex_spells extrinsic, decoded, wraps⟩

/-! ## Over the client of the manager -/

variable {s t : SubstrateRpc} {seen : SubstrateRpc.Seen} {typeErrorText : Nat → String}
variable {tx : List UInt8} {hex : List Char}

theorem ran_submitExtrinsic {extrinsicHex : String} {result : Throws SubmitResult}
    (h : Ran (SubstrateRpc.submitExtrinsic typeErrorText extrinsicHex) s seen result t) :
    ∃ answer, SubstrateRpc.Made "author_submitExtrinsic" (.array [.string extrinsicHex]) s seen
        answer t ∧
      ∃ submit, result = .ok submit ∧ ∀ hash,
        (submit.success = true ∧ submit.txHash = hash) ↔ answer = .ok (.string hash) := by
  rcases ran_catching h with ⟨submit, hact, rfl⟩ | ⟨e, mid, before, after, rfl, hact, hend⟩
  · obtain ⟨response, mid, before, after, rfl, hcall, hrest⟩ := ran_bind_ok hact
    refine ⟨.ok response, ?_, submit, rfl, ?_⟩
    · cases response with
      | string hash | _ =>
        obtain ⟨rfl, -, rfl⟩ := ran_pure hrest
        rw [List.append_nil]
        exact SubstrateRpc.ran_rpcCall hcall
    · cases response with
      | string hash =>
        obtain ⟨-, ok, -⟩ := ran_pure hrest
        cases ok
        simp
      | _ =>
        obtain ⟨-, ok, -⟩ := ran_pure hrest
        cases ok
        simp
  · rcases ran_bind hact with ⟨e', hcall, he⟩ | ⟨response, _, _, _, rfl, hcall, hrest⟩
    · cases he
      obtain ⟨rfl, rfl, rfl⟩ := ran_pure hend
      rw [List.append_nil]
      exact ⟨.error e, SubstrateRpc.ran_rpcCall hcall, _, rfl, by simp⟩
    · cases response with
      | string hash | _ =>
        obtain ⟨-, ok, -⟩ := ran_pure hrest
        cases ok

/-- A prefix of its own is left as it is. -/
theorem ensureHexPrefix_twice {text : List Char} (h : ensureHexPrefix text = ['0', 'x'] ++ hex)
    (hdigits : ∀ c ∈ text, c ∈ digits) : ensureHexPrefix (['0', 'x'] ++ text) = ['0', 'x'] ++ hex := by
  have hne : text ≠ [] := by
    rintro rfl
    cases h
  rw [← h, ensureHexPrefix_digits hne hdigits]
  rfl

theorem ran_submitMidnightTxBytes (hne : tx ≠ []) (wraps : Wraps tx (['0', 'x'] ++ hex))
    {result : Throws String}
    (h : Ran (ContractManager.submitMidnightTxBytes typeErrorText tx) s seen result t) :
    ∃ answer, SubstrateRpc.Made "author_submitExtrinsic" (NodeRpc.submission (['0', 'x'] ++ hex)) s
        seen answer t ∧
      ∀ hash, result = .ok hash ↔ answer = .ok (.string hash) := by
  obtain ⟨call, builder, hcall, hbuilder, hpayload⟩ := wraps
  have some : tx.isEmpty = false := by simpa using hne
  have posted := ensureHexPrefix_twice hpayload.symm (bytesToHex_spells _).mem_digits
  rw [ContractManager.submitMidnightTxBytes, some, hcall, hbuilder] at h
  have hsubmit := ran_pure_bind (ran_pure_bind h)
  simp only [SubstrateRpc.toHex, String.toList_ofList, posted] at hsubmit
  rcases ran_bind hsubmit with ⟨e, hact, -⟩ | ⟨submit, mid, before, after, rfl, hact, hend⟩
  · obtain ⟨_, -, _, ok, -⟩ := ran_submitExtrinsic hact
    cases ok
  · obtain ⟨answer, made, _, ok, hsays⟩ := ran_submitExtrinsic hact
    cases ok
    cases hsuccess : submit.success with
    | false =>
      simp only [hsuccess, Bool.not_false, if_true] at hend
      obtain ⟨rfl, rfl, rfl⟩ := ran_throw hend
      rw [List.append_nil]
      refine ⟨answer, made, fun hash => ?_⟩
      rw [← hsays, hsuccess]
      simp
    | true =>
      simp only [hsuccess, Bool.not_true, Bool.false_eq_true, if_false] at hend
      obtain ⟨rfl, rfl, rfl⟩ := ran_pure hend
      rw [List.append_nil]
      refine ⟨answer, made, fun hash => ?_⟩
      rw [← hsays, hsuccess]
      simp

variable {Text : Type}

theorem ascii_of_digit {c : Char} (h : c ∈ digits) : c.toNat < 0x80 := by
  have all : ∀ c ∈ digits, c.toNat < 0x80 := List.forall_iff_forall_mem.mp (by decide)
  exact all c h

/-- Hex can be written, so that an inspection throws nothing. -/
theorem exists_inspectedAddress (format : Texts Text) (ledgerBackend : Option (Backend Text))
    (what : String) (tx : List UInt8) :
    ∃ address, inspectedAddress format ledgerBackend what tx = .ok address := by
  cases ledgerBackend with
  | none => exact ⟨"", rfl⟩
  | some ffi =>
    cases hcan : canInspectTransactions ffi with
    | false =>
      refine ⟨"", ?_⟩
      simp only [inspectedAddress, hcan, Bool.false_eq_true, if_false]
      rfl
    | true =>
      have ascii : JsonTree.utf8 (bytesToHex tx) = true := by
        apply JsonTree.utf8_of_ascii
        intro c hmem
        exact ascii_of_digit (bytesToHex_spells tx |>.mem_digits c hmem)
      have writes := (Backend.writable_inspectRequest (bytesToHex tx) 8).mpr ascii
      obtain ⟨text, dumped⟩ := format.dump_writable writes
      have asked : ∃ inspection, ffi.inspectTransaction format (bytesToHex tx) 8 what =
          .ok inspection := by
        rw [Backend.inspectTransaction, Backend.inquire]
        cases ffi.usable ffi.inspect_tx_fn_ with
        | none => exact ⟨_, rfl⟩
        | some fn =>
          rw [dumped]
          exact ⟨_, rfl⟩
      obtain ⟨inspection, hinspection⟩ := asked
      simp only [inspectedAddress, hcan, if_true, hinspection]
      exact ⟨_, rfl⟩

/-! ## Every way in -/

/-- The identifier of a transaction that was reported as accepted. -/
def accepted (success : Bool) (txHash : String) : Option String :=
  if success then some txHash else none

/-- The ways over the client of the manager. -/
inductive ManagerEntry where
  | deploy
  | call
  | grpcDeploy
  | grpcCall
  deriving DecidableEq, Repr

def ManagerEntry.submit (format : Texts Text) (ledgerBackend : Option (Backend Text))
    (what : String) (typeErrorText : Nat → String) (transactionBytes : List UInt8) :
    ManagerEntry → SubstrateRpc.Act (Option String)
  | deploy => do
    let result ← ContractManager.submitDeployTransaction format ledgerBackend what typeErrorText
      transactionBytes
    return accepted result.success result.txHash
  | call => do
    let result ← ContractManager.submitCallTransaction typeErrorText transactionBytes
    return accepted result.success result.txHash
  | grpcDeploy => do
    let reply ← MidnightGrpcServer.deployContract format ledgerBackend what typeErrorText true
      transactionBytes
    return accepted (reply.2.success = "true") reply.2.result
  | grpcCall => do
    let reply ← MidnightGrpcServer.callContract typeErrorText true transactionBytes
    return accepted (reply.2.success = "true") reply.2.result

/-- The ways over the client of the interactor. -/
inductive InteractorEntry where
  | deploy
  | call
  | transfer
  | dustRegistration
  | grpcSubmit
  deriving DecidableEq, Repr

def InteractorEntry.submit (format : Texts Text) (ledgerBackend : Option (Backend Text))
    (what : String) (dump : Json → String) (typeErrorText : Nat → String)
    (transactionBytes : List UInt8) :
    InteractorEntry → NodeRpc.Act (Option String)
  | deploy => do
    let result ← ContractInteractor.submitDeployTransaction format ledgerBackend what dump
      typeErrorText transactionBytes
    return accepted result.success result.txHash
  | call => do
    let result ← ContractInteractor.submitCallTransaction dump typeErrorText transactionBytes
    return accepted result.success result.txHash
  | transfer => do
    let result ← ContractInteractor.submitTransferTransaction dump typeErrorText transactionBytes
    return accepted result.success result.txHash
  | dustRegistration => do
    let result ← ContractInteractor.submitDustRegistrationTransaction dump typeErrorText
      transactionBytes
    return accepted result.success result.txHash
  | grpcSubmit => do
    let response ← MidnightGrpcServer.submitTransaction dump typeErrorText true transactionBytes
    return accepted response.success response.txHash

variable {format : Texts Text} {ledgerBackend : Option (Backend Text)} {what : String}

/-- What is accepted was returned, and is not empty. -/
def Reports (result : Throws (Option String)) (got : Throws String) : Prop :=
  ∃ outcome, result = .ok outcome ∧ ∀ txHash, outcome = some txHash ↔ got = .ok txHash ∧ txHash ≠ ""

theorem reports_of {got : Throws String} {outcome : Option String}
    (h : outcome = either (fun txHash => accepted (!txHash.isEmpty) txHash) (fun _ => none) got) :
    Reports (.ok outcome) got := by
  refine ⟨outcome, rfl, fun txHash => ?_⟩
  rw [h]
  cases got with
  | error e => simp [either]
  | ok hash =>
    by_cases hempty : hash = ""
    · have none : hash.isEmpty = true := by simpa using hempty
      simp only [either, accepted, none, Bool.not_true, Bool.false_eq_true, if_false,
        reduceCtorEq, false_iff, Except.ok.injEq]
      rintro ⟨rfl, hne⟩
      exact hne hempty
    · have some : hash.isEmpty = false := by simpa using hempty
      simp only [either, accepted, some, Bool.not_false, if_true, Option.some.injEq,
        Except.ok.injEq]
      constructor
      · rintro rfl
        exact ⟨rfl, hempty⟩
      · exact fun h => h.1

theorem accepted_told (success : Bool) (txHash error : String) :
    accepted ((MidnightGrpcServer.told success txHash error).2.success = "true")
      (MidnightGrpcServer.told success txHash error).2.result = accepted success txHash := by
  cases success with
  | false => rfl
  | true => rfl

theorem ran_managerEntry {entry : ManagerEntry} (hne : tx ≠ []) {result : Throws (Option String)}
    (h : Ran (entry.submit format ledgerBackend what typeErrorText tx) s seen result t) :
    ∃ got, Ran (ContractManager.submitMidnightTxBytes typeErrorText tx) s seen got t ∧
      Reports result got := by
  have some : tx.isEmpty = false := by simpa using hne
  obtain ⟨address, inspected⟩ := exists_inspectedAddress format ledgerBackend what tx
  cases entry with
  | deploy =>
    obtain ⟨reply, hact, rfl⟩ := ran_map h
    rw [ContractManager.submitDeployTransaction, inspected] at hact
    obtain ⟨got, hsubmit, rfl⟩ := ran_handled hact
    refine ⟨got, hsubmit, reports_of ?_⟩
    cases got with
    | ok txHash => rfl
    | error e => rfl
  | call =>
    obtain ⟨reply, hact, rfl⟩ := ran_map h
    obtain ⟨got, hsubmit, rfl⟩ := ran_handled hact
    refine ⟨got, hsubmit, reports_of ?_⟩
    cases got with
    | ok txHash => rfl
    | error e => rfl
  | grpcDeploy =>
    obtain ⟨reply, hact, rfl⟩ := ran_map h
    rw [MidnightGrpcServer.deployContract, some] at hact
    obtain ⟨result, hdeploy, rfl⟩ := ran_handled hact
    rw [ContractManager.submitDeployTransaction, inspected] at hdeploy
    obtain ⟨got, hsubmit, rfl⟩ := ran_handled hdeploy
    refine ⟨got, hsubmit, reports_of ?_⟩
    cases got with
    | ok txHash => exact accepted_told _ _ _
    | error e => rfl
  | grpcCall =>
    obtain ⟨reply, hact, rfl⟩ := ran_map h
    rw [MidnightGrpcServer.callContract, some] at hact
    obtain ⟨result, hcall, rfl⟩ := ran_handled hact
    obtain ⟨got, hsubmit, rfl⟩ := ran_handled hcall
    refine ⟨got, hsubmit, reports_of ?_⟩
    cases got with
    | ok txHash => exact accepted_told _ _ _
    | error e => rfl

variable {dump : Json → String} {a b : NodeRpc} {asked : NodeRpc.Seen}

theorem ran_submitSerializedTransaction (hne : tx ≠ []) {result : Throws CallResult}
    (h : Ran (ContractInteractor.submitSerializedTransaction dump typeErrorText tx) a asked result b) :
    ∃ got, Ran (NodeRpc.submitTransaction dump typeErrorText (['0', 'x'] ++ bytesToHex tx)) a asked
        got b ∧
      ∃ call, result = .ok call ∧ accepted call.success call.txHash =
        either (fun txHash => accepted (!txHash.isEmpty) txHash) (fun _ => none) got := by
  have some : tx.isEmpty = false := by simpa using hne
  have digits := (bytesToHex_spells tx).mem_digits
  have written := bytesToHex_ne_nil hne
  rw [ContractInteractor.submitSerializedTransaction, some,
    ensureHexPrefix_digits written digits] at h
  obtain ⟨got, hsubmit, rfl⟩ := ran_handled h
  refine ⟨got, hsubmit, _, rfl, ?_⟩
  cases got with
  | error e => rfl
  | ok txHash =>
    rw [either, either]
    cases txHash.isEmpty with
    | true => rfl
    | false => rfl

theorem ran_interactorEntry {entry : InteractorEntry} (hne : tx ≠ [])
    {result : Throws (Option String)}
    (h : Ran (entry.submit format ledgerBackend what dump typeErrorText tx) a asked result b) :
    ∃ lead ∈ [[], ['0', 'x'], ['0', 'X']], ∃ got,
      Ran (NodeRpc.submitTransaction dump typeErrorText (lead ++ bytesToHex tx)) a asked got b ∧
        Reports result got := by
  have serialized {result : Throws (Option String)}
      (h : Ran (do
        let call ← ContractInteractor.submitSerializedTransaction dump typeErrorText tx
        return accepted call.success call.txHash) a asked result b) :
      ∃ lead ∈ [[], ['0', 'x'], ['0', 'X']], ∃ got,
        Ran (NodeRpc.submitTransaction dump typeErrorText (lead ++ bytesToHex tx)) a asked got b ∧
          Reports result got := by
    obtain ⟨reply, hact, rfl⟩ := ran_map h
    obtain ⟨got, hsubmit, call, rfl, hcall⟩ := ran_submitSerializedTransaction hne hact
    exact ⟨_, by simp, got, hsubmit, reports_of hcall⟩
  cases entry with
  | call => exact serialized h
  | transfer => exact serialized h
  | dustRegistration => exact serialized h
  | deploy =>
    obtain ⟨address, inspected⟩ := exists_inspectedAddress format ledgerBackend what tx
    obtain ⟨reply, hact, rfl⟩ := ran_map h
    rw [ContractInteractor.submitDeployTransaction, inspected] at hact
    obtain ⟨_, hserialized, rfl⟩ := ran_map (ran_pure_bind hact)
    obtain ⟨got, hsubmit, call, rfl, hcall⟩ := ran_submitSerializedTransaction hne hserialized
    exact ⟨_, by simp, got, hsubmit, reports_of hcall⟩
  | grpcSubmit =>
    obtain ⟨reply, hact, rfl⟩ := ran_map h
    obtain ⟨got, hsubmit, rfl⟩ := ran_handled hact
    refine ⟨[], by simp, got, hsubmit, _, rfl, fun txHash => ?_⟩
    cases got with
    | error e => simp [either, accepted]
    | ok hash =>
      simp only [either, accepted]
      constructor
      · intro h
        cases h
        exact ⟨rfl, NodeRpc.submitted_ne_empty hsubmit⟩
      · rintro ⟨h, -⟩
        cases h
        rfl

/-! ## Nothing to submit -/

theorem ran_managerEntry_nil {entry : ManagerEntry} {result : Throws (Option String)}
    (h : Ran (entry.submit format ledgerBackend what typeErrorText []) s seen result t) :
    seen = [] ∧ result = .ok none := by
  obtain ⟨address, inspected⟩ := exists_inspectedAddress format ledgerBackend what []
  cases entry with
  | deploy =>
    obtain ⟨reply, hact, rfl⟩ := ran_map h
    rw [ContractManager.submitDeployTransaction, inspected] at hact
    obtain ⟨got, hsubmit, rfl⟩ := ran_handled hact
    obtain ⟨rfl, rfl, -⟩ := ran_throw hsubmit
    exact ⟨rfl, rfl⟩
  | call =>
    obtain ⟨reply, hact, rfl⟩ := ran_map h
    obtain ⟨got, hsubmit, rfl⟩ := ran_handled hact
    obtain ⟨rfl, rfl, -⟩ := ran_throw hsubmit
    exact ⟨rfl, rfl⟩
  | grpcDeploy | grpcCall =>
    obtain ⟨reply, hact, rfl⟩ := ran_map h
    obtain ⟨rfl, rfl, -⟩ := ran_pure hact
    exact ⟨rfl, rfl⟩

theorem ran_interactorEntry_nil {entry : InteractorEntry} {result : Throws (Option String)}
    (h : Ran (entry.submit format ledgerBackend what dump typeErrorText []) a asked result b) :
    asked = [] ∧ result = .ok none := by
  cases entry with
  | call | transfer | dustRegistration =>
    obtain ⟨reply, hact, rfl⟩ := ran_map h
    obtain ⟨rfl, rfl, -⟩ := ran_pure hact
    exact ⟨rfl, rfl⟩
  | deploy =>
    obtain ⟨address, inspected⟩ := exists_inspectedAddress format ledgerBackend what []
    obtain ⟨reply, hact, rfl⟩ := ran_map h
    rw [ContractInteractor.submitDeployTransaction, inspected] at hact
    obtain ⟨_, hserialized, rfl⟩ := ran_map (ran_pure_bind hact)
    obtain ⟨rfl, rfl, -⟩ := ran_pure hserialized
    exact ⟨rfl, rfl⟩
  | grpcSubmit =>
    obtain ⟨reply, hact, rfl⟩ := ran_map h
    obtain ⟨got, hsubmit, rfl⟩ := ran_handled hact
    obtain ⟨rfl, rfl, -⟩ := ran_throw hsubmit
    exact ⟨rfl, rfl⟩

section Agreement

variable (format : Texts Text) (ledgerBackend : Option (Backend Text)) (what : String)
variable (dump : Json → String) (typeErrorText : Nat → String) (tx : List UInt8)

/-- By no way anything is asked of the node. -/
def NothingSent : Prop :=
  (∀ (entry : ManagerEntry) s seen result t,
    Ran (entry.submit format ledgerBackend what typeErrorText tx) s seen result t →
      seen = [] ∧ result = .ok none) ∧
  ∀ (entry : InteractorEntry) s seen result t,
    Ran (entry.submit format ledgerBackend what dump typeErrorText tx) s seen result t →
      seen = [] ∧ result = .ok none

/-- By every way this one text goes out, and what is accepted was named by the node. -/
def SentAs (payload : List Char) : Prop :=
  (∀ (entry : ManagerEntry) s seen result t,
    Ran (entry.submit format ledgerBackend what typeErrorText tx) s seen result t →
      ∃ answer outcome, SubstrateRpc.Made "author_submitExtrinsic" (NodeRpc.submission payload) s
          seen answer t ∧ result = .ok outcome ∧
        ∀ txHash, outcome = some txHash ↔ answer = .ok (.string txHash) ∧ txHash ≠ "") ∧
  ∀ (entry : InteractorEntry) s seen result t,
    Ran (entry.submit format ledgerBackend what dump typeErrorText tx) s seen result t →
      ∃ sent outcome, NodeRpc.Delivered dump s payload seen sent ∧ result = .ok outcome ∧
        ∀ txHash, outcome = some txHash ↔ sent = .ok txHash ∧ txHash ≠ ""

/-- **One transaction, one extrinsic.** By whatever way a transaction comes in, and whatever the
node answers, the same text goes out and reads back as the transaction: over the manager's client
in one call, over the interactor's in one delivery. No bytes are never sent. -/
theorem submissions_agree (hsize : tx.length < 2 ^ 62) :
    if tx = [] then NothingSent format ledgerBackend what dump typeErrorText tx
    else ∃ hex extrinsic, Spells hex extrinsic ∧
      decodeExtrinsic extrinsic = some ⟨0x04, 5, 0x00, tx⟩ ∧
      SentAs format ledgerBackend what dump typeErrorText tx (['0', 'x'] ++ hex) := by
  by_cases hne : tx = []
  · rw [if_pos hne, hne]
    exact ⟨fun entry s seen result t h => ran_managerEntry_nil h,
      fun entry s seen result t h => ran_interactorEntry_nil h⟩
  · rw [if_neg hne]
    obtain ⟨hex, extrinsic, spells, decoded, wraps⟩ := exists_wraps hne hsize
    refine ⟨hex, extrinsic, spells, decoded, ?_, ?_⟩
    · intro entry s seen result t h
      obtain ⟨got, hsubmit, outcome, rfl, hreports⟩ := ran_managerEntry hne h
      obtain ⟨answer, made, hgot⟩ := ran_submitMidnightTxBytes hne wraps hsubmit
      refine ⟨answer, outcome, made, rfl, fun txHash => ?_⟩
      rw [hreports, hgot]
    · intro entry s seen result t h
      obtain ⟨lead, hlead, got, hsubmit, outcome, rfl, hreports⟩ := ran_interactorEntry hne h
      have text := bytesToHex_spells tx
      have length := text.length
      obtain ⟨digits, -, -, -, built, delivers⟩ :=
        NodeRpc.ran_submitTransaction hlead text (bytesToHex_ne_nil hne) (by omega)
      obtain ⟨tx', hread, wraps'⟩ := wraps_of_transactionExtrinsic built
      rw [stripHexPrefix_digits hlead text.mem_digits, hexToBytes_spells text] at hread
      cases hread
      obtain rfl := List.append_cancel_left (wraps'.unique wraps)
      exact ⟨got, outcome, delivers hsubmit, rfl, hreports⟩

end Agreement

theorem submissions_agree_oneByte :
    if [0x0a] = ([] : List UInt8) then
      NothingSent Backend.sampleTexts none "" (fun _ => "") (fun _ => "") [0x0a]
    else ∃ hex extrinsic, Spells hex extrinsic ∧
      decodeExtrinsic extrinsic = some ⟨0x04, 5, 0x00, [0x0a]⟩ ∧
      SentAs Backend.sampleTexts none "" (fun _ => "") (fun _ => "") [0x0a] (['0', 'x'] ++ hex) :=
  submissions_agree Backend.sampleTexts none "" (fun _ => "") (fun _ => "") [0x0a] (by decide)

end MidnightSdk.Contract
