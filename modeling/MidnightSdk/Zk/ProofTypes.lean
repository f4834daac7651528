import MidnightSdk.Library.JsonTree
import MidnightSdk.Util.HexDecoders

/-!
# Proof types as JSON

Proofs, requests for them, transactions that carry them and the contexts of their
witnesses, with the JSON values they are turned into and read from. A map that is
empty leaves no object behind, and a value that is no object is read as an empty map.
-/

namespace MidnightSdk.Zk

open Cpp JsonTree

abbrev StringMap : Type := OrderedMap (List Char) (List Char)

/-- The stream writer: `std::hex`, two places a byte, filled up with zeros. -/
def toHex (bytes : List UInt8) : List Char := Util.bytesToHex bytes

/-- The loop over `hex.substr(i, 2)`; of an odd text the last piece is one character. -/
def stoulBytes : List Char → Throws (List UInt8)
  | hi :: lo :: rest => do
    let byte ← Stoul.stoul16 [hi, lo]
    let bytes ← stoulBytes rest
    return byte.toUInt8 :: bytes
  | [last] => do
    let byte ← Stoul.stoul16 [last]
    return [byte.toUInt8]
  | [] => return []

structure ProofData where
  proofBytes : List UInt8

namespace ProofData

def toJson (proof : ProofData) : JsonTree :=
  .ofFields [("proof_hex", .string (toHex proof.proofBytes)),
    ("size", .integer proof.proofBytes.length)]

def fromJson (j : JsonTree) : Throws ProofData := do
  let hex ← (← j.at' "proof_hex").getString
  return ⟨← parseHexBytes hex "proof"⟩

end ProofData

structure PublicInputs where
  inputs : StringMap

namespace PublicInputs

def toJson (pi : PublicInputs) : JsonTree :=
  .ofFields ((if pi.inputs.entries.isEmpty then [] else [("inputs", .ofMap .string pi.inputs)]) ++
    [("count", .integer pi.inputs.entries.length)])

def fromJson (j : JsonTree) : Throws PublicInputs := do
  return ⟨← readMap getString j "inputs"⟩

end PublicInputs

structure WitnessOutput where
  witnessName : List Char
  outputBytes : List UInt8
  outputType : List Char

namespace WitnessOutput

def toJson (wo : WitnessOutput) : JsonTree :=
  .ofFields [("witness_name", .string wo.witnessName), ("output_type", .string wo.outputType),
    ("output_hex", .string (toHex wo.outputBytes)), ("size", .integer wo.outputBytes.length)]

def fromJson (j : JsonTree) : Throws WitnessOutput := do
  let witnessName ← (← j.at' "witness_name").getString
  let outputType ← (← j.at' "output_type").getString
  let outputBytes ← parseHexBytes (← (← j.at' "output_hex").getString) "witness"
  return { witnessName, outputBytes, outputType }

end WitnessOutput

structure CircuitProofMetadata where
  circuitName : List Char
  circuitHash : List Char
  numConstraints : UInt32
  compilationVersion : List Char

namespace CircuitProofMetadata

def toJson (cpm : CircuitProofMetadata) : JsonTree :=
  .ofFields [("circuit_name", .string cpm.circuitName), ("circuit_hash", .string cpm.circuitHash),
    ("num_constraints", .integer cpm.numConstraints.toNat),
    ("compilation_version", .string cpm.compilationVersion)]

def fromJson (j : JsonTree) : Throws CircuitProofMetadata := do
  let circuitName ← (← j.at' "circuit_name").getString
  let circuitHash ← (← j.at' "circuit_hash").getString
  let numConstraints ← (← j.at' "num_constraints").getUInt32
  let compilationVersion ← (← j.at' "compilation_version").getString
  return { circuitName, circuitHash, numConstraints, compilationVersion }

end CircuitProofMetadata

/-- An `enum class` over `int`; the casts give it any number. -/
abbrev VerificationStatus : Type := Int32

def VerificationStatus.unverified : VerificationStatus := 0
def VerificationStatus.locallyVerified : VerificationStatus := 1
def VerificationStatus.serverVerified : VerificationStatus := 2
def VerificationStatus.blockchainVerified : VerificationStatus := 3

structure CircuitProof where
  proof : ProofData
  publicInputs : PublicInputs
  metadata : CircuitProofMetadata
  generatedAtTimestamp : UInt64
  proofServerEndpoint : List Char
  circuitParameters : StringMap
  verificationStatus : VerificationStatus := .unverified

namespace CircuitProof

def toJson (cp : CircuitProof) : JsonTree :=
  .ofFields [("proof", cp.proof.toJson), ("public_inputs", cp.publicInputs.toJson),
    ("metadata", cp.metadata.toJson),
    ("generated_at_timestamp", .integer cp.generatedAtTimestamp.toNat),
    ("proof_server_endpoint", .string cp.proofServerEndpoint),
    ("verification_status", .integer cp.verificationStatus.toInt),
    ("circuit_parameters", .ofMap .string cp.circuitParameters)]

def fromJson (j : JsonTree) : Throws CircuitProof := do
  let proof ← ProofData.fromJson (← j.at' "proof")
  let publicInputs ← PublicInputs.fromJson (← j.at' "public_inputs")
  let metadata ← CircuitProofMetadata.fromJson (← j.at' "metadata")
  let generatedAtTimestamp ← (← j.at' "generated_at_timestamp").getUInt64
  let proofServerEndpoint ← (← j.at' "proof_server_endpoint").getString
  let verificationStatus ← (← j.at' "verification_status").getInt32
  let circuitParameters ← readMap getString j "circuit_parameters"
  return { proof, publicInputs, metadata, generatedAtTimestamp, proofServerEndpoint,
           circuitParameters, verificationStatus }

end CircuitProof

structure ProofGenerationRequest where
  circuitName : List Char
  circuitData : List UInt8
  circuitInputs : StringMap
  witnesses : OrderedMap (List Char) WitnessOutput

namespace ProofGenerationRequest

def toJson (pgr : ProofGenerationRequest) : JsonTree :=
  .ofFields [("circuit_name", .string pgr.circuitName),
    ("circuit_data_hex", .string (toHex pgr.circuitData)),
    ("circuit_inputs", .ofMap .string pgr.circuitInputs),
    ("witnesses", .ofMap WitnessOutput.toJson pgr.witnesses)]

def fromJson (j : JsonTree) : Throws ProofGenerationRequest := do
  let circuitName ← (← j.at' "circuit_name").getString
  let circuitData ← stoulBytes (← (← j.at' "circuit_data_hex").getString)
  let circuitInputs ← readMap getString j "circuit_inputs"
  let witnesses ← readMap WitnessOutput.fromJson j "witnesses"
  return { circuitName, circuitData, circuitInputs, witnesses }

end ProofGenerationRequest

structure ProofEnabledTransaction where
  transactionId : List Char
  transactionHex : List Char
  circuitProof : CircuitProof
  ed25519Signature : List Char
  publicKey : List Char
  ledgerUpdates : StringMap

namespace ProofEnabledTransaction

def toJson (pet : ProofEnabledTransaction) : JsonTree :=
  .ofFields [("transaction_id", .string pet.transactionId),
    ("transaction_hex", .string pet.transactionHex), ("proof", pet.circuitProof.toJson),
    ("ed25519_signature", .string pet.ed25519Signature), ("public_key", .string pet.publicKey),
    ("ledger_updates", .ofMap .string pet.ledgerUpdates)]

def fromJson (j : JsonTree) : Throws ProofEnabledTransaction := do
  let transactionId ← (← j.at' "transaction_id").getString
  let transactionHex ← (← j.at' "transaction_hex").getString
  let circuitProof ← CircuitProof.fromJson (← j.at' "proof")
  let ed25519Signature ← j.valueString "ed25519_signature" []
  let publicKey ← j.valueString "public_key" []
  let ledgerUpdates ← readMap getString j "ledger_updates"
  return { transactionId, transactionHex, circuitProof, ed25519Signature, publicKey,
           ledgerUpdates }

end ProofEnabledTransaction

structure LedgerState where
  contractAddress : List Char
  publicState : JsonTree
  privateState : JsonTree
  blockHeight : UInt64
  blockHash : List Char

namespace LedgerState

def toJson (ls : LedgerState) : JsonTree :=
  .ofFields [("contract_address", .string ls.contractAddress), ("public_state", ls.publicState),
    ("private_state", ls.privateState), ("block_height", .integer ls.blockHeight.toNat),
    ("block_hash", .string ls.blockHash)]

def fromJson (j : JsonTree) : Throws LedgerState := do
  let contractAddress ← (← j.at' "contract_address").getString
  let publicState ← j.at' "public_state"
  let privateState ← j.value .ok "private_state" (.object [])
  let blockHeight ← (← j.at' "block_height").getUInt64
  let blockHash ← (← j.at' "block_hash").getString
  return { contractAddress, publicState, privateState, blockHeight, blockHash }

end LedgerState

structure WitnessContext where
  publicLedgerState : LedgerState
  privateData : OrderedMap (List Char) (List UInt8)
  contractAddress : List Char
  blockHeight : UInt64

namespace WitnessContext

def toJson (ctx : WitnessContext) : JsonTree :=
  .ofFields [("public_ledger_state", ctx.publicLedgerState.toJson),
    ("contract_address", .string ctx.contractAddress),
    ("block_height", .integer ctx.blockHeight.toNat),
    ("private_data", .ofMap (fun data => .string (toHex data)) ctx.privateData)]

def fromJson (j : JsonTree) : Throws WitnessContext := do
  let publicLedgerState ← LedgerState.fromJson (← j.at' "public_ledger_state")
  let contractAddress ← (← j.at' "contract_address").getString
  let blockHeight ← (← j.at' "block_height").getUInt64
  let privateData ← readMap (fun hex => do stoulBytes (← hex.getString)) j "private_data"
  return { publicLedgerState, privateData, contractAddress, blockHeight }

end WitnessContext

/-! ## What was written is read back -/

theorem stoulBytes_toHex (bytes : List UInt8) : stoulBytes (toHex bytes) = .ok bytes := by
  have spelled := Util.bytesToHex_spells bytes
  rw [toHex]
  generalize Util.bytesToHex bytes = text at spelled
  induction spelled with
  | nil => rfl
  | @byte hi lo text b bytes high low _ ih =>
    rw [stoulBytes, ih]
    have whole := stoulPairs_spells (.byte high low .nil)
    rw [stoulPairs] at whole
    obtain ⟨v, hv, whole⟩ := bind_eq_ok.mp whole
    cases whole
    rw [hv]
    rfl

theorem parseHexBytes_toHex (bytes : List UInt8) (kind : String) :
    parseHexBytes (toHex bytes) kind = .ok bytes := by
  have read := hexDecoders_of_spells kind (Util.bytesToHex_spells bytes)
    (fun s => (parseHexBytes s kind).toOption) (by simp [hexDecoders])
  rw [toHex]
  cases h : parseHexBytes (Util.bytesToHex bytes) kind with
  | error e =>
    simp only [h] at read
    cases read
  | ok bytes' =>
    simp only [h] at read
    cases read
    rfl

theorem ProofData.fromJson_toJson (proof : ProofData) : fromJson proof.toJson = .ok proof := by
  have hex : proof.toJson.at' "proof_hex" = .ok (.string (toHex proof.proofBytes)) :=
    at'_ofFields (by simp) rfl
  simp only [fromJson, hex, ok_bind, getString_string, parseHexBytes_toHex]
  rfl

theorem PublicInputs.fromJson_toJson (pi : PublicInputs) : fromJson pi.toJson = .ok pi := by
  have inputs : readMap getString pi.toJson "inputs" = .ok pi.inputs := by
    cases hentries : pi.inputs.entries with
    | nil =>
      apply readMap_absent getString hentries
      rw [toJson, hentries]
      exact find?_ofFields (by simp) "inputs"
    | cons e entries =>
      apply readMap_strings
      rw [toJson, hentries]
      exact find?_ofFields (by simp) "inputs"
  rw [fromJson, inputs]
  rfl

theorem WitnessOutput.fromJson_toJson (wo : WitnessOutput) : fromJson wo.toJson = .ok wo := by
  have name : wo.toJson.at' "witness_name" = .ok (.string wo.witnessName) :=
    at'_ofFields (by simp) rfl
  have type : wo.toJson.at' "output_type" = .ok (.string wo.outputType) :=
    at'_ofFields (by simp) rfl
  have hex : wo.toJson.at' "output_hex" = .ok (.string (toHex wo.outputBytes)) :=
    at'_ofFields (by simp) rfl
  simp only [fromJson, name, type, hex, ok_bind, getString_string, parseHexBytes_toHex]
  rfl

theorem CircuitProofMetadata.fromJson_toJson (cpm : CircuitProofMetadata) :
    fromJson cpm.toJson = .ok cpm := by
  have name : cpm.toJson.at' "circuit_name" = .ok (.string cpm.circuitName) :=
    at'_ofFields (by simp) rfl
  have hash : cpm.toJson.at' "circuit_hash" = .ok (.string cpm.circuitHash) :=
    at'_ofFields (by simp) rfl
  have constraints : cpm.toJson.at' "num_constraints" = .ok (.integer cpm.numConstraints.toNat) :=
    at'_ofFields (by simp) rfl
  have version : cpm.toJson.at' "compilation_version" = .ok (.string cpm.compilationVersion) :=
    at'_ofFields (by simp) rfl
  simp only [fromJson, name, hash, constraints, version, ok_bind, getString_string, getUInt32_toNat]
  rfl

theorem CircuitProof.fromJson_toJson (cp : CircuitProof) : fromJson cp.toJson = .ok cp := by
  have proof : cp.toJson.at' "proof" = .ok cp.proof.toJson := at'_ofFields (by simp) rfl
  have inputs : cp.toJson.at' "public_inputs" = .ok cp.publicInputs.toJson :=
    at'_ofFields (by simp) rfl
  have metadata : cp.toJson.at' "metadata" = .ok cp.metadata.toJson := at'_ofFields (by simp) rfl
  have timestamp : cp.toJson.at' "generated_at_timestamp" =
      .ok (.integer cp.generatedAtTimestamp.toNat) := at'_ofFields (by simp) rfl
  have endpoint : cp.toJson.at' "proof_server_endpoint" = .ok (.string cp.proofServerEndpoint) :=
    at'_ofFields (by simp) rfl
  have status : cp.toJson.at' "verification_status" =
      .ok (.integer cp.verificationStatus.toInt) := at'_ofFields (by simp) rfl
  have parameters : readMap getString cp.toJson "circuit_parameters" = .ok cp.circuitParameters :=
    readMap_strings (find?_ofFields (by simp) _)
  simp only [fromJson, proof, inputs, metadata, timestamp, endpoint, status, parameters, ok_bind,
    getString_string, ProofData.fromJson_toJson, PublicInputs.fromJson_toJson,
    CircuitProofMetadata.fromJson_toJson, getUInt64_toNat, getInt32_toInt]
  rfl

theorem ProofEnabledTransaction.fromJson_toJson (pet : ProofEnabledTransaction) :
    fromJson pet.toJson = .ok pet := by
  have id : pet.toJson.at' "transaction_id" = .ok (.string pet.transactionId) :=
    at'_ofFields (by simp) rfl
  have hex : pet.toJson.at' "transaction_hex" = .ok (.string pet.transactionHex) :=
    at'_ofFields (by simp) rfl
  have proof : pet.toJson.at' "proof" = .ok pet.circuitProof.toJson := at'_ofFields (by simp) rfl
  have signature : pet.toJson.valueString "ed25519_signature" [] = .ok pet.ed25519Signature :=
    valueString_ofFields (by simp) rfl []
  have key : pet.toJson.valueString "public_key" [] = .ok pet.publicKey :=
    valueString_ofFields (by simp) rfl []
  have updates : readMap getString pet.toJson "ledger_updates" = .ok pet.ledgerUpdates :=
    readMap_strings (find?_ofFields (by simp) _)
  simp only [fromJson, id, hex, proof, signature, key, updates, ok_bind, getString_string,
    CircuitProof.fromJson_toJson]
  rfl

theorem ProofGenerationRequest.fromJson_toJson (pgr : ProofGenerationRequest) :
    fromJson pgr.toJson = .ok pgr := by
  have name : pgr.toJson.at' "circuit_name" = .ok (.string pgr.circuitName) :=
    at'_ofFields (by simp) rfl
  have data : pgr.toJson.at' "circuit_data_hex" = .ok (.string (toHex pgr.circuitData)) :=
    at'_ofFields (by simp) rfl
  have inputs : readMap getString pgr.toJson "circuit_inputs" = .ok pgr.circuitInputs :=
    readMap_strings (find?_ofFields (by simp) _)
  have witnesses : readMap WitnessOutput.fromJson pgr.toJson "witnesses" = .ok pgr.witnesses :=
    readMap_ofMap (fun e _ => e.2.fromJson_toJson) (find?_ofFields (by simp) _)
  simp only [fromJson, name, data, inputs, witnesses, ok_bind, getString_string, stoulBytes_toHex]
  rfl

theorem LedgerState.fromJson_toJson (ls : LedgerState) : fromJson ls.toJson = .ok ls := by
  have address : ls.toJson.at' "contract_address" = .ok (.string ls.contractAddress) :=
    at'_ofFields (by simp) rfl
  have publicState : ls.toJson.at' "public_state" = .ok ls.publicState :=
    at'_ofFields (by simp) rfl
  have privateState : ls.toJson.value .ok "private_state" (.object []) = .ok ls.privateState :=
    value_ofFields (by simp) rfl _
  have height : ls.toJson.at' "block_height" = .ok (.integer ls.blockHeight.toNat) :=
    at'_ofFields (by simp) rfl
  have hash : ls.toJson.at' "block_hash" = .ok (.string ls.blockHash) :=
    at'_ofFields (by simp) rfl
  simp only [fromJson, address, publicState, privateState, height, hash, ok_bind, getString_string,
    getUInt64_toNat]
  rfl

theorem WitnessContext.fromJson_toJson (ctx : WitnessContext) : fromJson ctx.toJson = .ok ctx := by
  have state : ctx.toJson.at' "public_ledger_state" = .ok ctx.publicLedgerState.toJson :=
    at'_ofFields (by simp) rfl
  have address : ctx.toJson.at' "contract_address" = .ok (.string ctx.contractAddress) :=
    at'_ofFields (by simp) rfl
  have height : ctx.toJson.at' "block_height" = .ok (.integer ctx.blockHeight.toNat) :=
    at'_ofFields (by simp) rfl
  have data : readMap (fun hex => do stoulBytes (← hex.getString)) ctx.toJson "private_data" =
      .ok ctx.privateData :=
    readMap_ofMap (fun e _ => stoulBytes_toHex e.2) (find?_ofFields (by simp) _)
  simp only [fromJson, state, address, height, data, ok_bind, getString_string,
    LedgerState.fromJson_toJson, getUInt64_toNat]
  rfl

/-- **Reading undoes writing**, for all four of the types that travel. -/
theorem fromJson_toJson_types :
    (∀ proof : CircuitProof, CircuitProof.fromJson proof.toJson = .ok proof) ∧
    (∀ tx : ProofEnabledTransaction, ProofEnabledTransaction.fromJson tx.toJson = .ok tx) ∧
    (∀ request : ProofGenerationRequest,
      ProofGenerationRequest.fromJson request.toJson = .ok request) ∧
    ∀ context : WitnessContext, WitnessContext.fromJson context.toJson = .ok context :=
  ⟨CircuitProof.fromJson_toJson, ProofEnabledTransaction.fromJson_toJson,
    ProofGenerationRequest.fromJson_toJson, WitnessContext.fromJson_toJson⟩

end MidnightSdk.Zk
