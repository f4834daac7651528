import MidnightSdk.Production.MidnightClient

/-!
# What stands before a submission

Whatever the backend, the proof server and the node answer, the node is asked to
submit once at most, behind both checks, a build that succeeded and a context without
an error, and it is given the bytes of that build.
-/

namespace MidnightSdk.Production

open Cpp HexText Interaction Ledger Network Util Tx

/-- The six operations, with what they are given. -/
inductive Operation where
  | transferNight (params : TransferNightParams)
  | registerDust (params : RegisterDustParams)
  | deregisterDust (params : DeregisterDustParams)
  | deploySimpleContract (params : SimpleContractDeployParams)
  | callSimpleContract (params : SimpleContractCallParams)
  | submitCustomContractIntents (params : CustomContractIntentParams)
  deriving DecidableEq, Repr

namespace Operation

def run (parse : String → Except String Json) (config : ClientConfig) :
    Operation → Client BuildSubmitResult
  | .transferNight params => Production.transferNight parse config params
  | .registerDust params => Production.registerDust parse config params
  | .deregisterDust params => Production.deregisterDust parse config params
  | .deploySimpleContract params => Production.deploySimpleContract parse config params
  | .callSimpleContract params => Production.callSimpleContract parse config params
  | .submitCustomContractIntents params => Production.submitCustomContractIntents parse config params

def validate : Operation → Client BuildSubmitResult
  | .transferNight params => validateTransferParams params
  | .registerDust params => validateRegisterDustParams params
  | .deregisterDust params => validateDeregisterDustParams params
  | .deploySimpleContract params => validateDeployParams params
  | .callSimpleContract params => validateCallParams params
  | .submitCustomContractIntents params => validateCustomContractParams params

/-- The operation with its source normalised. -/
def normalized : Operation → Operation
  | .transferNight params => .transferNight (normalizeParamsForTransactionBuild params)
  | .registerDust params => .registerDust (normalizeParamsForTransactionBuild params)
  | .deregisterDust params => .deregisterDust (normalizeParamsForTransactionBuild params)
  | .deploySimpleContract params =>
    .deploySimpleContract (normalizeParamsForTransactionBuild params)
  | .callSimpleContract params => .callSimpleContract (normalizeParamsForTransactionBuild params)
  | .submitCustomContractIntents params =>
    .submitCustomContractIntents (normalizeParamsForTransactionBuild params)

/-- The call of the backend for parameters as they are, but for the proof server. -/
def request (config : ClientConfig) : Operation → BuildRequest
  | .transferNight params => .transferNight (withConfiguredProofServer params config)
  | .registerDust params => .registerDust (withConfiguredProofServer params config)
  | .deregisterDust params => .deregisterDust (withConfiguredProofServer params config)
  | .deploySimpleContract params =>
    .simpleContractDeploy (withConfiguredProofServer params config)
  | .callSimpleContract params => .simpleContractCall (withConfiguredProofServer params config)
  | .submitCustomContractIntents params =>
    .customContractTransaction (withConfiguredProofServer params config)

end Operation

/-! ## Questions that are no submission -/

def Quiet (q : Question) : Prop := ∀ txHex, q ≠ .submitTransaction txHex

theorem envValue_quiet (name : String) : Within Quiet (envValue name) :=
  (within_question fun _ => nofun).bind fun _ => within_pure _

theorem cachePathHasData_quiet (path : String) : Within Quiet (cachePathHasData path) := by
  unfold cachePathHasData
  split
  · trivial
  apply (within_question fun _ => nofun).bind
  intro found
  split
  · trivial
  apply (within_question fun _ => nofun).bind
  intro regular
  split
  · exact (within_question fun _ => nofun).bind fun _ => within_pure _
  apply (within_question fun _ => nofun).bind
  intro directory
  split
  · trivial
  exact (within_question fun _ => nofun).bind fun listing => within_orThrow _

theorem validateSource_quiet (source : SourceConfig) : Within Quiet (validateSource source) := by
  unfold validateSource
  split
  · trivial
  split
  · trivial
  split
  · trivial
  split
  · trivial
  split
  · trivial
  split
  · apply (cachePathHasData_quiet _).bind
    intro synced
    split <;> trivial
  · trivial

theorem validateWith_quiet (source : SourceConfig) (checks : List BuildSubmitResult) :
    Within Quiet (validateWith source checks) := by
  apply (validateSource_quiet source).bind
  intro invalid
  split <;> trivial

theorem proofServerCompatibilityError_quiet (config : ClientConfig) :
    Within Quiet (proofServerCompatibilityError config) := by
  unfold proofServerCompatibilityError
  split
  · trivial
  apply (envValue_quiet _).bind
  intro allowed
  split
  · trivial
  apply (within_question fun _ => nofun).bind
  intro reports
  split
  · trivial
  apply (within_question fun _ => nofun).bind
  intro answer
  apply (within_orThrow _).bind
  intro info
  dsimp only
  split
  · trivial
  apply (within_question fun _ => nofun).bind
  intro version
  cases version with
  | error e => trivial
  | ok version =>
    dsimp only
    split_ifs <;> trivial

theorem buildWith_quiet {P : Type} [BuildParams P] (config : ClientConfig)
    {validate : P → Client BuildSubmitResult} (h : ∀ params, Within Quiet (validate params))
    (params : P) : Within Quiet (buildWith config validate params) := by
  apply (h _).bind
  intro invalid
  split
  · trivial
  apply (proofServerCompatibilityError_quiet config).bind
  intro proofError
  cases proofError with
  | some error => trivial
  | none => exact (within_question fun _ => nofun).bind fun built => within_orThrow _

theorem blockHashExists_quiet (blockHash : List Char) :
    Within Quiet (blockHashExists blockHash) := by
  have header : Within Quiet (getBlockHeader blockHash) := by
    unfold getBlockHeader
    dsimp only
    split
    · trivial
    · exact within_question fun _ => nofun
  exact header.bind fun _ => within_pure _

theorem checkParents_quiet (config : ClientConfig) (parentHashes : List (List Char)) :
    Within Quiet (checkParents config parentHashes) := by
  induction parentHashes with
  | nil => trivial
  | cons parentHash rest ih =>
    unfold checkParents
    split
    · trivial
    apply (blockHashExists_quiet parentHash).bind
    intro known
    cases known with
    | error e => trivial
    | ok known =>
      cases known with
      | false => trivial
      | true => exact ih

theorem validateBuiltTransactionContext_quiet (parse : String → Except String Json)
    (config : ClientConfig) (build : BuildResult) :
    Within Quiet (validateBuiltTransactionContext parse config build) := by
  apply (envValue_quiet _).bind
  intro skipped
  split
  · trivial
  split
  · trivial
  split
  · trivial
  · exact checkParents_quiet config _

/-! ## What a submission needs -/

/-- A run of a check that records no error. -/
def Accepts (check : Client BuildSubmitResult) (seen : List (Event Answer)) : Prop :=
  ∃ result, Run check seen (.ok result) ∧ result.errorInfo.isSet = false

/-- Every refusal of a proof server is a build that failed. -/
theorem proofServerCompatibilityError_failed (config : ClientConfig) :
    Returns (fun error => ∀ build, error = some build → build.success = false)
      (proofServerCompatibilityError config) := by
  unfold proofServerCompatibilityError
  split
  · exact nofun
  apply returns_bind
  intro allowed
  split
  · exact nofun
  apply returns_bind
  intro reports
  split
  · exact nofun
  apply returns_bind
  intro answer
  apply returns_bind
  intro info
  dsimp only
  split
  · exact nofun
  apply returns_bind
  intro version
  cases version with
  | error e =>
    rintro build ⟨⟩
    rfl
  | ok version =>
    dsimp only
    split_ifs
    · rintro build ⟨⟩
      rfl
    · rintro build ⟨⟩
      rfl
    · exact nofun

/-- A build that succeeded comes from the backend, behind the check of the parameters
and of the proof server. -/
theorem run_buildWith {P : Type} [BuildParams P] {config : ClientConfig}
    {validate : P → Client BuildSubmitResult} {params : P} {seen : List (Event Answer)}
    {build : BuildResult} (h : Run (buildWith config validate params) seen (.ok build))
    (hsuccess : build.success = true) :
    ∃ normalized server,
      seen = normalized ++ server ++ [⟨.build (BuildParams.request
        (withConfiguredProofServer (normalizeParamsForTransactionBuild params) config)),
        .ok build⟩] ∧
      Accepts (validate (normalizeParamsForTransactionBuild params)) normalized ∧
      Run (proofServerCompatibilityError config) server (.ok none) := by
  obtain ⟨normalized, invalid, rest, rfl, hvalid, hrest⟩ := run_bind h
  split at hrest
  · obtain ⟨-, hbuild⟩ := run_pure_iff.mp hrest
    cases hbuild
    cases hsuccess
  rename_i accepted
  obtain ⟨server, proofError, rest, rfl, hserver, hrest⟩ := run_bind hrest
  cases proofError with
  | some error =>
    obtain ⟨-, hbuild⟩ := run_pure_iff.mp hrest
    cases hbuild
    have failed := (proofServerCompatibilityError_failed config).run hserver build rfl
    rw [failed] at hsuccess
    cases hsuccess
  | none =>
    obtain ⟨asked, built, rest, rfl, hasked, hbuilt⟩ := run_bind hrest
    obtain ⟨rfl, rfl⟩ := run_orThrow hbuilt
    obtain rfl := run_question hasked
    refine ⟨normalized, server, ?_, ⟨invalid, hvalid, by simpa using accepted⟩, hserver⟩
    rw [List.append_nil, List.append_assoc]

/-- Bytes are submitted as the hex that spells them. -/
theorem asks_submitMidnightTransaction {bytes : List UInt8} {seen : List (Event Answer)}
    {q : Question} (h : Asks (submitMidnightTransaction bytes) seen q) :
    seen = [] ∧ q = .submitTransaction (bytesToHex bytes) := by
  unfold submitMidnightTransaction at h
  split at h
  · exact absurd h not_asks_pure
  unfold submitMidnightTransactionHex at h
  dsimp only at h
  split at h
  · exact absurd h not_asks_pure
  rcases asks_bind h with h | ⟨before, answer, after, rfl, -, h⟩
  · exact asks_question h
  · cases answer with
    | error e => exact absurd h not_asks_pure
    | ok extrinsicHash =>
      dsimp only at h
      split at h
      · exact absurd h not_asks_pure
      · exact absurd h not_asks_pure

/-- A result is submitted when it succeeded, has bytes and its context has no error. -/
theorem asks_submitBuiltTransaction {parse : String → Except String Json} {config : ClientConfig}
    {build : BuildResult} {seen : List (Event Answer)} {txHex : List Char}
    (h : Asks (submitBuiltTransaction parse config build) seen (.submitTransaction txHex)) :
    build.success = true ∧ build.transactionBytes ≠ [] ∧
      (∃ contextError, Run (validateBuiltTransactionContext parse config build) seen
        (.ok contextError) ∧ contextError.isSet = false) ∧
      txHex = bytesToHex build.transactionBytes := by
  unfold submitBuiltTransaction at h
  split at h
  · exact absurd h not_asks_pure
  rename_i success
  split at h
  · exact absurd h not_asks_pure
  rename_i some
  rcases asks_bind h with h | ⟨context, contextError, rest, rfl, hcontext, h⟩
  · exact absurd rfl ((validateBuiltTransactionContext_quiet parse config build).asks h txHex)
  split at h
  · exact absurd h not_asks_pure
  rename_i accepted
  rcases asks_bind h with h | ⟨submitted, submit, rest, rfl, -, h⟩
  · obtain ⟨rfl, hhex⟩ := asks_submitMidnightTransaction h
    cases hhex
    refine ⟨by simpa using success, by simpa using some,
      ⟨contextError, ?_, by simpa using accepted⟩, rfl⟩
    rw [List.append_nil]
    exact hcontext
  · split at h
    · exact absurd h not_asks_pure
    · exact absurd h not_asks_pure

/-- What stands before a submission: a run of the check of the parameters, one of the
check with the source normalised, one of the check of the proof server, the build that
is submitted, and a run of the check of its context. -/
structure Approval (parse : String → Except String Json) (config : ClientConfig)
    (validate validateNormalized : Client BuildSubmitResult) (request : BuildRequest)
    (seen : List (Event Answer)) where
  given : List (Event Answer)
  normalized : List (Event Answer)
  server : List (Event Answer)
  build : BuildResult
  context : List (Event Answer)
  contextError : SdkError
  seen_eq : seen =
    given ++ (normalized ++ server ++ [⟨.build request, .ok build⟩]) ++ context
  accepts_given : Accepts validate given
  accepts_normalized : Accepts validateNormalized normalized
  run_server : Run (proofServerCompatibilityError config) server (.ok none)
  success : build.success = true
  bytes_ne : build.transactionBytes ≠ []
  run_context : Run (validateBuiltTransactionContext parse config build) context (.ok contextError)
  context_accepted : contextError.isSet = false

/-- Nothing of what stands before is a submission. -/
theorem Approval.quiet {parse : String → Except String Json} {config : ClientConfig}
    {validate validateNormalized : Client BuildSubmitResult} {request : BuildRequest}
    {seen : List (Event Answer)}
    (approval : Approval parse config validate validateNormalized request seen)
    (h : Within Quiet validate) (hnormalized : Within Quiet validateNormalized) :
    ∀ event ∈ seen, Quiet event.1 := by
  obtain ⟨given, hgiven, -⟩ := approval.accepts_given
  obtain ⟨normalized, hrun, -⟩ := approval.accepts_normalized
  rw [approval.seen_eq]
  intro event hevent
  simp only [List.mem_append, List.mem_singleton] at hevent
  rcases hevent with (hevent | (hevent | hevent) | rfl) | hevent
  · exact h.run hgiven event hevent
  · exact hnormalized.run hrun event hevent
  · exact (proofServerCompatibilityError_quiet config).run approval.run_server event hevent
  · exact fun _ => nofun
  · exact (validateBuiltTransactionContext_quiet parse config approval.build).run
      approval.run_context event hevent

theorem asks_buildAndSubmit {P : Type} [BuildParams P] {parse : String → Except String Json}
    {config : ClientConfig} {validate : P → Client BuildSubmitResult}
    (hquiet : ∀ params, Within Quiet (validate params)) {params : P} {seen : List (Event Answer)}
    {txHex : List Char}
    (h : Asks (buildAndSubmit parse config validate (buildWith config validate) params) seen
      (.submitTransaction txHex)) :
    ∃ approval : Approval parse config (validate params)
        (validate (normalizeParamsForTransactionBuild params))
        (BuildParams.request
          (withConfiguredProofServer (normalizeParamsForTransactionBuild params) config)) seen,
      txHex = bytesToHex approval.build.transactionBytes := by
  unfold buildAndSubmit at h
  rcases asks_bind h with h | ⟨given, invalid, rest, rfl, hgiven, h⟩
  · exact absurd rfl ((hquiet params).asks h txHex)
  split at h
  · exact absurd h not_asks_pure
  rename_i accepted
  rcases asks_bind h with h | ⟨building, build, context, rfl, hbuild, h⟩
  · exact absurd rfl ((buildWith_quiet config hquiet params).asks h txHex)
  obtain ⟨success, some, ⟨contextError, hcontext, context_accepted⟩, hhex⟩ :=
    asks_submitBuiltTransaction h
  obtain ⟨normalized, server, rfl, hnormalized, hserver⟩ := run_buildWith hbuild success
  refine ⟨⟨given, normalized, server, build, context, contextError, ?_,
    ⟨invalid, hgiven, by simpa using accepted⟩, hnormalized, hserver, success, some, hcontext,
    context_accepted⟩, hhex⟩
  rw [List.append_assoc given]

theorem Operation.validate_quiet (op : Operation) : Within Quiet op.validate := by
  cases op <;> exact validateWith_quiet _ _

theorem Operation.asks_run {parse : String → Except String Json} {config : ClientConfig}
    {op : Operation} {seen : List (Event Answer)} {txHex : List Char}
    (h : Asks (op.run parse config) seen (.submitTransaction txHex)) :
    ∃ approval : Approval parse config op.validate op.normalized.validate
        (op.normalized.request config) seen,
      txHex = bytesToHex approval.build.transactionBytes := by
  cases op with
  | transferNight params =>
    exact asks_buildAndSubmit (fun other => (Operation.transferNight other).validate_quiet) h
  | registerDust params =>
    exact asks_buildAndSubmit (fun other => (Operation.registerDust other).validate_quiet) h
  | deregisterDust params =>
    exact asks_buildAndSubmit (fun other => (Operation.deregisterDust other).validate_quiet) h
  | deploySimpleContract params =>
    exact asks_buildAndSubmit (fun other => (Operation.deploySimpleContract other).validate_quiet) h
  | callSimpleContract params =>
    exact asks_buildAndSubmit (fun other => (Operation.callSimpleContract other).validate_quiet) h
  | submitCustomContractIntents params =>
    exact asks_buildAndSubmit (fun other => (Operation.submitCustomContractIntents other).validate_quiet) h

/-- **What is submitted.** When an operation asks the node to submit, it has not done so
before, both checks have accepted, and the hex spells the bytes of the build whose
context has just been checked; the extrinsic made of it carries them. -/
theorem submit_order (parse : String → Except String Json) (config : ClientConfig)
    (op : Operation) {seen : List (Event Answer)} {txHex : List Char}
    (h : Asks (op.run parse config) seen (.submitTransaction txHex)) :
    (∀ event ∈ seen, ∀ other, event.1 ≠ .submitTransaction other) ∧
      ∃ approval : Approval parse config op.validate op.normalized.validate
          (op.normalized.request config) seen,
        txHex = bytesToHex approval.build.transactionBytes ∧
        hexToBytes txHex = .ok approval.build.transactionBytes ∧
        (approval.build.transactionBytes.length < 2 ^ 62 →
          ∃ extrinsic, transactionExtrinsic txHex = .ok (['0', 'x'] ++ bytesToHex extrinsic) ∧
            decodeExtrinsic extrinsic =
              some ⟨0x04, midnightPallet, 0x00, approval.build.transactionBytes⟩) := by
  obtain ⟨approval, rfl⟩ := Operation.asks_run h
  have spelled := bytesToHex_spells approval.build.transactionBytes
  refine ⟨approval.quiet op.validate_quiet op.normalized.validate_quiet, approval, rfl,
    hexToBytes_spells spelled, fun hsize => ?_⟩
  have length := spelled.length
  have some : bytesToHex approval.build.transactionBytes ≠ [] := by
    rintro hnil
    rw [hnil] at length
    exact approval.bytes_ne (List.length_eq_zero_iff.mp (by simpa using length.symm))
  have short : (bytesToHex approval.build.transactionBytes).length < 2 ^ 63 := by
    rw [length]
    omega
  have lead : ([] : List Char) ∈ [[], ['0', 'x'], ['0', 'X']] := by simp
  exact transactionExtrinsic_spells lead spelled some short

/-! ## A submission -/

def ledgerEight : LedgerBackendInfo := { success := true, ledger := literal "8.0.0" }

def oneByteBuild : BuildResult :=
  { success := true, transactionBytes := [1], rawOutput := "null" }

/-- Intents built from a cache, with a proof server to ask. -/
def someIntents : Operation :=
  .submitCustomContractIntents
    { source := { srcUrl := "ws://node" }, fundingSeed := List.replicate 32 97,
      intentFiles := ["intent"] }

def someConfig : ClientConfig :=
  { nodeUrl := "http://node", proofServerUrl := "http://prover" }

def parseNull (_ : String) : Except String Json := .ok .null

def someAnswers : List (Event Answer) :=
  [⟨.pathExists "midnight_cache/ledger_cache_db", true⟩,
    ⟨.isRegularFile "midnight_cache/ledger_cache_db", true⟩,
    ⟨.fileSize "midnight_cache/ledger_cache_db", some 1⟩,
    ⟨.getenv "MIDNIGHT_ALLOW_PROOF_SERVER_VERSION_MISMATCH", none⟩,
    ⟨.canReportBackendInfo, true⟩,
    ⟨.backendInfo, .ok ledgerEight⟩,
    ⟨.serverVersion, .ok (literal "8.0.0")⟩,
    ⟨.build (someIntents.normalized.request someConfig), .ok oneByteBuild⟩,
    ⟨.getenv "MIDNIGHT_SKIP_CONTEXT_CANONICALITY_CHECK", none⟩]

theorem submit_order_intents :
    (∀ event ∈ someAnswers, ∀ other, event.1 ≠ .submitTransaction other) ∧
      ∃ approval : Approval parseNull someConfig someIntents.validate
          someIntents.normalized.validate (someIntents.normalized.request someConfig) someAnswers,
        ['0', '1'] = bytesToHex approval.build.transactionBytes ∧
        hexToBytes ['0', '1'] = .ok approval.build.transactionBytes ∧
        (approval.build.transactionBytes.length < 2 ^ 62 →
          ∃ extrinsic, transactionExtrinsic ['0', '1'] = .ok (['0', 'x'] ++ bytesToHex extrinsic) ∧
            decodeExtrinsic extrinsic =
              some ⟨0x04, midnightPallet, 0x00, approval.build.transactionBytes⟩) :=
  submit_order parseNull someConfig someIntents
    (.later (.later (.later (.later (.later (.later (.later (.later (.later (.now _ _))))))))))

end MidnightSdk.Production
