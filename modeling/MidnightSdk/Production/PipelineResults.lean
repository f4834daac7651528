import MidnightSdk.Production.Confirmation
import MidnightSdk.Production.SubmitOrder

/-!
# What a result says

The flag of a result and its errors are set in several layers, each with returns of its
own. On every run that returns, they fit together, and a success has its reasons in what
was answered.
-/

namespace MidnightSdk.Production

open Cpp Interaction Ledger Network Util

/-! ## The operations with options -/

namespace Operation

def name : Operation → String
  | .transferNight _ => "transfer-night"
  | .registerDust _ => "register-dust"
  | .deregisterDust _ => "deregister-dust"
  | .deploySimpleContract _ => "deploy-simple-contract"
  | .callSimpleContract _ => "call-simple-contract"
  | .submitCustomContractIntents _ => "custom-contract-intents"

/-- The operation, and what its options add to it. -/
def pipeline (parse : String → Except String Json) (config : ClientConfig)
    (saveBuildResult : String → BuildResult → ArtifactSaveResult)
    (polls : List (Except String Json)) (options : PipelineOptions) (op : Operation) :
    Client PipelineResult := do
  let tx ← op.run parse config
  return pipelineFromBuildSubmit (saveBuildResult op.name) polls options tx

end Operation

/-! ## Checks -/

/-- A result that records an error has failed, and says why. -/
def Refuses (result : BuildSubmitResult) : Prop :=
  result.errorInfo.isSet = true → result.success = false ∧ result.error ≠ ""

theorem refuses_default : Refuses {} := nofun

theorem refuses_validationFailure (code : ErrorCode) {message : String} (h : message ≠ "")
    (detail : String) : Refuses (validationFailure code message detail) :=
  fun _ => ⟨rfl, h⟩

theorem refuses_refuse (failed : Bool) (code : ErrorCode) {message : String} (h : message ≠ "")
    (detail : String) : Refuses (refuse failed code message detail) := by
  cases failed with
  | false => exact refuses_default
  | true => exact refuses_validationFailure code h detail

theorem refuses_validateSeed (seed : List UInt8) (field : String) :
    Refuses (validateSeed seed field) := by
  apply refuses_refuse
  simp

/-- A check of a part that need not be given. -/
theorem refuses_getD {α : Type} {part : Option α} {check : α → BuildSubmitResult}
    (h : ∀ a, Refuses (check a)) : Refuses ((part.map check).getD {}) := by
  cases part with
  | none => exact refuses_default
  | some a => exact h a

theorem refuses_validateRngSeed (rngSeed : Option (List UInt8)) :
    Refuses (validateRngSeed rngSeed) :=
  refuses_getD fun _ => refuses_refuse _ _ (by simp) _

theorem refuses_firstInvalid {checks : List BuildSubmitResult} (h : ∀ check ∈ checks, Refuses check) :
    Refuses (firstInvalid checks) := by
  induction checks with
  | nil => exact refuses_default
  | cons check rest ih =>
    obtain ⟨first, others⟩ := List.forall_mem_cons.mp h
    rw [firstInvalid]
    split
    · exact first
    · exact ih others

theorem validateSource_refuses (source : SourceConfig) :
    Returns Refuses (validateSource source) := by
  unfold validateSource
  split
  · exact refuses_validationFailure _ (by simp) _
  split
  · exact refuses_validationFailure _ (by simp) _
  split
  · exact refuses_validationFailure _ (by simp) _
  split
  · exact refuses_validationFailure _ (by simp) _
  split
  · exact refuses_validationFailure _ (by simp) _
  split
  · apply returns_bind
    intro synced
    split
    · exact refuses_validationFailure _ (by simp) _
    · exact refuses_default
  · exact refuses_default

theorem validateWith_refuses (source : SourceConfig) {checks : List BuildSubmitResult}
    (h : ∀ check ∈ checks, Refuses check) : Returns Refuses (validateWith source checks) := by
  apply (validateSource_refuses source).bind
  intro invalid hinvalid
  split
  · exact hinvalid
  · exact refuses_firstInvalid h

theorem Operation.validate_refuses (op : Operation) : Returns Refuses op.validate := by
  cases op with
  | transferNight params =>
    apply validateWith_refuses
    simp only [List.forall_mem_cons, List.not_mem_nil, false_implies, implies_true, and_true]
    exact ⟨refuses_validateSeed _ _, refuses_getD fun _ => refuses_validateSeed _ _,
      refuses_refuse _ _ (by simp) _, refuses_refuse _ _ (by simp) _,
      refuses_refuse _ _ (by simp) _, refuses_validateRngSeed _⟩
  | registerDust params =>
    apply validateWith_refuses
    simp only [List.forall_mem_cons, List.not_mem_nil, false_implies, implies_true, and_true]
    exact ⟨refuses_validateSeed _ _, refuses_getD fun _ => refuses_validateSeed _ _,
      refuses_getD fun _ => refuses_refuse _ _ (by simp) _, refuses_validateRngSeed _⟩
  | deregisterDust params =>
    apply validateWith_refuses
    simp only [List.forall_mem_cons, List.not_mem_nil, false_implies, implies_true, and_true]
    exact ⟨refuses_validateSeed _ _, refuses_validateSeed _ _, refuses_validateRngSeed _⟩
  | deploySimpleContract params =>
    apply validateWith_refuses
    simp only [List.forall_mem_append, List.forall_mem_cons, List.forall_mem_map,
      List.not_mem_nil, false_implies, implies_true, and_true]
    exact ⟨⟨refuses_validateSeed _ _, fun seed _ => refuses_validateSeed seed _⟩,
      refuses_refuse _ _ (by simp) _, refuses_refuse _ _ (by simp) _, refuses_validateRngSeed _⟩
  | callSimpleContract params =>
    apply validateWith_refuses
    simp only [List.forall_mem_cons, List.not_mem_nil, false_implies, implies_true, and_true]
    exact ⟨refuses_validateSeed _ _, refuses_refuse _ _ (by simp) _,
      refuses_refuse _ _ (by simp) _, refuses_validateRngSeed _⟩
  | submitCustomContractIntents params =>
    apply validateWith_refuses
    simp only [List.forall_mem_cons, List.not_mem_nil, false_implies, implies_true, and_true]
    exact ⟨refuses_validateSeed _ _, refuses_refuse _ _ (by simp) _, refuses_validateRngSeed _⟩

/-! ## Submitting -/

/-- A result of submitting fits together, given what was answered. -/
structure BuildSubmitResult.Consistent (result : BuildSubmitResult) (seen : List (Event Answer)) :
    Prop where
  success_iff : result.success = true ↔ result.error = "" ∧ result.errorInfo.isSet = false
  built : result.success = true → result.build.success = true
  accepted : result.success = true → result.submit.extrinsicHash ≠ "" ∧
    ∃ txHex, (⟨.submitTransaction txHex, .ok result.submit.extrinsicHash⟩ : Event Answer) ∈ seen
  failed : result.success = false → result.error ≠ "" ∧ result.errorInfo.isSet = true

/-- A failure that carries its error, whatever was answered. -/
theorem BuildSubmitResult.consistent_failure {result : BuildSubmitResult}
    (seen : List (Event Answer)) (hfailed : result.success = false) (herror : result.error ≠ "")
    (hset : result.errorInfo.isSet = true) : result.Consistent seen where
  success_iff := by simp [hfailed, herror]
  built := by simp [hfailed]
  accepted := by simp [hfailed]
  failed _ := ⟨herror, hset⟩

theorem BuildSubmitResult.Consistent.behind {result : BuildSubmitResult}
    {seen : List (Event Answer)} (h : result.Consistent seen) (before : List (Event Answer)) :
    result.Consistent (before ++ seen) where
  success_iff := h.success_iff
  built := h.built
  accepted hsuccess :=
    let ⟨given, txHex, answered⟩ := h.accepted hsuccess
    ⟨given, txHex, List.mem_append_right before answered⟩
  failed := h.failed

/-- A submission that succeeded has the hash the node answered with, and records no
error; one that failed records its error. -/
theorem run_submitMidnightTransaction {bytes : List UInt8} {seen : List (Event Answer)}
    {submit : SubmitResult} (h : Run (submitMidnightTransaction bytes) seen (.ok submit)) :
    (submit.success = true → submit.extrinsicHash ≠ "" ∧
      ∃ txHex, (⟨.submitTransaction txHex, .ok submit.extrinsicHash⟩ : Event Answer) ∈ seen) ∧
    (submit.success = false → submit.errorInfo.isSet = true) := by
  unfold submitMidnightTransaction at h
  split at h
  · obtain ⟨-, hsubmit⟩ := run_pure_iff.mp h
    cases hsubmit
    exact ⟨nofun, fun _ => rfl⟩
  unfold submitMidnightTransactionHex at h
  dsimp only at h
  split at h
  · obtain ⟨-, hsubmit⟩ := run_pure_iff.mp h
    cases hsubmit
    exact ⟨nofun, fun _ => rfl⟩
  obtain ⟨asked, answer, rest, rfl, hasked, hanswered⟩ := run_bind h
  obtain rfl := run_question hasked
  cases answer with
  | error e =>
    obtain ⟨-, hsubmit⟩ := run_pure_iff.mp hanswered
    cases hsubmit
    exact ⟨nofun, fun _ => rfl⟩
  | ok extrinsicHash =>
    dsimp only at hanswered
    split at hanswered
    · obtain ⟨-, hsubmit⟩ := run_pure_iff.mp hanswered
      cases hsubmit
      exact ⟨nofun, fun _ => rfl⟩
    · rename_i given
      obtain ⟨-, hsubmit⟩ := run_pure_iff.mp hanswered
      cases hsubmit
      exact ⟨fun _ => ⟨given, _, List.mem_append_left rest (List.mem_singleton_self _)⟩, nofun⟩

/-- An error about a context says what is wrong. -/
theorem checkParents_message (config : ClientConfig) (parentHashes : List (List Char)) :
    Returns (fun error => error.isSet = true → error.message ≠ "")
      (checkParents config parentHashes) := by
  induction parentHashes with
  | nil => exact nofun
  | cons parentHash rest ih =>
    unfold checkParents
    split
    · exact fun _ => by simp [makeError]
    apply returns_bind
    intro known
    cases known with
    | error e => exact fun _ => by simp [makeError]
    | ok known =>
      cases known with
      | false => exact fun _ => by simp [makeError]
      | true => exact ih

theorem validateBuiltTransactionContext_message (parse : String → Except String Json)
    (config : ClientConfig) (build : BuildResult) :
    Returns (fun error => error.isSet = true → error.message ≠ "")
      (validateBuiltTransactionContext parse config build) := by
  apply returns_bind
  intro skipped
  split
  · exact nofun
  split
  · exact nofun
  split
  · exact fun _ => by simp [makeError]
  · exact checkParents_message config _

theorem run_submitBuiltTransaction {parse : String → Except String Json} {config : ClientConfig}
    {build : BuildResult} {seen : List (Event Answer)} {tx : BuildSubmitResult}
    (h : Run (submitBuiltTransaction parse config build) seen (.ok tx)) : tx.Consistent seen := by
  unfold submitBuiltTransaction at h
  split at h
  · obtain ⟨-, htx⟩ := run_pure_iff.mp h
    cases htx
    apply BuildSubmitResult.consistent_failure _ rfl
    · dsimp only
      split
      · simp
      · assumption
    · simp only [makeError, SdkError.isSet]
      split <;> rfl
  rename_i success
  split at h
  · obtain ⟨-, htx⟩ := run_pure_iff.mp h
    cases htx
    exact BuildSubmitResult.consistent_failure _ rfl (by simp) rfl
  obtain ⟨context, contextError, rest, rfl, hcontext, h⟩ := run_bind h
  split at h
  · rename_i refused
    obtain ⟨-, htx⟩ := run_pure_iff.mp h
    cases htx
    have message := (validateBuiltTransactionContext_message parse config build).run hcontext
    exact BuildSubmitResult.consistent_failure _ rfl (message refused) refused
  obtain ⟨submitting, submit, rest, rfl, hsubmit, h⟩ := run_bind h
  obtain ⟨accepted, rejected⟩ := run_submitMidnightTransaction hsubmit
  split at h
  · rename_i submitted
    obtain ⟨-, htx⟩ := run_pure_iff.mp h
    cases htx
    obtain ⟨given, txHex, answered⟩ := accepted submitted
    exact {
      success_iff := by simp [SdkError.isSet]
      built := fun _ => by simpa using success
      accepted := fun _ => ⟨given, txHex, by simp [answered]⟩
      failed := nofun }
  · rename_i failed
    obtain ⟨-, htx⟩ := run_pure_iff.mp h
    cases htx
    have set := rejected (by simpa using failed)
    apply BuildSubmitResult.consistent_failure _ rfl
    · dsimp only
      split
      · simp
      · assumption
    · dsimp only
      rwa [if_pos set]

theorem run_buildAndSubmit {P : Type} {parse : String → Except String Json} {config : ClientConfig}
    {validate : P → Client BuildSubmitResult} {build : P → Client BuildResult} {params : P}
    {seen : List (Event Answer)} {tx : BuildSubmitResult}
    (h : Run (buildAndSubmit parse config validate build params) seen (.ok tx))
    (hrefuses : Returns Refuses (validate params)) : tx.Consistent seen := by
  obtain ⟨checked, invalid, rest, rfl, hchecked, h⟩ := run_bind h
  split at h
  · rename_i refused
    obtain ⟨-, htx⟩ := run_pure_iff.mp h
    cases htx
    obtain ⟨failed, error⟩ := hrefuses.run hchecked refused
    exact BuildSubmitResult.consistent_failure _ failed error refused
  · obtain ⟨building, result, rest, rfl, -, h⟩ := run_bind h
    exact ((run_submitBuiltTransaction h).behind building).behind checked

theorem Operation.run_consistent {parse : String → Except String Json} {config : ClientConfig}
    {op : Operation} {seen : List (Event Answer)} {tx : BuildSubmitResult}
    (h : Run (op.run parse config) seen (.ok tx)) : tx.Consistent seen := by
  have hrefuses := op.validate_refuses
  cases op <;> exact run_buildAndSubmit h hrefuses

/-! ## Waiting -/

theorem confirmationFromTransaction_of_found (hash : String) {tx : Json} (h : isFound tx = true) :
    (confirmationFromTransaction hash tx).success = true ∧
      (confirmationFromTransaction hash tx).found = true ∧
      (confirmationFromTransaction hash tx).transaction = tx ∧
      (confirmationFromTransaction hash tx).error = {} := by
  simp [confirmationFromTransaction, h]

/-- The loop ends with what is made of an answer that shows the transaction, or with an
error: what a round leaves behind is replaced by the next, and the end adds what is
missing. -/
theorem inclusionLoop_cases (hash : String) {result : ConfirmationResult}
    (h : result.success = false) (polls : List (Except String Json)) :
    (∃ tx, .ok tx ∈ polls ∧ isFound tx = true ∧
      inclusionLoop hash result polls = confirmationFromTransaction hash tx) ∨
    ((inclusionLoop hash result polls).success = false ∧
      (inclusionLoop hash result polls).error.isSet = true) := by
  induction polls generalizing result with
  | nil =>
    right
    rw [inclusionLoop]
    split
    · exact ⟨h, by assumption⟩
    · exact ⟨h, rfl⟩
  | cons poll polls ih =>
    simp only [List.mem_cons]
    cases poll with
    | error e =>
      rw [inclusionLoop]
      have unsuccessful : { result with
          error := makeError .indexerError "Indexer transaction query failed" e }.success = false :=
        h
      rcases ih unsuccessful with ⟨tx, answered, found, heq⟩ | failed
      · exact Or.inl ⟨tx, Or.inr answered, found, heq⟩
      · exact Or.inr failed
    | ok tx =>
      rw [inclusionLoop]
      cases found : isFound tx with
      | true =>
        left
        obtain ⟨success, -, -, -⟩ := confirmationFromTransaction_of_found hash found
        refine ⟨tx, Or.inl rfl, found, ?_⟩
        simp only [success, if_true]
      | false =>
        have missing : (confirmationFromTransaction hash tx).success = false := by
          simp [confirmationFromTransaction, found]
        simp only [missing, Bool.false_eq_true, if_false]
        rcases ih missing with ⟨tx', answered, found', heq⟩ | failed
        · exact Or.inl ⟨tx', Or.inr answered, found', heq⟩
        · exact Or.inr failed

theorem waitForInclusion_cases (hash : String) (polls : List (Except String Json)) :
    (∃ tx, .ok tx ∈ polls ∧ isFound tx = true ∧
      waitForInclusion hash polls = confirmationFromTransaction hash tx) ∨
    ((waitForInclusion hash polls).success = false ∧
      (waitForInclusion hash polls).error.isSet = true) := by
  unfold waitForInclusion
  split
  · exact Or.inr ⟨rfl, rfl⟩
  · exact inclusionLoop_cases hash rfl polls

/-! ## Pipelines -/

/-- A result of a pipeline fits together, given its options and what was answered. -/
structure PipelineResult.Consistent (result : PipelineResult) (options : PipelineOptions)
    (polls : List (Except String Json)) (seen : List (Event Answer)) : Prop where
  transaction : result.transaction.Consistent seen
  success_iff : result.success = true ↔ result.error.isSet = false
  submitted : result.success = true → result.transaction.success = true
  confirmed : result.success = true → options.waitForConfirmation = true →
    result.confirmation.found = true ∧ isFound result.confirmation.transaction = true ∧
      .ok result.confirmation.transaction ∈ polls

theorem pipelineFromBuildSubmit_consistent (saveBuildResult : BuildResult → ArtifactSaveResult)
    (polls : List (Except String Json)) (options : PipelineOptions) {tx : BuildSubmitResult}
    {seen : List (Event Answer)} (h : tx.Consistent seen) :
    (pipelineFromBuildSubmit saveBuildResult polls options tx).Consistent options polls seen := by
  unfold pipelineFromBuildSubmit
  cases submitted : tx.success with
  | false =>
    obtain ⟨-, set⟩ := h.failed submitted
    simp only [Bool.not_false, if_true, set]
    exact ⟨h, by simp [set], nofun, nofun⟩
  | true =>
    simp only [Bool.not_true, Bool.false_eq_true, if_false]
    split
    · rcases waitForInclusion_cases (confirmationHashFor tx) polls with
        ⟨answer, answered, found, heq⟩ | ⟨failed, set⟩
      · obtain ⟨success, hfound, htx, -⟩ :=
          confirmationFromTransaction_of_found (confirmationHashFor tx) found
        simp only [waitForTransaction, heq, success, if_true]
        refine ⟨h, by simp [SdkError.isSet], fun _ => submitted, fun _ _ => ⟨hfound, ?_, ?_⟩⟩
        · simp only [htx, found]
        · simp only [htx, answered]
      · simp only [waitForTransaction, failed, Bool.false_eq_true, if_false]
        exact ⟨h, by simp [set], nofun, nofun⟩
    · rename_i immediate
      exact ⟨h, by simp [SdkError.isSet], fun _ => submitted, fun _ waits => absurd waits immediate⟩

/-- **Results fit together.** Whatever the backend, the node and the indexer answer, an
operation that returns says that it succeeded exactly when it records no error; it then
built a transaction whose hash the node gave, and the indexer showed it where that was
waited for. A failure has its error. -/
theorem results_consistent (parse : String → Except String Json) (config : ClientConfig)
    (saveBuildResult : String → BuildResult → ArtifactSaveResult)
    (polls : List (Except String Json)) (options : PipelineOptions) (op : Operation)
    (seen : List (Event Answer)) :
    (∀ tx, Run (op.run parse config) seen (.ok tx) → tx.Consistent seen) ∧
      ∀ result, Run (op.pipeline parse config saveBuildResult polls options) seen (.ok result) →
        result.Consistent options polls seen := by
  refine ⟨fun tx => Operation.run_consistent, fun result h => ?_⟩
  obtain ⟨before, tx, rest, rfl, hrun, hrest⟩ := run_bind h
  obtain ⟨rfl, hresult⟩ := run_pure_iff.mp hrest
  cases hresult
  rw [List.append_nil]
  exact pipelineFromBuildSubmit_consistent _ polls options (Operation.run_consistent hrun)

def acceptedHash : String := "aaaaaaaaaaaaaaaaaaaaaaaaaaaaaaaaaaaaaaaaaaaaaaaaaaaaaaaaaaaaaaaa"

/-- The intents submitted, and the hash the node answers with. -/
def acceptedIntents : BuildSubmitResult :=
  { success := true, build := oneByteBuild,
    submit := { success := true, extrinsicHash := acceptedHash } }

def acceptedAnswers : List (Event Answer) :=
  someAnswers ++ [⟨.submitTransaction ['0', '1'], .ok acceptedHash⟩]

/-- The indexer fails, knows nothing yet, and then shows the transaction. -/
def acceptedPolls : List (Except String Json) :=
  [.error "timeout", .ok .null, .ok (.object [("hash", .string acceptedHash)])]

example : (pipelineFromBuildSubmit (fun _ => {}) acceptedPolls {} acceptedIntents).success = true := by
  decide

theorem results_consistent_intents :
    acceptedIntents.Consistent acceptedAnswers ∧
      (pipelineFromBuildSubmit (fun _ => {}) acceptedPolls {} acceptedIntents).Consistent {}
        acceptedPolls acceptedAnswers := by
  obtain ⟨submitted, piped⟩ := results_consistent parseNull someConfig (fun _ _ => {})
    acceptedPolls {} someIntents acceptedAnswers
  refine ⟨submitted _ ?_, piped _ ?_⟩
  · exact .ask (.ask (.ask (.ask (.ask (.ask (.ask (.ask (.ask (.ask (.done _))))))))))
  · exact .ask (.ask (.ask (.ask (.ask (.ask (.ask (.ask (.ask (.ask (.done _))))))))))

end MidnightSdk.Production
