import MidnightSdk.Library.Interaction
import MidnightSdk.Production.StateStatus

/-!
# State that is fresh enough

Before it builds on the local state, the client has it refreshed, unless it takes the
backend's status for good enough. Where it has measured how far the state lies behind the
chain, its own verdict counts; where it has not, the one of the backend is passed over.
-/

namespace MidnightSdk.Production

open Cpp Interaction Ledger Network

inductive BackendCall where
  | status (source : SourceConfig)
  | refresh (params : SyncLedgerStateParams) (options : StateRefreshOptions)

abbrev BackendAnswer : BackendCall → Type
  | .status _ => Throws StateStatus
  | .refresh _ _ => Throws StateRefreshResult

abbrev OverBackend : Type → Type := Program BackendCall BackendAnswer Exception

def call (q : BackendCall) : OverBackend (BackendAnswer q) := Program.question q

/-- What the backend throws is thrown on. -/
def callStatus (source : SourceConfig) : OverBackend StateStatus := do
  let answer ← call (.status source)
  Program.orThrow answer

def refreshState (params : SyncLedgerStateParams) (options : StateRefreshOptions) :
    OverBackend StateRefreshResult := do
  let answer ← call (.refresh params options)
  Program.orThrow answer

def bestEffortRemoteTip (node : Option NodeAnswers) : Option UInt64 :=
  node.bind fun node => (getChainTip node).toOption.map (·.1)

/-- `raw` is amended where it is an object. -/
def noteLag (status : StateStatus) : Json :=
  match status.raw with
  | .object fields => .object (Json.assign "stale" (.bool status.stale)
      (Json.assign "lag_blocks" (.unsigned status.lagBlocks)
        (Json.assign "remote_tip_height" (.unsigned status.remoteTipHeight) fields)))
  | raw => raw

/-- The tip as far as it is known; zero stands for none. -/
def knownTip (node : Option NodeAnswers) (status : StateStatus) : UInt64 :=
  if status.localCheckpointAvailable && status.remoteTipHeight == 0 then
    (bestEffortRemoteTip node).getD status.remoteTipHeight
  else status.remoteTipHeight

def blocksBehind (checkpoint tip : UInt64) : UInt64 :=
  if checkpoint < tip then tip - checkpoint else 0

/-- What the client makes of a status. -/
def withLag (node : Option NodeAnswers) (maxLagBlocks : UInt64) (status : StateStatus) :
    StateStatus :=
  let status := { status with remoteTipHeight := knownTip node status }
  let status :=
    if status.ready && status.localCheckpointAvailable && decide (0 < status.remoteTipHeight) then
      let lagBlocks := blocksBehind status.localCheckpoint status.remoteTipHeight
      { status with lagBlocks, stale := maxLagBlocks < lagBlocks }
    else status
  { status with raw := noteLag status }

def stateStatus (node : Option NodeAnswers) (source : SourceConfig) (maxLagBlocks : UInt64) :
    OverBackend StateStatus := do
  let status ← callStatus source
  return withLag node maxLagBlocks status

/-- Without a checkpoint, a state that is ready is taken as it is. -/
def goodEnough (options : StateRefreshOptions) (before : StateStatus) : Bool :=
  !options.force && before.ready &&
    (!before.localCheckpointAvailable || before.lagBlocks ≤ options.maxLagBlocks)

def skippedResult (before : StateStatus) : StateRefreshResult :=
  { success := true, skipped := true, before, after := before }

def ensureStateFresh (node : Option NodeAnswers) (params : SyncLedgerStateParams)
    (options : StateRefreshOptions) : OverBackend StateRefreshResult := do
  let before ← stateStatus node params.source options.maxLagBlocks
  if goodEnough options before then return skippedResult before
  else refreshState params options

/-! ## What is asked of it -/

/-- State that can be built on: where a checkpoint and a tip are known, it lies no further
behind than is allowed. -/
structure FreshEnough (maxLagBlocks : UInt64) (status : StateStatus) : Prop where
  ready : status.ready = true
  notStale : status.stale = false
  near : status.localCheckpointAvailable = true → status.remoteTipHeight ≠ 0 →
    status.remoteTipHeight.toNat - status.localCheckpoint.toNat ≤ maxLagBlocks.toNat

def BackendCall.isRefresh : BackendCall → Bool
  | .refresh _ _ => true
  | .status _ => false

/-- A client whose backend gives this status and this result. It asks for each once. -/
def answering (status : StateStatus) (refreshed : Throws StateRefreshResult) :
    (q : BackendCall) → BackendAnswer q
  | .status _ => .ok status
  | .refresh _ _ => refreshed

/-- A success that skips is answered on fresh state only. -/
def SkipsOnlyFresh (options : StateRefreshOptions) (answer : Throws StateRefreshResult) : Prop :=
  ∀ result, answer = .ok result → result.success = true → result.skipped = true →
    FreshEnough options.maxLagBlocks result.after

def refreshes (asked : List BackendCall) : Nat := asked.countP BackendCall.isRefresh

/-- Either nothing is refreshed and the answer skips on fresh state, or there is one
refresh. -/
def SkipsOrRefreshes (options : StateRefreshOptions)
    (outcome : List BackendCall × Throws StateRefreshResult) : Prop :=
  (refreshes outcome.1 = 0 ∧ ∃ result, outcome.2 = .ok result ∧ result.success = true ∧
    result.skipped = true ∧ FreshEnough options.maxLagBlocks result.after) ∨
  refreshes outcome.1 = 1

/-! ## What the client makes of a status -/

section
variable {node : Option NodeAnswers} {maxLagBlocks : UInt64} {status : StateStatus}

theorem blocksBehind_toNat (checkpoint tip : UInt64) :
    (blocksBehind checkpoint tip).toNat = tip.toNat - checkpoint.toNat := by
  unfold blocksBehind
  split
  · rename_i behind
    exact UInt64.toNat_sub_of_le _ _ (UInt64.le_of_lt behind)
  · rename_i ahead
    have := UInt64.le_iff_toNat_le.mp (UInt64.not_lt.mp ahead)
    rw [UInt64.toNat_zero]
    omega

theorem withLag_ready : (withLag node maxLagBlocks status).ready = status.ready := by
  simp only [withLag]
  split <;> rfl

theorem withLag_localCheckpoint :
    (withLag node maxLagBlocks status).localCheckpoint = status.localCheckpoint := by
  simp only [withLag]
  split <;> rfl

theorem withLag_localCheckpointAvailable :
    (withLag node maxLagBlocks status).localCheckpointAvailable =
      status.localCheckpointAvailable := by
  simp only [withLag]
  split <;> rfl

theorem withLag_remoteTipHeight :
    (withLag node maxLagBlocks status).remoteTipHeight = knownTip node status := by
  simp only [withLag]
  split <;> rfl

variable (maxLagBlocks) in
/-- The lag is measured, and the verdict is the client's own. -/
theorem withLag_of_known (hready : status.ready = true)
    (hcheckpoint : status.localCheckpointAvailable = true) (hknown : knownTip node status ≠ 0) :
    (withLag node maxLagBlocks status).lagBlocks =
        blocksBehind status.localCheckpoint (knownTip node status) ∧
      (withLag node maxLagBlocks status).stale =
        decide (maxLagBlocks < blocksBehind status.localCheckpoint (knownTip node status)) := by
  have positive : 0 < knownTip node status := UInt64.pos_iff_ne_zero.mpr hknown
  simp [withLag, hready, hcheckpoint, positive]

variable (maxLagBlocks) in
/-- Nothing is measured, and what the backend says stays. -/
theorem withLag_of_unknown
    (h : status.localCheckpointAvailable = false ∨ knownTip node status = 0) :
    (withLag node maxLagBlocks status).lagBlocks = status.lagBlocks ∧
      (withLag node maxLagBlocks status).stale = status.stale := by
  rcases h with none | zero
  · simp [withLag, none]
  · simp [withLag, zero]

/-- The backend gives a tip, or the node does. -/
def TipKnown (node : Option NodeAnswers) (status : StateStatus) : Prop :=
  status.remoteTipHeight ≠ 0 ∨ ∃ tip, bestEffortRemoteTip node = some tip ∧ tip ≠ 0

theorem knownTip_ne_zero_iff (h : status.localCheckpointAvailable = true) :
    knownTip node status ≠ 0 ↔ TipKnown node status := by
  simp only [knownTip, TipKnown, h, Bool.true_and, beq_iff_eq]
  split
  · rename_i unknown
    rw [unknown]
    cases bestEffortRemoteTip node <;> simp
  · rename_i given
    simp [given]

end

/-! ## When it is met -/

section
variable {node : Option NodeAnswers} {params : SyncLedgerStateParams}
  {options : StateRefreshOptions} {status : StateStatus}
  {refreshed : Throws StateRefreshResult}

/-- The client skips by its own verdict. -/
def Skips (node : Option NodeAnswers) (options : StateRefreshOptions) (status : StateStatus) :
    Prop :=
  options.force = false ∧ status.ready = true ∧
    (status.localCheckpointAvailable = true →
      (TipKnown node status →
        blocksBehind status.localCheckpoint (knownTip node status) ≤ options.maxLagBlocks) ∧
      (¬ TipKnown node status → status.lagBlocks ≤ options.maxLagBlocks))

theorem goodEnough_withLag_iff :
    goodEnough options (withLag node options.maxLagBlocks status) = true ↔
      Skips node options status := by
  rw [goodEnough, withLag_ready, withLag_localCheckpointAvailable, Skips]
  simp only [Bool.and_eq_true, Bool.not_eq_true', Bool.or_eq_true, decide_eq_true_eq, and_assoc]
  refine and_congr_right fun _ => and_congr_right fun hready => ?_
  cases hcheckpoint : status.localCheckpointAvailable with
  | false => simp
  | true =>
    rw [← knownTip_ne_zero_iff hcheckpoint]
    by_cases hknown : knownTip node status = 0
    · rw [(withLag_of_unknown _ (.inr hknown)).1]
      simp [hknown]
    · rw [(withLag_of_known _ hready hcheckpoint hknown).1]
      simp [hknown]

theorem outcome_stateStatus (source : SourceConfig) (maxLagBlocks : UInt64) :
    outcome (answering status refreshed) (stateStatus node source maxLagBlocks) =
      ([.status source], .ok (withLag node maxLagBlocks status)) := rfl

theorem outcome_refreshState :
    outcome (answering status refreshed) (refreshState params options) =
      ([.refresh params options], refreshed) := by
  cases refreshed <;> rfl

theorem outcome_of_skips (h : Skips node options status) :
    outcome (answering status refreshed) (ensureStateFresh node params options) =
      ([.status params.source],
        .ok (skippedResult (withLag node options.maxLagBlocks status))) := by
  rw [ensureStateFresh, outcome_bind (outcome_stateStatus _ _),
    if_pos (goodEnough_withLag_iff.mpr h)]
  rfl

theorem outcome_of_not_skips (h : ¬ Skips node options status) :
    outcome (answering status refreshed) (ensureStateFresh node params options) =
      ([.status params.source, .refresh params options], refreshed) := by
  rw [ensureStateFresh, outcome_bind (outcome_stateStatus _ _),
    if_neg (mt goodEnough_withLag_iff.mp h), outcome_refreshState]
  rfl

/-- State the client skips on is fresh where the client has measured it, or where the
backend does not call it stale. -/
theorem fresh_withLag_iff (h : Skips node options status) :
    FreshEnough options.maxLagBlocks (withLag node options.maxLagBlocks status) ↔
      status.stale = false ∨
        (status.localCheckpointAvailable = true ∧ TipKnown node status) := by
  obtain ⟨-, hready, hlag⟩ := h
  by_cases measured : status.localCheckpointAvailable = true ∧ TipKnown node status
  · obtain ⟨hcheckpoint, htip⟩ := measured
    have within := (hlag hcheckpoint).1 htip
    have verdict := (withLag_of_known options.maxLagBlocks hready hcheckpoint
      ((knownTip_ne_zero_iff hcheckpoint).mpr htip)).2
    refine iff_of_true ⟨withLag_ready.trans hready, ?_, fun _ _ => ?_⟩ (.inr ⟨hcheckpoint, htip⟩)
    · rw [verdict]
      exact decide_eq_false (UInt64.not_lt.mpr within)
    · rw [withLag_remoteTipHeight, withLag_localCheckpoint, ← blocksBehind_toNat]
      exact UInt64.le_iff_toNat_le.mp within
  · have unmeasured : status.localCheckpointAvailable = false ∨ knownTip node status = 0 := by
      cases hcheckpoint : status.localCheckpointAvailable with
      | false => exact .inl rfl
      | true =>
        refine .inr (not_not.mp fun known => measured ⟨hcheckpoint, ?_⟩)
        exact (knownTip_ne_zero_iff hcheckpoint).mp known
    have kept := (withLag_of_unknown options.maxLagBlocks unmeasured).2
    rw [or_iff_left measured]
    refine ⟨fun fresh => kept.symm.trans fresh.notStale, fun hstale =>
      ⟨withLag_ready.trans hready, kept.trans hstale, fun hcheckpoint htip => ?_⟩⟩
    rw [withLag_localCheckpointAvailable] at hcheckpoint
    rw [withLag_remoteTipHeight] at htip
    exact absurd ⟨hcheckpoint, (knownTip_ne_zero_iff hcheckpoint).mp htip⟩ measured

/-- What the backend calls stale is not taken for good enough: the client measures the lag
itself, or the one reported is too large. -/
def Heeded (node : Option NodeAnswers) (options : StateRefreshOptions) (status : StateStatus) :
    Prop :=
  options.force = true ∨ status.ready = false ∨ status.stale = false ∨
    (status.localCheckpointAvailable = true ∧
      (TipKnown node status ∨ options.maxLagBlocks < status.lagBlocks))

theorem heeded_iff : Heeded node options status ↔
    (Skips node options status → status.stale = false ∨
      (status.localCheckpointAvailable = true ∧ TipKnown node status)) := by
  constructor
  · rintro (forced | notReady | notStale | ⟨hcheckpoint, htip | far⟩) ⟨unforced, hready, hlag⟩
    · exact absurd (forced.symm.trans unforced) nofun
    · exact absurd (hready.symm.trans notReady) nofun
    · exact .inl notStale
    · exact .inr ⟨hcheckpoint, htip⟩
    · by_cases htip : TipKnown node status
      · exact .inr ⟨hcheckpoint, htip⟩
      · exact absurd ((hlag hcheckpoint).2 htip) (UInt64.not_le.mpr far)
  · intro h
    by_contra unheeded
    simp only [Heeded, not_or, not_and, Bool.not_eq_true, Bool.not_eq_false, UInt64.not_lt]
      at unheeded
    obtain ⟨unforced, hready, hstale, hcheckpoint⟩ := unheeded
    have skips : Skips node options status :=
      ⟨unforced, hready, fun available =>
        ⟨fun htip => absurd htip (hcheckpoint available).1, fun _ => (hcheckpoint available).2⟩⟩
    rcases h skips with notStale | ⟨available, htip⟩
    · exact absurd (hstale.symm.trans notStale) nofun
    · exact (hcheckpoint available).1 htip

theorem skipsOrRefreshes_iff :
    SkipsOrRefreshes options
        (outcome (answering status refreshed) (ensureStateFresh node params options)) ↔
      Heeded node options status := by
  rw [heeded_iff]
  by_cases skips : Skips node options status
  · rw [outcome_of_skips skips, SkipsOrRefreshes, ← fresh_withLag_iff skips]
    simp [skips, refreshes, BackendCall.isRefresh, skippedResult]
  · rw [outcome_of_not_skips skips]
    simp [SkipsOrRefreshes, skips, refreshes, BackendCall.isRefresh]

theorem skipsOnlyFresh_iff :
    SkipsOnlyFresh options
        (outcome (answering status refreshed) (ensureStateFresh node params options)).2 ↔
      Heeded node options status ∧
        (¬ Skips node options status → SkipsOnlyFresh options refreshed) := by
  rw [heeded_iff]
  by_cases skips : Skips node options status
  · rw [outcome_of_skips skips, SkipsOnlyFresh, ← fresh_withLag_iff skips]
    simp [skips, skippedResult]
  · rw [outcome_of_not_skips skips]
    simp [skips]

variable (node params options status refreshed) in
/-- **When the client skips on fresh state only.** What the client skips by itself is fresh
exactly where a state that the backend calls stale is not taken for good enough. A skip that
the backend's own refresh reports is handed on as it is. -/
theorem ensureStateFresh_iff :
    (SkipsOrRefreshes options
        (outcome (answering status refreshed) (ensureStateFresh node params options)) ↔
      Heeded node options status) ∧
    (SkipsOnlyFresh options
          (outcome (answering status refreshed) (ensureStateFresh node params options)).2 ∧
        SkipsOrRefreshes options
          (outcome (answering status refreshed) (ensureStateFresh node params options)) ↔
      Heeded node options status ∧
        (¬ Skips node options status → SkipsOnlyFresh options refreshed)) := by
  refine ⟨skipsOrRefreshes_iff, ?_⟩
  rw [skipsOrRefreshes_iff, skipsOnlyFresh_iff]
  exact ⟨And.left, fun h => ⟨h, h.1⟩⟩

end

/-- What a service may say of a state that has no checkpoint. -/
def farBehind : Json :=
  .object [("lag_blocks", .unsigned 5000), ("ready", .bool true), ("stale", .bool true)]

def farBehindOutcome : List BackendCall × Throws StateRefreshResult :=
  outcome (answering
    (ManagedStateBackend.status (fun _ => "") "https://state" (fun _ _ => .ok farBehind) {} none)
    (.ok {})) (ensureStateFresh none { source := {}, walletSeeds := [] } {})

/-- The state is skipped on, and returned as stale. -/
theorem not_fresh_farBehind :
    ¬ SkipsOnlyFresh {} farBehindOutcome.2 ∧ ¬ SkipsOrRefreshes {} farBehindOutcome := by
  have unheeded : ¬ Heeded none {}
      (ManagedStateBackend.status (fun _ => "") "https://state" (fun _ _ => .ok farBehind) {}
        none) := by
    rintro (forced | notReady | notStale | ⟨available, -⟩)
    · cases forced
    · cases notReady
    · cases notStale
    · cases available
  exact ⟨fun h => unheeded (skipsOnlyFresh_iff.mp h).1,
    fun h => unheeded (skipsOrRefreshes_iff.mp h)⟩

/-! ## The two backends -/

section
variable (node : Option NodeAnswers) (params : SyncLedgerStateParams)
  (options : StateRefreshOptions)

/-- Local state that is ready is never stale, and has no checkpoint. -/
theorem LocalStateBackend.fresh_status {platform : Platform} {mode : StateBackendMode}
    {disk : Disk} {source : SourceConfig} {tip : Option UInt64} (maxLagBlocks : UInt64)
    (h : (status platform mode disk source tip).ready = true) :
    FreshEnough maxLagBlocks (status platform mode disk source tip) where
  ready := h
  notStale := by
    change (!(status platform mode disk source tip).ready) = false
    rw [h]
    rfl
  near := nofun

theorem LocalStateBackend.skipsOnlyFresh_refresh (platform : Platform) (mode : StateBackendMode)
    (ledgerBackend : Option LedgerSync) (disk : Disk) :
    SkipsOnlyFresh options
      (.ok (refresh platform mode ledgerBackend disk params options)) := by
  rintro _ ⟨⟩ hsuccess hskipped
  cases ledgerBackend with
  | none => cases hsuccess
  | some syncLedgerState =>
    by_cases cached : (!options.force && (status platform mode disk params.source none).ready &&
        !options.allowSourceFetch) = true
    · simp only [refresh, cached, if_true]
      simp only [Bool.and_eq_true] at cached
      exact fresh_status _ cached.1.2
    · simp only [refresh, cached, Bool.false_eq_true, if_false] at hskipped
      split at hskipped <;> cases hskipped

/-- Over the local backend the client skips on fresh state only. -/
theorem LocalStateBackend.ensureStateFresh_fresh (platform : Platform) (mode : StateBackendMode)
    (ledgerBackend : Option LedgerSync) (disk later : Disk) :
    let answers := answering (status platform mode disk params.source none)
      (.ok (refresh platform mode ledgerBackend later params options))
    SkipsOnlyFresh options (outcome answers (ensureStateFresh node params options)).2 ∧
      SkipsOrRefreshes options (outcome answers (ensureStateFresh node params options)) := by
  intro answers
  have heeded : Heeded node options (status platform mode disk params.source none) := by
    cases hready : (status platform mode disk params.source none).ready with
    | false => exact .inr (.inl hready)
    | true => exact .inr (.inr (.inl (fresh_status options.maxLagBlocks hready).notStale))
  exact ⟨skipsOnlyFresh_iff.mpr ⟨heeded, fun _ =>
    skipsOnlyFresh_refresh params options platform mode ledgerBackend later⟩,
    skipsOrRefreshes_iff.mpr heeded⟩

/-- A managed service can report any status. -/
theorem ManagedStateBackend.status_statusToJson (typeErrorText : Nat → String) {baseUrl : String}
    (h : baseUrl ≠ "") (reported : StateStatus) (source : SourceConfig) :
    status typeErrorText baseUrl (fun _ _ => .ok (statusToJson reported)) source none =
      { reported with
        backendMode := .managed, sourceMode := source.sourceMode
        raw := statusToJson reported } := by
  simp only [status, if_neg h, ok_bind, statusFromJson_statusToJson]
  rfl

/-- Over a managed service it does not, where the service calls a state stale that the
client cannot measure. -/
theorem ManagedStateBackend.skipsOrRefreshes_iff_reported (typeErrorText : Nat → String)
    {baseUrl : String} (h : baseUrl ≠ "") (reported : StateStatus)
    (refreshed : Throws StateRefreshResult) :
    SkipsOrRefreshes options (outcome (answering
        (status typeErrorText baseUrl (fun _ _ => .ok (statusToJson reported)) params.source none)
        refreshed) (ensureStateFresh node params options)) ↔ Heeded node options reported := by
  rw [skipsOrRefreshes_iff, status_statusToJson typeErrorText h]
  rfl

/-- What a service skips is handed on with the state it reports. Where that state cannot be
read, the flags stay, with the state from before. -/
theorem ManagedStateBackend.skipsOnlyFresh_refresh_iff (typeErrorText : Nat → String)
    {baseUrl : String} (h : baseUrl ≠ "") {service : RefreshAnswers} {response : Json}
    (hanswer : service.refreshed "/v1/state/refresh" (refreshRequest params options) = .ok response)
    (hsuccess : response.valueBool "success" false = .ok true)
    (hskipped : response.valueBool "skipped" false = .ok true) :
    SkipsOnlyFresh options (.ok (refresh typeErrorText baseUrl service params options)) ↔
      FreshEnough options.maxLagBlocks
        ((refreshedStatus typeErrorText baseUrl service.after response params.source).toOption.getD
          (status typeErrorText baseUrl service.before params.source none)) := by
  simp only [SkipsOnlyFresh, Except.ok.injEq, forall_eq', refresh, if_neg h, hanswer, hsuccess,
    hskipped]
  cases refreshedStatus typeErrorText baseUrl service.after response params.source with
  | error e => simp [Except.toOption]
  | ok after => simp [refreshError, Except.toOption]

end

end MidnightSdk.Production
