import MidnightSdk.Library.SharedCounter
import MidnightSdk.Wallet.FacadeRuns

/-!
# Resuming a sync

A sync listens to a subscription and, if that has not succeeded, may scan the
blocks with sixteen workers. Both leave the point to resume from in one field,
the subscription as a transaction id and the scan as a block.
-/

namespace MidnightSdk.Wallet

open Runs SharedCounter

def firstIndexedBlock : UInt32 := 609178

/-- What a callback of the subscription is called with. -/
inductive Delivery where
  | progress (highestTxId : UInt64)
  | utxo (now : Int) (evt : UnshieldedTxEvent)
  deriving DecidableEq, Repr

/-- The outputs returned for a block. A query that throws is logged and returns
what it had so far. -/
structure BlockAnswer where
  utxos : List Utxo := []
  failed : Bool := false
  deriving DecidableEq, Repr

/-- What happens around one sync: whether the subscription is established, its
callbacks before and after success is decided, whether an exception ends the sync
before a scan, the flag and the height the scan reads, and the moves of its
workers. -/
structure SyncInput where
  connected : Bool := false
  deliveries : List Delivery := []
  hasError : Bool := false
  late : List Delivery := []
  throws : Bool := false
  scanEnabled : Bool := false
  blockHeight : UInt64 := 0
  schedule : List (Fin 16 × BlockAnswer) := []
  now : Int := 0
  deriving DecidableEq, Repr

/-! ## A sync -/

def UnshieldedWalletState.deliver (s : UnshieldedWalletState) : Delivery → UnshieldedWalletState
  | .progress highestTxId =>
    { s with progress := { s.progress with highestTransactionId := highestTxId } }
  | .utxo now evt => s.onUtxo now evt

/-- The state when the subscription is closed. -/
def UnshieldedWalletState.subscribe (s : UnshieldedWalletState) (input : SyncInput) :
    UnshieldedWalletState :=
  if input.connected then (input.deliveries ++ input.late).foldl UnshieldedWalletState.deliver s
  else s

/-- `sync_ok` as the subscription leaves it. -/
def UnshieldedWalletState.syncOk (s : UnshieldedWalletState) (input : SyncInput) : Bool :=
  input.connected && !input.hasError &&
    (input.deliveries.foldl UnshieldedWalletState.deliver s).progress.appliedId > 0

def UnshieldedWalletState.fromBlock (s : UnshieldedWalletState) : UInt32 :=
  if s.progress.appliedId > 0 then s.progress.appliedId.toUInt32 else firstIndexedBlock

/-- The workers when they are joined. -/
def UnshieldedWalletState.scanPool (s : UnshieldedWalletState) (input : SyncInput) :
    Pool (Fin 16) BlockAnswer :=
  run (Pool.move input.blockHeight.toUInt32) (Pool.start s.fromBlock) input.schedule

def allUtxos (pool : Pool (Fin 16) BlockAnswer) : List (UInt32 × Utxo) :=
  pool.done.flatMap fun r => r.2.utxos.map fun utxo => (r.1, utxo)

def UnshieldedWalletState.report (s : UnshieldedWalletState) (syncOk : Bool) :
    UnshieldedWalletState :=
  { s with synced := syncOk, progress := { s.progress with isConnected := syncOk } }

def UnshieldedWalletState.sync (s : UnshieldedWalletState) (input : SyncInput) :
    UnshieldedWalletState :=
  let syncOk := s.syncOk input
  let s := s.subscribe input
  if input.throws then s.report false
  else if !syncOk && input.scanEnabled then
    s.httpScan input.now input.blockHeight.toUInt32 (allUtxos (s.scanPool input))
  else s.report syncOk

/-! ## What has been applied -/

inductive Source where
  | subscription
  | scan
  deriving DecidableEq, Repr

/-- The wallet with who wrote its resume point, the blocks answered in full, the
transactions delivered, and whether one path took up the other's resume point. -/
structure Tracked where
  wallet : UnshieldedWalletState := {}
  source : Option Source := none
  blocks : List UInt32 := []
  transactions : List UInt64 := []
  misread : Bool := false
  deriving Repr

/-- The transaction id a callback leaves as the resume point. -/
def Delivery.transaction? : Delivery → Option UInt64
  | .progress _ => none
  | .utxo _ evt => if evt.transactionId > 0 then some evt.transactionId else none

def SyncInput.delivered (input : SyncInput) : List UInt64 :=
  if input.connected then (input.deliveries ++ input.late).filterMap Delivery.transaction? else []

def Tracked.resumePoint (s : Tracked) : UInt64 := s.wallet.progress.appliedId

def Tracked.scans (s : Tracked) (input : SyncInput) : Bool :=
  !input.throws && (!s.wallet.syncOk input && input.scanEnabled)

def Tracked.subscribe (s : Tracked) (input : SyncInput) : Tracked where
  wallet := s.wallet.subscribe input
  source := if input.delivered = [] then s.source else some .subscription
  blocks := s.blocks
  transactions := s.transactions ++ input.delivered
  misread := s.misread || (input.connected && s.resumePoint > 0 && s.source == some .scan)

def Tracked.scan (s : Tracked) (input : SyncInput) : Tracked where
  wallet :=
    s.wallet.httpScan input.now input.blockHeight.toUInt32 (allUtxos (s.wallet.scanPool input))
  source := some .scan
  blocks := s.blocks ++ ((s.wallet.scanPool input).done.filter fun r => !r.2.failed).map (·.1)
  transactions := s.transactions
  misread := s.misread || (s.resumePoint > 0 && s.source == some .subscription)

def Tracked.sync (s : Tracked) (input : SyncInput) : Tracked :=
  if s.scans input then (s.subscribe input).scan input
  else { s.subscribe input with wallet := s.wallet.sync input }

/-- Nothing at or below the resume point was left out by the path that wrote it,
and neither path took up the other's. -/
structure Resumable (history : List UInt64) (s : Tracked) : Prop where
  apart : s.misread = false
  unset : s.source = none → s.resumePoint = 0
  blocks : s.source = some .scan → s.resumePoint.toNat < 2 ^ 32 ∧
    ∀ block, firstIndexedBlock ≤ block → block.toNat ≤ s.resumePoint.toNat → block ∈ s.blocks
  transactions : s.source = some .subscription →
    ∀ id ∈ history, id ≤ s.resumePoint → id ∈ s.transactions

/-- What the indexer and the machine do: a subscription delivers what follows the
id it was given, in order and up to some point, and the workers come to an end. -/
structure Served (history : List UInt64) (s : Tracked) (input : SyncInput) : Prop where
  delivers : input.connected = true →
    input.delivered <+: history.filter fun id => s.resumePoint < id
  finishes : s.scans input = true → ((s.subscribe input).wallet.scanPool input).Finished

/-- From a resume point only the path that wrote it goes on, and every block a
scan asks for is answered. -/
structure OnePath (s : Tracked) (input : SyncInput) : Prop where
  subscription : input.connected = true → s.resumePoint = 0 ∨ s.source ≠ some .scan
  scan : s.scans input = true →
    input.delivered = [] ∧ (s.resumePoint = 0 ∨ s.source ≠ some .subscription)
  answered : s.scans input = true → ∀ move ∈ input.schedule, move.2.failed = false

/-! ## The wallet below -/

theorem Tracked.wallet_sync_of_scans {s : Tracked} {input : SyncInput}
    (hscans : s.scans input = true) :
    s.wallet.sync input = ((s.subscribe input).scan input).wallet := by
  obtain ⟨hthrows, hscan⟩ := Bool.and_eq_true_iff.mp hscans
  have quiet : ¬input.throws = true := by simpa using hthrows
  unfold UnshieldedWalletState.sync
  exact (if_neg quiet).trans (if_pos hscan)

/-- A sync without a scan reports what the subscription came to, or failure. -/
theorem Tracked.wallet_sync_of_not_scans {s : Tracked} {input : SyncInput}
    (hscans : ¬s.scans input = true) :
    ∃ syncOk, s.wallet.sync input = (s.wallet.subscribe input).report syncOk := by
  unfold UnshieldedWalletState.sync
  by_cases hthrows : input.throws = true
  · exact ⟨false, if_pos hthrows⟩
  · have hscan : ¬(!s.wallet.syncOk input && input.scanEnabled) = true := by
      intro hscan
      exact hscans (Bool.and_eq_true_iff.mpr ⟨by simpa using hthrows, hscan⟩)
    exact ⟨s.wallet.syncOk input, (if_neg hthrows).trans (if_neg hscan)⟩

theorem Tracked.wallet_sync (s : Tracked) (input : SyncInput) :
    (s.sync input).wallet = s.wallet.sync input := by
  unfold Tracked.sync
  by_cases hscans : s.scans input = true
  · rw [if_pos hscans, Tracked.wallet_sync_of_scans hscans]
  · rw [if_neg hscans]

/-- The tracking does not influence the wallet. -/
theorem Tracked.wallet_run (s : Tracked) (inputs : List SyncInput) :
    (run Tracked.sync s inputs).wallet = run UnshieldedWalletState.sync s.wallet inputs := by
  induction inputs generalizing s with
  | nil => rfl
  | cons input inputs ih =>
    change (run Tracked.sync (s.sync input) inputs).wallet = _
    rw [ih, Tracked.wallet_sync]
    rfl

theorem appliedId_deliver (s : UnshieldedWalletState) (delivery : Delivery) :
    (s.deliver delivery).progress.appliedId =
      delivery.transaction?.getD s.progress.appliedId := by
  cases delivery with
  | progress highestTxId => rfl
  | utxo now evt =>
    simp only [UnshieldedWalletState.deliver, UnshieldedWalletState.onUtxo, Delivery.transaction?]
    split <;> rfl

/-- The last transaction delivered is the resume point. -/
theorem appliedId_deliveries (s : UnshieldedWalletState) (deliveries : List Delivery) :
    (deliveries.foldl UnshieldedWalletState.deliver s).progress.appliedId =
      ((deliveries.filterMap Delivery.transaction?).getLast?).getD s.progress.appliedId := by
  induction deliveries using List.reverseRecOn with
  | nil => rfl
  | append_singleton deliveries delivery ih =>
    rw [List.foldl_append, List.foldl_cons, List.foldl_nil, appliedId_deliver, ih,
      List.filterMap_append]
    cases hid : delivery.transaction? with
    | none => simp [hid]
    | some id => simp [hid]

theorem Tracked.resumePoint_subscribe (s : Tracked) (input : SyncInput) :
    (s.subscribe input).resumePoint = (input.delivered.getLast?).getD s.resumePoint := by
  unfold Tracked.resumePoint Tracked.subscribe UnshieldedWalletState.subscribe SyncInput.delivered
  by_cases hconnected : input.connected = true
  · rw [if_pos hconnected, if_pos hconnected]
    exact appliedId_deliveries s.wallet _
  · rw [if_neg hconnected, if_neg hconnected]
    rfl

theorem Tracked.subscribe_unmoved (s : Tracked) {input : SyncInput} (nothing : input.delivered = []) :
    (s.subscribe input).resumePoint = s.resumePoint ∧ (s.subscribe input).source = s.source := by
  constructor
  · rw [Tracked.resumePoint_subscribe, nothing]
    rfl
  · exact if_pos nothing

/-! ## The subscription -/

/-- A resume point that is set, and not by one path, was written by the other. -/
theorem Resumable.written_by {history : List UInt64} {s : Tracked} (hs : Resumable history s)
    {mine other : Source} (hne : mine ≠ other) (hset : 0 < s.resumePoint)
    (hpath : s.resumePoint = 0 ∨ s.source ≠ some other) : s.source = some mine := by
  have nonzero : s.resumePoint ≠ 0 := by
    intro hzero
    rw [hzero] at hset
    exact absurd hset (by decide)
  have hother := hpath.resolve_left nonzero
  cases hsource : s.source with
  | none => exact absurd (hs.unset hsource) nonzero
  | some source =>
    rw [hsource] at hother
    cases source <;> cases mine <;> cases other <;> simp_all

/-- A path that finds its own resume point, or none, takes up nothing of the other. -/
theorem Tracked.reads_own {s : Tracked} {other : Source}
    (hpath : s.resumePoint = 0 ∨ s.source ≠ some other) :
    (s.resumePoint > 0 && s.source == some other) = false := by
  rcases hpath with hzero | hsource
  · simp [hzero]
  · simp [hsource]

theorem subscribe_misread {s : Tracked} {input : SyncInput} (h : s.misread = false)
    (hpath : OnePath s input) : (s.subscribe input).misread = false := by
  cases hconnected : input.connected with
  | false => rw [Tracked.subscribe, h, hconnected, Bool.false_and, Bool.false_and, Bool.or_false]
  | true =>
    rw [Tracked.subscribe, h, hconnected, Bool.true_and, Bool.false_or]
    exact Tracked.reads_own (hpath.subscription hconnected)

/-- What is delivered in order reaches everything up to its last element. -/
theorem mem_of_le_last {all ids : List UInt64} {last id : UInt64}
    (hsorted : all.Pairwise (· < ·)) (hpre : ids <+: all) (hlast : ids.getLast? = some last)
    (hid : id ∈ all) (hle : id ≤ last) : id ∈ ids := by
  obtain ⟨rest, rfl⟩ := hpre
  rcases List.mem_append.mp hid with hin | hrest
  · exact hin
  · have after := (List.pairwise_append.mp hsorted).2.2 last (List.mem_of_getLast? hlast) id hrest
    exact absurd hle (UInt64.not_le.mpr after)

theorem subscribe_nothing {history : List UInt64} {s : Tracked} {input : SyncInput}
    (hs : Resumable history s) (apart : (s.subscribe input).misread = false)
    (nothing : input.delivered = []) : Resumable history (s.subscribe input) := by
  obtain ⟨point, source⟩ := s.subscribe_unmoved nothing
  refine ⟨apart, ?_, ?_, ?_⟩
  · rw [source, point]
    exact hs.unset
  · rw [source, point]
    exact hs.blocks
  · rw [source, point]
    intro hsource id hid hle
    exact List.mem_append_left _ (hs.transactions hsource id hid hle)

/-- What was delivered follows the old resume point and ends at the new one. -/
theorem subscribe_delivered {history : List UInt64} (hsorted : history.Pairwise (· < ·))
    (hpos : ∀ id ∈ history, 0 < id) {s : Tracked} {input : SyncInput} (hs : Resumable history s)
    (apart : (s.subscribe input).misread = false)
    (hpath : s.resumePoint = 0 ∨ s.source ≠ some .scan)
    (hpre : input.delivered <+: history.filter fun id => s.resumePoint < id)
    {last : UInt64} (hlast : input.delivered.getLast? = some last) :
    Resumable history (s.subscribe input) := by
  have something : input.delivered ≠ [] := by
    intro nothing
    rw [nothing] at hlast
    cases hlast
  have source : (s.subscribe input).source = some .subscription := if_neg something
  have point : (s.subscribe input).resumePoint = last := by
    rw [Tracked.resumePoint_subscribe, hlast]
    rfl
  refine ⟨apart, ?_, ?_, ?_⟩
  · rw [source]
    nofun
  · rw [source]
    nofun
  · intro _ id hid hle
    rw [point] at hle
    by_cases hnew : s.resumePoint < id
    · have listed : id ∈ history.filter fun id => s.resumePoint < id :=
        List.mem_filter.mpr ⟨hid, decide_eq_true hnew⟩
      exact List.mem_append_right _ (mem_of_le_last (hsorted.filter _) hpre hlast listed hle)
    · have hold := UInt64.not_lt.mp hnew
      have hset : 0 < s.resumePoint := UInt64.lt_of_lt_of_le (hpos id hid) hold
      have own : s.source = some .subscription := hs.written_by (by decide) hset hpath
      exact List.mem_append_left _ (hs.transactions own id hid hold)

theorem subscribe_resumable {history : List UInt64} (hsorted : history.Pairwise (· < ·))
    (hpos : ∀ id ∈ history, 0 < id) {s : Tracked} {input : SyncInput} (hs : Resumable history s)
    (hserved : Served history s input) (hpath : OnePath s input) :
    Resumable history (s.subscribe input) := by
  have apart := subscribe_misread hs.apart hpath
  cases hlast : input.delivered.getLast? with
  | none => exact subscribe_nothing hs apart (List.getLast?_eq_none_iff.mp hlast)
  | some last =>
    have connected : input.connected = true := by
      by_contra hoff
      rw [SyncInput.delivered, if_neg hoff] at hlast
      cases hlast
    exact subscribe_delivered hsorted hpos hs apart (hpath.subscription connected)
      (hserved.delivers connected) hlast

/-! ## The scan -/

/-- The resume point of a scan is a block it may have read. -/
theorem resumePoint_scan_le {s : Tracked} {input : SyncInput}
    (hdone : ∀ r ∈ (s.wallet.scanPool input).done, r.1 ≤ input.blockHeight.toUInt32) :
    (s.scan input).resumePoint.toNat ≤ input.blockHeight.toUInt32.toNat := by
  have wrote : (s.scan input).resumePoint = (s.wallet.httpScan input.now input.blockHeight.toUInt32
    (allUtxos (s.wallet.scanPool input))).progress.appliedId := rfl
  rw [wrote]
  cases hlast : (allUtxos (s.wallet.scanPool input)).getLast? with
  | none =>
    simp only [UnshieldedWalletState.httpScan, hlast]
    exact Nat.le_of_eq (UInt32.toNat_toUInt64 _)
  | some last =>
    obtain ⟨r, hr, hutxo⟩ := List.mem_flatMap.mp (List.mem_of_getLast? hlast)
    obtain ⟨utxo, -, rfl⟩ := List.mem_map.mp hutxo
    simp only [UnshieldedWalletState.httpScan, hlast]
    exact (Nat.le_of_eq (UInt32.toNat_toUInt64 _)).trans (UInt32.le_iff_toNat_le.mp (hdone r hr))

theorem scan_resumable {history : List UInt64} {s : Tracked} {input : SyncInput}
    (hs : Resumable history s) (hsource : s.resumePoint = 0 ∨ s.source ≠ some .subscription)
    (hfinished : (s.wallet.scanPool input).Finished)
    (hanswered : ∀ move ∈ input.schedule, move.2.failed = false) :
    Resumable history (s.scan input) := by
  obtain ⟨hdone, hall⟩ := Pool.finished_covers (P := fun a : BlockAnswer => a.failed = false)
    hanswered hfinished
  have point := resumePoint_scan_le fun r hr => (hdone r hr).1
  have range := input.blockHeight.toUInt32.toNat_lt
  refine ⟨?_, nofun, fun _ => ⟨by omega, fun block hindexed hblock => ?_⟩, nofun⟩
  · rw [Tracked.scan, hs.apart, Bool.false_or]
    exact Tracked.reads_own hsource
  · have hlast : block ≤ input.blockHeight.toUInt32 :=
      UInt32.le_iff_toNat_le.mpr (Nat.le_trans hblock point)
    by_cases hfirst : s.wallet.fromBlock ≤ block
    · obtain ⟨answer, hanswer⟩ := hall block hfirst hlast
      refine List.mem_append_right _ (List.mem_map.mpr ⟨(block, answer), ?_, rfl⟩)
      exact List.mem_filter.mpr ⟨hanswer, by rw [(hdone _ hanswer).2]; rfl⟩
    · -- blocks below the start of this scan were read by an earlier one
      have below := UInt32.lt_iff_toNat_lt.mp (UInt32.not_le.mp hfirst)
      refine List.mem_append_left _ ?_
      by_cases hset : s.resumePoint > 0
      · have start : s.wallet.fromBlock = s.resumePoint.toUInt32 := if_pos hset
        have own : s.source = some .scan := hs.written_by (by decide) hset hsource
        obtain ⟨hsmall, hblocks⟩ := hs.blocks own
        refine hblocks block hindexed ?_
        rw [start, UInt64.toNat_toUInt32, Nat.mod_eq_of_lt hsmall] at below
        exact Nat.le_of_lt below
      · have start : s.wallet.fromBlock = firstIndexedBlock := if_neg hset
        rw [start] at hfirst
        exact absurd hindexed hfirst

/-! ## Runs -/

theorem sync_resumable {history : List UInt64} (hsorted : history.Pairwise (· < ·))
    (hpos : ∀ id ∈ history, 0 < id) (s : Tracked) (input : SyncInput) (hs : Resumable history s)
    (h : Served history s input ∧ OnePath s input) : Resumable history (s.sync input) := by
  obtain ⟨hserved, hpath⟩ := h
  have subscribed := subscribe_resumable hsorted hpos hs hserved hpath
  unfold Tracked.sync
  by_cases hscans : s.scans input = true
  · obtain ⟨hnothing, hsource⟩ := hpath.scan hscans
    obtain ⟨point, source⟩ := s.subscribe_unmoved hnothing
    rw [if_pos hscans]
    refine scan_resumable subscribed ?_ (hserved.finishes hscans) (hpath.answered hscans)
    rw [point, source]
    exact hsource
  · have point : (s.wallet.sync input).progress.appliedId = (s.subscribe input).resumePoint := by
      obtain ⟨syncOk, reported⟩ := Tracked.wallet_sync_of_not_scans hscans
      rw [reported]
      rfl
    rw [if_neg hscans]
    refine ⟨subscribed.apart, ?_, ?_, ?_⟩
    · intro hsource
      exact point.trans (subscribed.unset hsource)
    · intro hsource
      rw [Tracked.resumePoint, point]
      exact subscribed.blocks hsource
    · intro hsource
      rw [Tracked.resumePoint, point]
      exact subscribed.transactions hsource

/-- **The resume point never skips data** in a run of syncs that stays on one path
and whose blocks are answered, at every state such a run reaches. -/
theorem resumable_run (address : String) (history : List UInt64) (hsorted : history.Pairwise (· < ·))
    (hpos : ∀ id ∈ history, 0 < id) (inputs : List SyncInput)
    (h : EveryStep Tracked.sync (fun s input => Served history s input ∧ OnePath s input)
      { wallet := { address } } inputs) :
    ∀ reached, reached <+: inputs →
      Resumable history (run Tracked.sync { wallet := { address } } reached) :=
  every_state (sync_resumable hsorted hpos) ⟨rfl, fun _ => rfl, nofun, nofun⟩ h

/-- A scan in which the later block is answered first, and a second one that
starts at the block the first one left. -/
theorem resumable_run_scans :
    let leave : List (Fin 16 × BlockAnswer) := (List.finRange 16).map fun i => (i, {})
    let first : SyncInput := {
      scanEnabled := true
      blockHeight := 609179
      schedule := [(5, {}), (3, {}), (3, { utxos := [⟨"a", 0, 7, "NIGHT", false⟩] }),
        (5, { utxos := [⟨"b", 0, 8, "NIGHT", false⟩] })] ++ leave }
    let second : SyncInput := {
      scanEnabled := true
      blockHeight := 609179
      schedule := [(0, {}), (1, {}), (1, {}), (0, {})] ++ leave }
    ∀ reached, reached <+: [first, second] →
      Resumable [3, 8] (run Tracked.sync { wallet := { address := "me" } } reached) := by
  apply resumable_run "me" [3, 8] (by decide) (by simp)
  refine ⟨⟨⟨?_, ?_⟩, ?_, ?_, ?_⟩, ⟨⟨?_, ?_⟩, ?_, ?_, ?_⟩, trivial⟩ <;> decide

/-- The block a scan leaves is sent as a transaction id, and a transaction below
it is never delivered; and a block whose query fails is left behind. -/
theorem resume_skips :
    let leave : List (Fin 16 × BlockAnswer) := (List.finRange 16).map fun i => (i, {})
    let scan : SyncInput := {
      scanEnabled := true
      blockHeight := 609178
      schedule := [(0, {}), (0, {})] ++ leave }
    let subscription : SyncInput := {
      connected := true
      deliveries := [.utxo 0 { transactionId := 700000 }] }
    let failing : SyncInput := {
      scanEnabled := true
      blockHeight := 609178
      schedule := [(0, {}), (0, { failed := true })] ++ leave }
    (EveryStep Tracked.sync (Served [5, 700000]) {} [scan, subscription] ∧
      (run Tracked.sync {} [scan, subscription]).wallet.synced = true ∧
      (run Tracked.sync {} [scan, subscription]).misread = true ∧
      ¬Resumable [5, 700000] (run Tracked.sync {} [scan, subscription])) ∧
    (EveryStep Tracked.sync (Served []) {} [failing] ∧
      (run Tracked.sync {} [failing]).wallet.synced = true ∧
      ¬Resumable [] (run Tracked.sync {} [failing])) := by
  intro leave scan subscription failing
  refine ⟨⟨⟨⟨?_, ?_⟩, ⟨?_, ?_⟩, trivial⟩, ?_, ?_, fun resumable => ?_⟩,
    ⟨⟨⟨?_, ?_⟩, trivial⟩, ?_, fun resumable => ?_⟩⟩
  any_goals decide
  · exact absurd (resumable.transactions (by decide) 5 (by decide) (by decide))
      (by decide)
  · exact absurd ((resumable.blocks (by decide)).2 609178 (by decide) (by decide))
      (by decide)

end MidnightSdk.Wallet
