import Mathlib.Data.List.Forall2
import Mathlib.Data.List.Nodup
import MidnightSdk.Library.Runs
import MidnightSdk.Network.IndexerClient

/-!
# Pending transactions

The service asks the indexer for each transaction that it tracks, one after the other, and
calls back those that listen when a status has changed. Whatever is thrown ends the poll:
by a query, and by a callback, so that those behind it never hear of the change. A
transaction that is added twice is tracked twice.
-/

namespace MidnightSdk.Wallet

open Cpp MidnightSdk.Network Runs

inductive SubmissionEventTag where
  | submitted
  | inBlock
  | finalized
  deriving DecidableEq, Repr

def SubmissionEventTag.rank : SubmissionEventTag → Nat
  | submitted => 0
  | inBlock => 1
  | finalized => 2

/-- Times are the clock's. -/
structure PendingTx where
  txHash : String
  status : SubmissionEventTag := .submitted
  submittedAt : Int
  lastChecked : Int
  blockNumber : UInt64 := 0
  deriving DecidableEq, Repr

/-- The callbacks are known by their numbers, in the order they were registered. -/
structure PendingTransactionsService where
  indexerHttpUrl : String
  callbacks : Nat
  pending : List PendingTx := []
  deriving DecidableEq, Repr

/-- A callback called with a transaction. -/
structure Call where
  callback : Nat
  tx : PendingTx
  deriving DecidableEq, Repr

/-! ## Reading an answer -/

/-- The first transaction of an answer. -/
def firstTransaction (data : Json) : Option Json :=
  match data.find? "transactions" with
  | some (.array (txData :: _)) => some txData
  | _ => none

/-- A height that cannot be read leaves the number as it is. -/
def blockNumberOf (txData : Json) (blockNumber : UInt64) : UInt64 :=
  match member? "block" txData with
  | none => blockNumber
  | some block =>
    match member? "height" block with
    | none => blockNumber
    | some height => (height.getUInt64.toOption).getD blockNumber

/-- The text of the status, if there is one; what is no text is an empty one. -/
def statusOf (txData : Json) : Option String :=
  match member? "transactionResult" txData with
  | none => none
  | some result => (result.find? "status").map fun status => (status.getString.toOption).getD ""

/-- The status that a text stands for, where it is a new one. -/
def newStatus (status : SubmissionEventTag) (text : String) : Option SubmissionEventTag :=
  if text = "Finalized" ∨ text = "finalized" then
    if status ≠ .finalized then some .finalized else none
  else if text = "InBlock" ∨ text = "inblock" ∨ text = "in_block" ∨ text = "confirmed" then
    if status = .submitted then some .inBlock else none
  else none

/-- The transaction as an answer shows it, and whether its status has changed. -/
def readAnswer (ptx : PendingTx) (data : Json) : PendingTx × Bool :=
  match firstTransaction data with
  | none => (ptx, false)
  | some txData =>
    let ptx := { ptx with blockNumber := blockNumberOf txData ptx.blockNumber }
    match (statusOf txData).bind (newStatus ptx.status) with
    | none => (ptx, false)
    | some status => ({ ptx with status }, true)

/-! ## The service -/

/-- What happens to a poll: the clock, whether there is an indexer, what the queries
return or throw one after the other, and which callback throws with what. -/
structure Poll where
  now : Int
  indexer : Throws Unit
  answers : Nat → Throws Json
  throws : Nat → PendingTx → Bool

/-- The callbacks one after the other, and whether one has thrown. -/
def notify (throws : Nat → PendingTx → Bool) (tx : PendingTx) : List Nat → List Call × Bool
  | [] => ([], false)
  | callback :: rest =>
    if throws callback tx then ([⟨callback, tx⟩], true)
    else
      let (calls, threw) := notify throws tx rest
      (⟨callback, tx⟩ :: calls, threw)

/-- The loop over the transactions from the i-th query on: what is left of them, and what
was called. -/
def pollLoop (callbacks : Nat) (poll : Poll) : Nat → List PendingTx → List PendingTx × List Call
  | _, [] => ([], [])
  | i, ptx :: rest =>
    let ptx := { ptx with lastChecked := poll.now }
    match poll.answers i with
    | .error _ => (ptx :: rest, [])
    | .ok data =>
      let (ptx, changed) := readAnswer ptx data
      let (calls, threw) :=
        if changed then notify poll.throws ptx (List.range callbacks) else ([], false)
      if threw then (ptx :: rest, calls)
      else
        let (rest, later) := pollLoop callbacks poll (i + 1) rest
        (ptx :: rest, calls ++ later)

namespace PendingTransactionsService

def addPendingTransaction (service : PendingTransactionsService) (txHash : String) (now : Int) :
    PendingTransactionsService :=
  { service with pending := service.pending ++ [{ txHash, submittedAt := now, lastChecked := now }] }

def clear (service : PendingTransactionsService) (txHash : String) : PendingTransactionsService :=
  { service with pending := service.pending.filter fun ptx => ptx.txHash ≠ txHash }

def getState (service : PendingTransactionsService) (txHash : String) : Option PendingTx :=
  service.pending.find? fun ptx => ptx.txHash = txHash

def pollOnce (service : PendingTransactionsService) (poll : Poll) :
    PendingTransactionsService × List Call :=
  if service.pending.isEmpty then (service, [])
  else if service.indexerHttpUrl = "" then (service, [])
  else
    match poll.indexer with
    | .error _ => (service, [])
    | .ok _ =>
      let (pending, calls) := pollLoop service.callbacks poll 0 service.pending
      ({ service with pending }, calls)

end PendingTransactionsService

inductive PendingOp where
  | add (txHash : String) (now : Int)
  | clear (txHash : String)
  | poll (poll : Poll)

namespace PendingTransactionsService

def perform (service : PendingTransactionsService) : PendingOp → PendingTransactionsService × List Call
  | .add txHash now => (service.addPendingTransaction txHash now, [])
  | .clear txHash => (service.clear txHash, [])
  | .poll poll => service.pollOnce poll

def next (service : PendingTransactionsService) (op : PendingOp) : PendingTransactionsService :=
  (service.perform op).1

end PendingTransactionsService

/-! ## One poll -/

/-- A transaction is what it was, or further. -/
structure Advances (old new : PendingTx) : Prop where
  txHash : new.txHash = old.txHash
  status : old.status.rank ≤ new.status.rank

theorem Advances.refl (ptx : PendingTx) : Advances ptx ptx := ⟨rfl, Nat.le_refl _⟩

theorem rank_newStatus {status new : SubmissionEventTag} {text : String}
    (h : newStatus status text = some new) : status.rank < new.rank := by
  unfold newStatus at h
  split at h
  · split at h
    · rename_i hne
      cases h
      cases status with
      | finalized => exact absurd rfl hne
      | _ => decide
    · cases h
  · split at h
    · split at h
      · rename_i heq
        cases h
        rw [heq]
        decide
      · cases h
    · cases h

theorem readAnswer_spec (ptx : PendingTx) (data : Json) :
    Advances ptx (readAnswer ptx data).1 ∧
      ((readAnswer ptx data).2 = true ↔ ptx.status ≠ (readAnswer ptx data).1.status) := by
  unfold readAnswer
  cases firstTransaction data with
  | none => exact ⟨.refl ptx, by simp⟩
  | some txData =>
    simp only
    cases hnew : (statusOf txData).bind (newStatus ptx.status) with
    | none => exact ⟨⟨rfl, Nat.le_refl _⟩, by simp⟩
    | some new =>
      obtain ⟨text, -, hnew⟩ := Option.bind_eq_some_iff.mp hnew
      have further := rank_newStatus hnew
      refine ⟨⟨rfl, Nat.le_of_lt further⟩, iff_of_true rfl ?_⟩
      intro heq
      exact absurd (congrArg SubmissionEventTag.rank heq) (Nat.ne_of_lt further)

/-- The transactions whose status is another one afterwards, as they are then. -/
def changed (old new : List PendingTx) : List PendingTx :=
  ((old.zip new).filter fun p => p.1.status ≠ p.2.status).map (·.2)

/-- Each callback with each transaction, in order. -/
def allCalls (callbacks : Nat) (txs : List PendingTx) : List Call :=
  txs.flatMap fun tx => (List.range callbacks).map (⟨·, tx⟩)

theorem changed_cons (a b : PendingTx) (old new : List PendingTx) :
    changed (a :: old) (b :: new) =
      if a.status ≠ b.status then b :: changed old new else changed old new := by
  rw [changed, List.zip_cons_cons, List.filter_cons]
  split <;> rename_i h <;> simp only [decide_eq_true_eq] at h
  · rw [if_pos h]
    rfl
  · rw [if_neg h]
    rfl

theorem changed_self (txs : List PendingTx) : changed txs txs = [] := by
  induction txs with
  | nil => rfl
  | cons tx txs ih => rw [changed_cons, if_neg (not_not_intro rfl), ih]

/-- Each callback hears, also where the last one throws. -/
theorem notify_calls {throws : Nat → PendingTx → Bool} {tx : PendingTx} {callbacks : List Nat}
    (h : ∀ callback ∈ callbacks.dropLast, throws callback tx = false) :
    (notify throws tx callbacks).1 = callbacks.map (⟨·, tx⟩) := by
  induction callbacks with
  | nil => rfl
  | cons callback rest ih =>
    rw [notify]
    cases rest with
    | nil => split <;> rfl
    | cons second rest =>
      rw [List.dropLast_cons_cons] at h
      obtain ⟨here, later⟩ := List.forall_mem_cons.mp h
      rw [here, if_neg Bool.false_ne_true]
      exact congrArg (⟨callback, tx⟩ :: ·) (ih later)

theorem pollLoop_advances (callbacks : Nat) (poll : Poll) (i : Nat) (pending : List PendingTx) :
    List.Forall₂ Advances pending (pollLoop callbacks poll i pending).1 := by
  induction pending generalizing i with
  | nil => exact .nil
  | cons ptx rest ih =>
    have same : List.Forall₂ Advances rest rest := List.forall₂_same.mpr fun tx _ => .refl tx
    rw [pollLoop]
    simp only
    split
    · exact .cons ⟨rfl, Nat.le_refl _⟩ same
    · rename_i data _
      obtain ⟨further, -⟩ := readAnswer_spec { ptx with lastChecked := poll.now } data
      generalize readAnswer { ptx with lastChecked := poll.now } data = read at further
      obtain ⟨tx, hasChanged⟩ := read
      have advances : Advances ptx tx := ⟨further.txHash, further.status⟩
      simp only
      generalize (if hasChanged then notify poll.throws tx (List.range callbacks)
        else ([], false)) = heard
      obtain ⟨calls, threw⟩ := heard
      cases threw with
      | true => exact .cons advances same
      | false => exact .cons advances (ih (i + 1))

/-- No callback throws that has another one behind it. -/
def Poll.Returns (poll : Poll) (callbacks : Nat) : Prop :=
  ∀ callback tx, callback + 1 < callbacks → poll.throws callback tx = false

/-- What has changed is called back, once to each, however the poll ends. -/
theorem pollLoop_calls {callbacks : Nat} {poll : Poll} (h : poll.Returns callbacks) (i : Nat)
    (pending : List PendingTx) :
    (pollLoop callbacks poll i pending).2 =
      allCalls callbacks (changed pending (pollLoop callbacks poll i pending).1) := by
  induction pending generalizing i with
  | nil => rfl
  | cons ptx rest ih =>
    rw [pollLoop]
    simp only
    split
    · rw [changed_cons, if_neg (not_not_intro rfl), changed_self]
      rfl
    · rename_i data _
      obtain ⟨-, flag⟩ := readAnswer_spec { ptx with lastChecked := poll.now } data
      generalize readAnswer { ptx with lastChecked := poll.now } data = read at flag
      obtain ⟨tx, hasChanged⟩ := read
      have calls : (notify poll.throws tx (List.range callbacks)).1 =
          (List.range callbacks).map (⟨·, tx⟩) := by
        apply notify_calls
        intro callback hmem
        cases callbacks with
        | zero => cases hmem
        | succ last =>
          rw [List.range_succ, List.dropLast_concat, List.mem_range] at hmem
          exact h callback tx (Nat.succ_lt_succ hmem)
      cases hasChanged with
      | false =>
        have same : ¬ptx.status ≠ tx.status := fun hne => absurd (flag.mpr hne) Bool.false_ne_true
        simp only [Bool.false_eq_true, if_false, List.nil_append]
        rw [changed_cons, if_neg same]
        exact ih (i + 1)
      | true =>
        have differs : ptx.status ≠ tx.status := flag.mp rfl
        simp only [if_true, calls]
        split
        · rw [changed_cons, if_pos differs, changed_self]
          exact (List.append_nil _).symm
        · rw [changed_cons, if_pos differs, ih (i + 1)]
          rfl

/-! ## Statuses only move forward -/

namespace PendingTransactionsService

/-- The statuses of a transaction, one for each time that it is tracked. -/
def statuses (service : PendingTransactionsService) (txHash : String) : List SubmissionEventTag :=
  (service.pending.filter fun ptx => ptx.txHash = txHash).map PendingTx.status

/-- Whatever is tracked of a transaction has the same status later, or a further one. -/
def KeepsForward (txHash : String) (earlier later : PendingTransactionsService) : Prop :=
  ∀ (k : Nat) (status : SubmissionEventTag), (earlier.statuses txHash)[k]? = some status →
    ∃ status' : SubmissionEventTag,
      (later.statuses txHash)[k]? = some status' ∧ status.rank ≤ status'.rank

theorem KeepsForward.refl (txHash : String) (service : PendingTransactionsService) :
    KeepsForward txHash service service := fun _ status h => ⟨status, h, Nat.le_refl _⟩

theorem KeepsForward.trans {txHash : String} {first second third : PendingTransactionsService}
    (h : KeepsForward txHash first second) (h' : KeepsForward txHash second third) :
    KeepsForward txHash first third := by
  intro k status hstatus
  obtain ⟨status', hstatus', before⟩ := h k status hstatus
  obtain ⟨status'', hstatus'', after⟩ := h' k status' hstatus'
  exact ⟨status'', hstatus'', Nat.le_trans before after⟩

theorem keepsForward_of_advances {txHash : String} {old new : PendingTransactionsService}
    (h : List.Forall₂ Advances old.pending new.pending) : KeepsForward txHash old new := by
  unfold KeepsForward statuses
  generalize old.pending = before, new.pending = after at h
  induction h with
  | nil => exact fun k status hstatus => ⟨status, hstatus, Nat.le_refl _⟩
  | @cons a b rest later advances _ ih =>
    rw [List.filter_cons, List.filter_cons, advances.txHash]
    split
    · intro k status hstatus
      cases k with
      | zero =>
        cases hstatus
        exact ⟨b.status, rfl, advances.status⟩
      | succ k => exact ih k status hstatus
    · exact ih

/-- The pending transactions after a poll. -/
theorem pollOnce_advances (service : PendingTransactionsService) (poll : Poll) :
    List.Forall₂ Advances service.pending (service.pollOnce poll).1.pending := by
  have same : List.Forall₂ Advances service.pending service.pending :=
    List.forall₂_same.mpr fun tx _ => .refl tx
  unfold pollOnce
  split
  · exact same
  · split
    · exact same
    · split
      · exact same
      · exact pollLoop_advances service.callbacks poll 0 service.pending

theorem next_keepsForward {txHash : String} (service : PendingTransactionsService)
    {op : PendingOp} (hop : op ≠ .clear txHash) : KeepsForward txHash service (service.next op) := by
  cases op with
  | poll poll => exact keepsForward_of_advances (service.pollOnce_advances poll)
  | add added now =>
    intro k status hstatus
    refine ⟨status, ?_, Nat.le_refl _⟩
    rw [next, perform, addPendingTransaction, statuses, List.filter_append, List.map_append]
    exact List.getElem?_append_left (List.getElem?_eq_some_iff.mp hstatus).1 |>.trans hstatus
  | clear cleared =>
    have other : txHash ≠ cleared := fun heq => hop (heq ▸ rfl)
    have kept : (service.next (.clear cleared)).statuses txHash = service.statuses txHash := by
      simp only [next, perform, clear, statuses, List.filter_filter]
      congr 1
      apply List.filter_congr
      intro ptx _
      by_cases h : ptx.txHash = txHash <;> simp [h, other]
    intro k status hstatus
    exact ⟨status, by rw [kept, hstatus], Nat.le_refl _⟩

/-- As long as it is not cleared. -/
theorem run_keepsForward {txHash : String} (service : PendingTransactionsService)
    {ops : List PendingOp} (hops : ∀ op ∈ ops, op ≠ .clear txHash) :
    KeepsForward txHash service (run next service ops) := by
  induction ops generalizing service with
  | nil => exact .refl txHash service
  | cons op ops ih =>
    obtain ⟨here, later⟩ := List.forall_mem_cons.mp hops
    exact (service.next_keepsForward here).trans (ih (service.next op) later)

/-! ## Each change is called back once -/

/-- What one callback hears of one transaction. -/
def heard (callback : Nat) (txHash : String) (calls : List Call) : List PendingTx :=
  (calls.filter fun c => c.callback = callback ∧ c.tx.txHash = txHash).map (·.tx)

/-- A poll calls each callback once for each transaction whose status it changes, and
nothing else calls any. -/
def CallsChanges (service : PendingTransactionsService) (op : PendingOp) : Prop :=
  (service.perform op).2 =
    match op with
    | .poll _ => allCalls service.callbacks (changed service.pending (service.next op).pending)
    | _ => []

/-- A callback hears of a transaction once where the status has changed that is known of
it, and not otherwise. -/
def CallsOnce (service : PendingTransactionsService) (op : PendingOp) : Prop :=
  (∀ c ∈ (service.perform op).2, c.callback < service.callbacks) ∧
  ∀ callback < service.callbacks, ∀ txHash,
    heard callback txHash (service.perform op).2 =
      match service.getState txHash, (service.next op).getState txHash with
      | some old, some new => if old.status ≠ new.status then [new] else []
      | _, _ => []

/-- No callback throws that has another one behind it. -/
def CallbacksReturn (service : PendingTransactionsService) : PendingOp → Prop
  | .poll poll => poll.Returns service.callbacks
  | _ => True

/-- What is added is not tracked yet. -/
def AddsUntracked (service : PendingTransactionsService) : PendingOp → Prop
  | .add txHash _ => ∀ ptx ∈ service.pending, ptx.txHash ≠ txHash
  | _ => True

theorem callsChanges (service : PendingTransactionsService) {op : PendingOp}
    (h : service.CallbacksReturn op) : service.CallsChanges op := by
  cases op with
  | add txHash now => rfl
  | clear txHash => rfl
  | poll poll =>
    have none : allCalls service.callbacks (changed service.pending service.pending) = [] := by
      rw [changed_self]
      rfl
    simp only [CallsChanges, next, perform, pollOnce]
    split
    · exact none.symm
    · split
      · exact none.symm
      · split
        · exact none.symm
        · exact pollLoop_calls h 0 service.pending

theorem heard_append (callback : Nat) (txHash : String) (calls later : List Call) :
    heard callback txHash (calls ++ later) =
      heard callback txHash calls ++ heard callback txHash later := by
  rw [heard, List.filter_append, List.map_append]
  rfl

theorem heard_allCalls {callback callbacks : Nat} (h : callback < callbacks) (txHash : String)
    (txs : List PendingTx) :
    heard callback txHash (allCalls callbacks txs) = txs.filter fun tx => tx.txHash = txHash := by
  have single (tx : PendingTx) : heard callback txHash ((List.range callbacks).map (⟨·, tx⟩)) =
      if tx.txHash = txHash then [tx] else [] := by
    have once : (List.range callbacks).filter (· == callback) = [callback] := by
      rw [List.filter_beq, List.count_eq_one_of_mem List.nodup_range (List.mem_range.mpr h)]
      rfl
    rw [heard, List.filter_map, List.map_map]
    split
    · rename_i same
      have test : (fun c : Call => decide (c.callback = callback ∧ c.tx.txHash = txHash)) ∘
          (⟨·, tx⟩) = (· == callback) := by
        funext i
        simp [same, Bool.beq_eq_decide_eq]
      rw [test, once]
      rfl
    · rename_i other
      have test : (fun c : Call => decide (c.callback = callback ∧ c.tx.txHash = txHash)) ∘
          (⟨·, tx⟩) = fun _ => false := by
        funext i
        simp [other]
      rw [test, List.filter_false]
      rfl
  induction txs with
  | nil => rfl
  | cons tx txs ih =>
    rw [allCalls, List.flatMap_cons, heard_append, single, List.filter_cons]
    change _ ++ heard callback txHash (allCalls callbacks txs) = _
    rw [ih]
    by_cases same : tx.txHash = txHash <;> simp [same]

/-- With each transaction tracked once, it is known by its hash. -/
theorem heard_changed {old new : List PendingTx} (h : List.Forall₂ Advances old new)
    (distinct : (old.map PendingTx.txHash).Nodup) (txHash : String) :
    (changed old new).filter (fun tx => tx.txHash = txHash) =
      match old.find? (fun tx => tx.txHash = txHash), new.find? (fun tx => tx.txHash = txHash) with
      | some before, some after => if before.status ≠ after.status then [after] else []
      | _, _ => [] := by
  induction h with
  | nil => rfl
  | @cons a b rest later advances _ ih =>
    obtain ⟨fresh, distinct⟩ := List.nodup_cons.mp distinct
    rw [changed_cons, List.find?_cons, List.find?_cons, advances.txHash]
    by_cases same : a.txHash = txHash
    · have none : rest.find? (fun tx => tx.txHash = txHash) = none := by
        rw [List.find?_eq_none]
        intro tx hmem
        simp only [decide_eq_true_eq]
        rintro rfl
        exact fresh (same ▸ List.mem_map_of_mem hmem)
      have others := ih distinct
      rw [none] at others
      simp only [same, decide_true]
      split
      · rw [List.filter_cons_of_pos (by simp [advances.txHash, same]), others]
      · exact others
    · simp only [same, decide_false]
      split
      · rw [List.filter_cons_of_neg (by simp [advances.txHash, same])]
        exact ih distinct
      · exact ih distinct

/-- Each transaction is tracked once. -/
def Distinct (service : PendingTransactionsService) : Prop :=
  (service.pending.map PendingTx.txHash).Nodup

theorem next_distinct {service : PendingTransactionsService} {op : PendingOp}
    (h : service.Distinct) (adds : service.AddsUntracked op) : (service.next op).Distinct := by
  cases op with
  | add txHash now =>
    simp only [Distinct, next, perform, addPendingTransaction, List.map_append, List.map_cons,
      List.map_nil]
    refine List.nodup_append.mpr ⟨h, List.nodup_singleton _, ?_⟩
    intro other hmem added hadded
    obtain ⟨ptx, hptx, rfl⟩ := List.mem_map.mp hmem
    rw [List.mem_singleton.mp hadded]
    exact adds ptx hptx
  | clear txHash => exact h.sublist (List.filter_sublist.map _)
  | poll poll =>
    have same : (service.next (.poll poll)).pending.map PendingTx.txHash =
        service.pending.map PendingTx.txHash := by
      have advances := service.pollOnce_advances poll
      change (service.pollOnce poll).1.pending.map _ = _
      generalize service.pending = before, (service.pollOnce poll).1.pending = after at advances
      induction advances with
      | nil => rfl
      | cons head _ ih => rw [List.map_cons, List.map_cons, head.txHash, ih]
    rw [Distinct, same]
    exact h

theorem getState_add {service : PendingTransactionsService} {txHash : String} {tx : PendingTx}
    (h : service.getState txHash = some tx) (added : String) (now : Int) :
    (service.addPendingTransaction added now).getState txHash = some tx := by
  rw [getState, addPendingTransaction, List.find?_append]
  change (service.getState txHash).or _ = _
  rw [h]
  rfl

theorem getState_clear (service : PendingTransactionsService) (cleared txHash : String) :
    (service.clear cleared).getState txHash =
      if txHash = cleared then none else service.getState txHash := by
  rw [getState, clear, List.find?_filter]
  split
  · rename_i same
    rw [List.find?_eq_none]
    intro tx _
    simp [same]
  · rename_i other
    rw [getState]
    congr 1
    funext tx
    by_cases h : tx.txHash = txHash <;> simp [h, other]

theorem callsOnce {service : PendingTransactionsService} {op : PendingOp}
    (distinct : service.Distinct) (returns : service.CallbacksReturn op) :
    service.CallsOnce op := by
  have calls := service.callsChanges returns
  cases op with
  | add txHash now =>
    refine ⟨nofun, fun callback _ other => ?_⟩
    change [] = _
    cases before : service.getState other with
    | none => rfl
    | some old =>
      rw [next, perform, getState_add before]
      simp
  | clear txHash =>
    refine ⟨nofun, fun callback _ other => ?_⟩
    change [] = _
    rw [next, perform, getState_clear]
    cases service.getState other with
    | none => rfl
    | some old =>
      by_cases same : other = txHash
      · rw [if_pos same]
      · simp [if_neg same]
  | poll poll =>
    rw [CallsChanges] at calls
    rw [CallsOnce, calls]
    refine ⟨?_, fun callback hlt txHash => ?_⟩
    · intro c hc
      obtain ⟨tx, -, hc⟩ := List.mem_flatMap.mp hc
      obtain ⟨i, hi, rfl⟩ := List.mem_map.mp hc
      exact List.mem_range.mp hi
    · rw [heard_allCalls hlt]
      exact heard_changed (service.pollOnce_advances poll) distinct txHash

/-! ## Runs -/

def create (indexerHttpUrl : String) (callbacks : Nat) : PendingTransactionsService where
  indexerHttpUrl := indexerHttpUrl
  callbacks := callbacks

/-- **Over a run of the service.** As long as a transaction is not cleared its statuses only
move forward. Where no callback throws that has another one behind it, each poll calls each
callback once for each entry that it changes; and where nothing is added that is tracked
already, once for each change of what is known of a transaction. -/
theorem pendingTransactions_right (indexerHttpUrl : String) (callbacks : Nat)
    (ops : List PendingOp) :
    (∀ txHash reached later, reached ++ later <+: ops → (∀ op ∈ later, op ≠ .clear txHash) →
      KeepsForward txHash (run next (create indexerHttpUrl callbacks) reached)
        (run next (create indexerHttpUrl callbacks) (reached ++ later))) ∧
    (EveryStep next CallbacksReturn (create indexerHttpUrl callbacks) ops →
      EveryStep next CallsChanges (create indexerHttpUrl callbacks) ops) ∧
    (EveryStep next (fun service op => service.CallbacksReturn op ∧ service.AddsUntracked op)
        (create indexerHttpUrl callbacks) ops →
      EveryStep next CallsOnce (create indexerHttpUrl callbacks) ops) := by
  refine ⟨?_, ?_, ?_⟩
  · intro txHash reached later _ hlater
    rw [run, run, List.foldl_append]
    exact run_keepsForward _ hlater
  · exact everyStep_of (fun service _ (_ : True) returns => service.callsChanges returns)
      (fun _ _ _ _ => trivial) trivial
  · have start : (create indexerHttpUrl callbacks).Distinct := List.nodup_nil
    intro h
    exact everyStep_of (fun service _ (distinct : service.Distinct) meets => callsOnce distinct meets.1)
      (fun service _ distinct meets => next_distinct distinct meets.2) start h

/-! ## Changes that are not heard once -/

/-- An indexer that has every transaction in a block. -/
def inBlockPoll (throws : Nat → PendingTx → Bool) : Poll where
  now := 1
  indexer := .ok ()
  answers _ := .ok (.object [("transactions", .array [.object [("transactionResult",
    .object [("status", .string "InBlock")])]])])
  throws := throws

/-- Behind a callback that throws nothing is heard of a change, and of a transaction that
was added twice the change is heard twice. -/
theorem not_callsOnce_samples :
    ¬EveryStep next CallsOnce (create "http://indexer" 2)
      [.add "0xaa" 0, .poll (inBlockPoll fun callback _ => callback = 0)] ∧
    ¬EveryStep next CallsOnce (create "http://indexer" 1)
      [.add "0xaa" 0, .add "0xaa" 0, .poll (inBlockPoll fun _ _ => false)] := by
  constructor
  · rintro ⟨-, ⟨-, once⟩, -⟩
    exact absurd (once 1 (by decide) "0xaa") (by decide)
  · rintro ⟨-, -, ⟨-, once⟩, -⟩
    exact absurd (once 0 (by decide) "0xaa") (by decide)

end PendingTransactionsService

end MidnightSdk.Wallet
