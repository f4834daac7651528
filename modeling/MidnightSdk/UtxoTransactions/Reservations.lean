import Mathlib.Algebra.Order.Group.Nat
import Mathlib.Data.List.Induction
import MidnightSdk.Library.Runs
import MidnightSdk.UtxoTransactions.Outpoints

/-!
# Reservations

A transaction reserves the outputs it is going to spend. The table is keyed by
the spelling of an output, an entry that has expired is dropped when somebody
looks at it, and a refused call keeps what it had written so far.
-/

namespace MidnightSdk.UtxoTransactions

open Runs

structure Reservation where
  txHash : String
  expiry : UInt64
  deriving DecidableEq, Repr

/-- `reserved_utxos_`, from keys to reservations. -/
abbrev ReservedUtxos := List Char → Option Reservation

namespace ReservedUtxos

def insert (table : ReservedUtxos) (key : List Char) (reservation : Reservation) : ReservedUtxos :=
  fun k => if k = key then some reservation else table k

def erase (table : ReservedUtxos) (key : List Char) : ReservedUtxos :=
  fun k => if k = key then none else table k

/-- The answer for one reading of the clock, and the table afterwards. -/
def isReserved (table : ReservedUtxos) (outpoint : List Char) (excludeTxHash : String)
    (now : UInt64) : Bool × ReservedUtxos :=
  match table outpoint with
  | none => (false, table)
  | some reservation =>
    if now > reservation.expiry then (false, table.erase outpoint)
    else if !excludeTxHash.isEmpty && reservation.txHash == excludeTxHash then (false, table)
    else (true, table)

/-- The loop over the inputs, each with the reading of the clock at its check. -/
def reserveLoop (txHash : String) (expiry : UInt64) :
    ReservedUtxos → List (UtxoInput × UInt64) → Bool × ReservedUtxos
  | table, [] => (true, table)
  | table, (input, now) :: rest =>
    let (reserved, table) := table.isReserved input.outpointKey txHash now
    if reserved then (false, table)
    else reserveLoop txHash expiry (table.insert input.outpointKey ⟨txHash, expiry⟩) rest

/-- `start` is the reading the expiry is computed from; the sum wraps. -/
def reserveUtxos (table : ReservedUtxos) (inputs : List (UtxoInput × UInt64)) (txHash : String)
    (ttlMs start : UInt64) : Bool × ReservedUtxos :=
  reserveLoop txHash (start + ttlMs) table inputs

/-- The collected keys are erased one by one, which is erasing them all. -/
def releaseReservedUtxos (table : ReservedUtxos) (txHash : String) : ReservedUtxos :=
  fun k => (table k).filter fun reservation => reservation.txHash ≠ txHash

def cleanupExpiredReservations (table : ReservedUtxos) (now : UInt64) : ReservedUtxos :=
  fun k => (table k).filter fun reservation => ¬now > reservation.expiry

end ReservedUtxos

/-! ## Runs -/

/-- A successful reservation of one output, with the time up to which it is
meant to last. -/
structure Held where
  txHash : String
  input : UtxoInput
  deadline : Nat
  deriving DecidableEq, Repr

/-- The manager between two calls: the table, the last reading of the clock, and
the reservations that were granted and not released since. -/
structure ManagerState where
  reserved : ReservedUtxos := fun _ => none
  clock : UInt64 := 0
  held : List Held := []

inductive ManagerEvent where
  | reserve (inputs : List (UtxoInput × UInt64)) (txHash : String) (ttlMs start : UInt64)
  | release (txHash : String)
  | cleanup (now : UInt64)
  | lookup (outpoint : List Char) (excludeTxHash : String) (now : UInt64)
  | pass (now : UInt64)
  deriving DecidableEq, Repr

/-- The reading a call ends with. -/
def lastReading (start : UInt64) (inputs : List (UtxoInput × UInt64)) : UInt64 :=
  ((inputs.map (·.2)).getLast?).getD start

/-- A granted call replaces what the transaction held under the same keys. -/
def grant (held : List Held) (inputs : List (UtxoInput × UInt64)) (txHash : String)
    (deadline : Nat) : List Held :=
  held.filter (fun h => ¬(h.txHash = txHash ∧
      h.input.outpointKey ∈ inputs.map (·.1.outpointKey))) ++
    inputs.map fun p => ⟨txHash, p.1, deadline⟩

def ManagerState.step (s : ManagerState) : ManagerEvent → ManagerState
  | .reserve inputs txHash ttlMs start =>
    let (granted, reserved) := s.reserved.reserveUtxos inputs txHash ttlMs start
    { reserved
      clock := lastReading start inputs
      held :=
        if granted then grant s.held inputs txHash (start.toNat + ttlMs.toNat) else s.held }
  | .release txHash =>
    { s with
      reserved := s.reserved.releaseReservedUtxos txHash
      held := s.held.filter fun h => h.txHash ≠ txHash }
  | .cleanup now => { s with reserved := s.reserved.cleanupExpiredReservations now, clock := now }
  | .lookup outpoint excludeTxHash now =>
    { s with reserved := (s.reserved.isReserved outpoint excludeTxHash now).2, clock := now }
  | .pass now => { s with clock := now }

/-- The clock is steady: no reading lies before an earlier one. -/
def ManagerState.Steady (s : ManagerState) : ManagerEvent → Prop
  | .reserve inputs _ _ start => (s.clock :: start :: inputs.map (·.2)).Pairwise (· ≤ ·)
  | .release _ => True
  | .cleanup now | .lookup _ _ now | .pass now => s.clock ≤ now

def ManagerState.Unexpired (s : ManagerState) (h : Held) : Prop := s.clock.toNat ≤ h.deadline

/-- No two transactions hold one output, and what is held is in the table for
as long as it was granted. -/
structure Exclusive (s : ManagerState) : Prop where
  single : ∀ a ∈ s.held, ∀ b ∈ s.held, s.Unexpired a → s.Unexpired b →
    a.input.output = b.input.output → a.txHash = b.txHash
  stays : ∀ h ∈ s.held, s.Unexpired h → ∃ expiry,
    s.reserved h.input.outpointKey = some ⟨h.txHash, expiry⟩ ∧ h.deadline ≤ expiry.toNat

/-! ## When reservations are kept -/

/-- The table refuses this input to the transaction. -/
def Blocked (table : ReservedUtxos) (txHash : String) (p : UtxoInput × UInt64) : Prop :=
  ∃ reservation, table p.1.outpointKey = some reservation ∧ p.2 ≤ reservation.expiry ∧
    ¬(txHash.isEmpty = false ∧ reservation.txHash = txHash)

instance (table : ReservedUtxos) (txHash : String) (p : UtxoInput × UInt64) :
    Decidable (Blocked table txHash p) :=
  match h : table p.1.outpointKey with
  | none => isFalse fun ⟨_, hsome, _⟩ => by
    rw [h] at hsome
    cases hsome
  | some reservation =>
    decidable_of_iff (p.2 ≤ reservation.expiry ∧
        ¬(txHash.isEmpty = false ∧ reservation.txHash = txHash)) (by simp [Blocked, h])

/-- A call nothing refuses ends within the clock's range, and its outputs are
spelled like any other transaction's reservation of them; a refused call does
not shorten what its own transaction holds under the inputs it reaches. -/
def Fits (s : ManagerState) : ManagerEvent → Prop
  | .reserve inputs txHash ttlMs start =>
    ((∀ p ∈ inputs, ¬Blocked s.reserved txHash p) →
      start.toNat + ttlMs.toNat < 2 ^ 64 ∧
      ∀ p ∈ inputs, ∀ h ∈ s.held, s.Unexpired h → h.input.output = p.1.output →
        h.txHash ≠ txHash → h.input.outpointKey = p.1.outpointKey) ∧
    ((∃ p ∈ inputs, Blocked s.reserved txHash p) →
      ∀ p ∈ inputs.takeWhile (fun p => ¬Blocked s.reserved txHash p), ∀ h ∈ s.held, s.Unexpired h →
        h.txHash = txHash → h.input.outpointKey = p.1.outpointKey →
        h.deadline ≤ (start + ttlMs).toNat)
  | _ => True

instance (s : ManagerState) (h : Held) : Decidable (s.Unexpired h) :=
  inferInstanceAs (Decidable (_ ≤ _))

instance (s : ManagerState) : (event : ManagerEvent) → Decidable (s.Steady event)
  | .reserve .. => inferInstanceAs (Decidable (List.Pairwise _ _))
  | .release _ => inferInstanceAs (Decidable True)
  | .cleanup _ | .lookup _ _ _ | .pass _ => inferInstanceAs (Decidable (_ ≤ _))

instance (s : ManagerState) : (event : ManagerEvent) → Decidable (Fits s event)
  | .reserve .. => inferInstanceAs (Decidable ((_ → _ ∧ _) ∧ (_ → _)))
  | .release _ | .cleanup _ | .lookup _ _ _ | .pass _ => inferInstanceAs (Decidable True)

/-! ## The loop of a call -/

namespace ReservedUtxos

/-- The table with one reservation under each of the keys. -/
def withKeys (table : ReservedUtxos) (keys : List (List Char)) (reservation : Reservation) :
    ReservedUtxos :=
  fun k => if k ∈ keys then some reservation else table k

theorem isReserved_of_blocked {table : ReservedUtxos} {txHash : String} {p : UtxoInput × UInt64}
    (h : Blocked table txHash p) :
    table.isReserved p.1.outpointKey txHash p.2 = (true, table) := by
  obtain ⟨reservation, hentry, hlive, hother⟩ := h
  have live : ¬p.2 > reservation.expiry := UInt64.not_lt.mpr hlive
  have other : ¬(!txHash.isEmpty && reservation.txHash == txHash) = true := by
    simpa using hother
  rw [isReserved, hentry]
  dsimp only
  rw [if_neg live, if_neg other]

/-- An input that passes is entered whatever was there before. -/
theorem isReserved_of_not_blocked {table : ReservedUtxos} {txHash : String}
    {p : UtxoInput × UInt64} (h : ¬Blocked table txHash p) (reservation : Reservation) :
    (table.isReserved p.1.outpointKey txHash p.2).1 = false ∧
      (table.isReserved p.1.outpointKey txHash p.2).2.insert p.1.outpointKey reservation =
        table.withKeys [p.1.outpointKey] reservation := by
  have entered : table.insert p.1.outpointKey reservation =
      table.withKeys [p.1.outpointKey] reservation := by
    funext k
    simp [insert, withKeys]
  have replaced : (table.erase p.1.outpointKey).insert p.1.outpointKey reservation =
      table.withKeys [p.1.outpointKey] reservation := by
    rw [← entered]
    funext k
    by_cases hk : k = p.1.outpointKey <;> simp [insert, erase, hk]
  unfold isReserved
  cases hentry : table p.1.outpointKey with
  | none => exact ⟨rfl, entered⟩
  | some current =>
    dsimp only
    by_cases hexpired : p.2 > current.expiry
    · rw [if_pos hexpired]
      exact ⟨rfl, replaced⟩
    · have own : (!txHash.isEmpty && current.txHash == txHash) = true := by
        by_contra hown
        exact h ⟨current, hentry, UInt64.not_lt.mp hexpired, by simpa using hown⟩
      rw [if_neg hexpired, if_pos own]
      exact ⟨rfl, entered⟩

theorem reserveLoop_of_blocked {table : ReservedUtxos} {txHash : String} {p : UtxoInput × UInt64}
    (h : Blocked table txHash p) (expiry : UInt64) (rest : List (UtxoInput × UInt64)) :
    reserveLoop txHash expiry table (p :: rest) = (false, table) := by
  rw [reserveLoop, isReserved_of_blocked h]
  rfl

theorem reserveLoop_of_not_blocked {table : ReservedUtxos} {txHash : String}
    {p : UtxoInput × UInt64} (h : ¬Blocked table txHash p) (expiry : UInt64)
    (rest : List (UtxoInput × UInt64)) :
    reserveLoop txHash expiry table (p :: rest) =
      reserveLoop txHash expiry (table.withKeys [p.1.outpointKey] ⟨txHash, expiry⟩) rest := by
  obtain ⟨passes, entered⟩ := isReserved_of_not_blocked h ⟨txHash, expiry⟩
  rw [reserveLoop]
  dsimp only
  rw [passes, entered, if_neg (by decide)]

theorem withKeys_withKeys (table : ReservedUtxos) (key : List Char) (keys : List (List Char))
    (reservation : Reservation) :
    (table.withKeys [key] reservation).withKeys keys reservation =
      table.withKeys (key :: keys) reservation := by
  funext k
  by_cases hkeys : k ∈ keys <;> simp [withKeys, hkeys]

/-- An input later in the call is blocked by the table as it was, or by what an
unnamed transaction entered itself. -/
theorem blocked_withKeys {table : ReservedUtxos} {txHash : String} {expiry : UInt64}
    {first p : UtxoInput × UInt64} (hfirst : ¬Blocked table txHash first) (hlater : first.2 ≤ p.2) :
    (Blocked table txHash p →
      Blocked (table.withKeys [first.1.outpointKey] ⟨txHash, expiry⟩) txHash p) ∧
    (Blocked (table.withKeys [first.1.outpointKey] ⟨txHash, expiry⟩) txHash p →
      txHash.isEmpty = true ∨ Blocked table txHash p) := by
  by_cases hkey : p.1.outpointKey = first.1.outpointKey
  · constructor
    · rintro ⟨reservation, hentry, hlive, hother⟩
      refine absurd ⟨reservation, ?_, UInt64.le_trans hlater hlive, hother⟩ hfirst
      rw [← hkey]
      exact hentry
    · rintro ⟨reservation, hentry, -, hother⟩
      have entered : reservation = ⟨txHash, expiry⟩ := by
        simpa [withKeys, hkey, eq_comm] using hentry
      left
      by_contra hempty
      exact hother ⟨by simpa using hempty, by rw [entered]⟩
  · have same : table.withKeys [first.1.outpointKey] ⟨txHash, expiry⟩ p.1.outpointKey =
        table p.1.outpointKey := by
      simp [withKeys, hkey]
    constructor
    · rintro ⟨reservation, hentry, hrest⟩
      exact ⟨reservation, same.trans hentry, hrest⟩
    · rintro ⟨reservation, hentry, hrest⟩
      exact .inr ⟨reservation, same.symm.trans hentry, hrest⟩

/-- A call enters the inputs it reaches, none of them blocked; it reaches all of
them, or something blocks one. -/
theorem reserveLoop_spec (txHash : String) (expiry : UInt64) :
    ∀ (inputs : List (UtxoInput × UInt64)) (table : ReservedUtxos),
      (inputs.map (·.2)).Pairwise (· ≤ ·) →
      ∃ reached, reached <+: inputs ∧
        (reserveLoop txHash expiry table inputs).2 =
          table.withKeys (reached.map (·.1.outpointKey)) ⟨txHash, expiry⟩ ∧
        (∀ p ∈ reached, ¬Blocked table txHash p) ∧
        ((reserveLoop txHash expiry table inputs).1 = true → reached = inputs) ∧
        ((reserveLoop txHash expiry table inputs).1 = false →
          txHash.isEmpty = true ∨ ∃ p ∈ inputs, Blocked table txHash p)
  | [], table, _ => by
    refine ⟨[], List.prefix_rfl, ?_, by simp, fun _ => rfl, fun h => by cases h⟩
    funext k
    simp [reserveLoop, withKeys]
  | p :: rest, table, steady => by
    rw [List.map_cons, List.pairwise_cons] at steady
    by_cases hblocked : Blocked table txHash p
    · rw [reserveLoop_of_blocked hblocked]
      refine ⟨[], List.nil_prefix, ?_, by simp, nofun, ?_⟩
      · funext k
        simp [withKeys]
      · intro _
        exact .inr ⟨p, List.mem_cons_self .., hblocked⟩
    · obtain ⟨reached, hpre, htable, hfree, hall, hrefused⟩ := reserveLoop_spec txHash expiry rest
        (table.withKeys [p.1.outpointKey] ⟨txHash, expiry⟩) steady.2
      have later (q : UtxoInput × UInt64) (hq : q ∈ rest) : p.2 ≤ q.2 :=
        steady.1 q.2 (List.mem_map_of_mem hq)
      rw [reserveLoop_of_not_blocked hblocked]
      refine ⟨p :: reached, List.cons_prefix_cons.mpr ⟨rfl, hpre⟩, ?_, ?_, ?_, ?_⟩
      · rw [htable, withKeys_withKeys]
        rfl
      · intro q hq
        rcases List.mem_cons.mp hq with rfl | hq
        · exact hblocked
        · intro hblockedq
          exact hfree q hq ((blocked_withKeys hblocked (later q (hpre.subset hq))).1 hblockedq)
      · intro granted
        rw [hall granted]
      · intro refused
        rcases hrefused refused with hempty | ⟨q, hq, hblockedq⟩
        · exact .inl hempty
        · rcases (blocked_withKeys hblocked (later q hq)).2 hblockedq with hempty | hblockedq
          · exact .inl hempty
          · exact .inr ⟨q, List.mem_cons_of_mem p hq, hblockedq⟩

end ReservedUtxos

/-! ## One step -/

theorem le_lastReading {start : UInt64} {inputs : List (UtxoInput × UInt64)}
    (steady : (start :: inputs.map (·.2)).Pairwise (· ≤ ·)) :
    start ≤ lastReading start inputs ∧ ∀ p ∈ inputs, p.2 ≤ lastReading start inputs := by
  induction inputs using List.reverseRecOn with
  | nil => simp [lastReading]
  | append_singleton inputs p ih =>
    have last : lastReading start (inputs ++ [p]) = p.2 := by
      simp [lastReading]
    rw [List.map_append, ← List.cons_append, List.pairwise_append] at steady
    have before (t : UInt64) (ht : t ∈ start :: inputs.map (·.2)) : t ≤ p.2 :=
      steady.2.2 t ht p.2 (by simp)
    rw [last]
    refine ⟨before start (List.mem_cons_self ..), ?_⟩
    intro q hq
    rcases List.mem_append.mp hq with hq | hq
    · exact before q.2 (List.mem_cons_of_mem start (List.mem_map_of_mem hq))
    · rw [List.mem_singleton.mp hq]
      exact UInt64.le_refl p.2

/-- What is held under the key of an input that passes is the transaction's own. -/
theorem own_of_not_blocked {s : ManagerState} (hs : Exclusive s) {now : UInt64}
    (hclock : s.clock ≤ now) {h : Held} (hheld : h ∈ s.held) (hlive : now.toNat ≤ h.deadline)
    {txHash : String} {p : UtxoInput × UInt64} (hfree : ¬Blocked s.reserved txHash p)
    (hread : p.2 ≤ now) (hkey : h.input.outpointKey = p.1.outpointKey) :
    txHash.isEmpty = false ∧ h.txHash = txHash := by
  have unexpired : s.Unexpired h := Nat.le_trans (UInt64.le_iff_toNat_le.mp hclock) hlive
  obtain ⟨expiry, hentry, hdeadline⟩ := hs.stays h hheld unexpired
  by_contra hother
  refine hfree ⟨⟨h.txHash, expiry⟩, hkey ▸ hentry, ?_, hother⟩
  have read : p.2.toNat ≤ h.deadline := Nat.le_trans (UInt64.le_iff_toNat_le.mp hread) hlive
  exact UInt64.le_iff_toNat_le.mpr (Nat.le_trans read hdeadline)

/-- A call nothing refuses. -/
theorem granted_exclusive {s : ManagerState} (hs : Exclusive s) {now expiry : UInt64}
    (hclock : s.clock ≤ now) {inputs : List (UtxoInput × UInt64)} {txHash : String}
    (hread : ∀ p ∈ inputs, p.2 ≤ now) (hfree : ∀ p ∈ inputs, ¬Blocked s.reserved txHash p)
    (hspelling : ∀ p ∈ inputs, ∀ h ∈ s.held, s.Unexpired h → h.input.output = p.1.output →
      h.txHash ≠ txHash → h.input.outpointKey = p.1.outpointKey) :
    Exclusive {
      reserved := s.reserved.withKeys (inputs.map (·.1.outpointKey)) ⟨txHash, expiry⟩
      clock := now
      held := grant s.held inputs txHash expiry.toNat } := by
  have later : s.clock.toNat ≤ now.toNat := UInt64.le_iff_toNat_le.mp hclock
  -- an unexpired reservation of another transaction would have blocked its input
  have own (h : Held) (hheld : h ∈ s.held) (hlive : now.toNat ≤ h.deadline)
      (p : UtxoInput × UInt64) (hp : p ∈ inputs) (houtput : h.input.output = p.1.output) :
      h.txHash = txHash := by
    by_contra hother
    have hkey := hspelling p hp h hheld (Nat.le_trans later hlive) houtput hother
    exact hother (own_of_not_blocked hs hclock hheld hlive (hfree p hp) (hread p hp) hkey).2
  constructor
  · intro a ha b hb hlivea hliveb houtput
    rcases List.mem_append.mp ha with ha | ha
    · rcases List.mem_append.mp hb with hb | hb
      · exact hs.single a (List.mem_of_mem_filter ha) b (List.mem_of_mem_filter hb)
          (Nat.le_trans later hlivea) (Nat.le_trans later hliveb) houtput
      · obtain ⟨p, hp, rfl⟩ := List.mem_map.mp hb
        exact own a (List.mem_of_mem_filter ha) hlivea p hp houtput
    · obtain ⟨p, hp, rfl⟩ := List.mem_map.mp ha
      rcases List.mem_append.mp hb with hb | hb
      · exact (own b (List.mem_of_mem_filter hb) hliveb p hp houtput.symm).symm
      · obtain ⟨q, hq, rfl⟩ := List.mem_map.mp hb
        rfl
  · intro h hh hlive
    rcases List.mem_append.mp hh with hold | hnew
    · obtain ⟨hheld, hkept⟩ := List.mem_filter.mp hold
      by_cases hkey : h.input.outpointKey ∈ inputs.map (·.1.outpointKey)
      · obtain ⟨p, hp, hpkey⟩ := List.mem_map.mp hkey
        have same := own_of_not_blocked hs hclock hheld hlive (hfree p hp) (hread p hp) hpkey.symm
        exact absurd ⟨same.2, hkey⟩ (of_decide_eq_true hkept)
      · obtain ⟨expiry, hentry, hdeadline⟩ := hs.stays h hheld (Nat.le_trans later hlive)
        exact ⟨expiry, (if_neg hkey).trans hentry, hdeadline⟩
    · obtain ⟨p, hp, rfl⟩ := List.mem_map.mp hnew
      exact ⟨expiry, if_pos (List.mem_map_of_mem hp), Nat.le_refl _⟩

/-- A refused call leaves its entries under the inputs it reached. -/
theorem refused_exclusive {s : ManagerState} (hs : Exclusive s) {now expiry : UInt64}
    (hclock : s.clock ≤ now) {reached : List (UtxoInput × UInt64)} {txHash : String}
    (hread : ∀ p ∈ reached, p.2 ≤ now) (hfree : ∀ p ∈ reached, ¬Blocked s.reserved txHash p)
    (hlonger : txHash.isEmpty = false → ∀ p ∈ reached, ∀ h ∈ s.held, s.Unexpired h →
      h.txHash = txHash → h.input.outpointKey = p.1.outpointKey → h.deadline ≤ expiry.toNat) :
    Exclusive {
      reserved := s.reserved.withKeys (reached.map (·.1.outpointKey)) ⟨txHash, expiry⟩
      clock := now
      held := s.held } := by
  have later : s.clock.toNat ≤ now.toNat := UInt64.le_iff_toNat_le.mp hclock
  constructor
  · intro a ha b hb hlivea hliveb houtput
    exact hs.single a ha b hb (Nat.le_trans later hlivea) (Nat.le_trans later hliveb) houtput
  · intro h hheld hlive
    by_cases hkey : h.input.outpointKey ∈ reached.map (·.1.outpointKey)
    · -- the input passed, so the entry is the transaction's own, which is only refused elsewhere
      obtain ⟨p, hp, hpkey⟩ := List.mem_map.mp hkey
      obtain ⟨hnamed, hown⟩ :=
        own_of_not_blocked hs hclock hheld hlive (hfree p hp) (hread p hp) hpkey.symm
      refine ⟨expiry, ?_, ?_⟩
      · rw [hown]
        exact if_pos hkey
      · exact hlonger hnamed p hp h hheld (Nat.le_trans later hlive) hown hpkey.symm
    · obtain ⟨expiry, hentry, hdeadline⟩ := hs.stays h hheld (Nat.le_trans later hlive)
      exact ⟨expiry, (if_neg hkey).trans hentry, hdeadline⟩

theorem reserve_exclusive {s : ManagerState} (hs : Exclusive s)
    {inputs : List (UtxoInput × UInt64)} {txHash : String} {ttlMs start : UInt64}
    (steady : s.Steady (.reserve inputs txHash ttlMs start))
    (fits : Fits s (.reserve inputs txHash ttlMs start)) :
    Exclusive (s.step (.reserve inputs txHash ttlMs start)) := by
  obtain ⟨hclock, hreadings⟩ := List.pairwise_cons.mp steady
  obtain ⟨hstart, hlast⟩ := le_lastReading hreadings
  obtain ⟨reached, hpre, htable, hfree, hall, hrefused⟩ :=
    ReservedUtxos.reserveLoop_spec txHash (start + ttlMs) inputs s.reserved
      (List.pairwise_cons.mp hreadings).2
  have later : s.clock ≤ lastReading start inputs :=
    UInt64.le_trans (hclock start (List.mem_cons_self ..)) hstart
  cases hgranted : (ReservedUtxos.reserveLoop txHash (start + ttlMs) s.reserved inputs).1 with
  | true =>
    obtain rfl := hall hgranted
    obtain ⟨hrange, hspelling⟩ := fits.1 hfree
    have hsum : (start + ttlMs).toNat = start.toNat + ttlMs.toNat := by
      rw [UInt64.toNat_add, Nat.mod_eq_of_lt hrange]
    have after : s.step (.reserve reached txHash ttlMs start) =
        { reserved := s.reserved.withKeys (reached.map (·.1.outpointKey)) ⟨txHash, start + ttlMs⟩
          clock := lastReading start reached
          held := grant s.held reached txHash (start + ttlMs).toNat } := by
      simp only [ManagerState.step, ReservedUtxos.reserveUtxos, hgranted, htable, if_true, hsum]
    rw [after]
    exact granted_exclusive hs later hlast hfree hspelling
  | false =>
    have after : s.step (.reserve inputs txHash ttlMs start) =
        { reserved := s.reserved.withKeys (reached.map (·.1.outpointKey)) ⟨txHash, start + ttlMs⟩
          clock := lastReading start inputs
          held := s.held } := by
      simp [ManagerState.step, ReservedUtxos.reserveUtxos, hgranted, htable]
    rw [after]
    refine refused_exclusive hs later (fun p hp => hlast p (hpre.subset hp)) hfree ?_
    intro hnamed p hp
    have blocked : ∃ p ∈ inputs, Blocked s.reserved txHash p := by
      rcases hrefused hgranted with hempty | hblocked
      · rw [hnamed] at hempty
        cases hempty
      · exact hblocked
    have reachedFree : p ∈ inputs.takeWhile fun p => ¬Blocked s.reserved txHash p := by
      obtain ⟨rest, rfl⟩ := hpre
      rw [List.takeWhile_append_of_pos fun q hq => decide_eq_true (hfree q hq)]
      exact List.mem_append_left _ hp
    exact fits.2 blocked p reachedFree

/-- A call that only looks: it keeps the held reservations, and drops entries
that have expired by the reading it leaves behind. -/
theorem exclusive_of_dropped {s : ManagerState} (hs : Exclusive s) {now : UInt64}
    (hclock : s.clock ≤ now) {table : ReservedUtxos}
    (hkeeps : ∀ key reservation, s.reserved key = some reservation → now ≤ reservation.expiry →
      table key = some reservation) :
    Exclusive { s with reserved := table, clock := now } := by
  have later : s.clock.toNat ≤ now.toNat := UInt64.le_iff_toNat_le.mp hclock
  constructor
  · intro a ha b hb hlivea hliveb houtput
    exact hs.single a ha b hb (Nat.le_trans later hlivea) (Nat.le_trans later hliveb) houtput
  · intro h hheld hlive
    obtain ⟨expiry, hentry, hdeadline⟩ := hs.stays h hheld (Nat.le_trans later hlive)
    refine ⟨expiry, hkeeps _ _ hentry ?_, hdeadline⟩
    exact UInt64.le_iff_toNat_le.mpr (Nat.le_trans hlive hdeadline)

theorem cleanup_keeps {table : ReservedUtxos} {now : UInt64} (key : List Char)
    (reservation : Reservation) (hentry : table key = some reservation)
    (hlive : now ≤ reservation.expiry) :
    table.cleanupExpiredReservations now key = some reservation := by
  rw [ReservedUtxos.cleanupExpiredReservations, hentry]
  exact Option.filter_some_pos (decide_eq_true (UInt64.not_lt.mpr hlive))

theorem lookup_keeps {table : ReservedUtxos} {now : UInt64} (outpoint : List Char)
    (excludeTxHash : String) (key : List Char) (reservation : Reservation)
    (hentry : table key = some reservation) (hlive : now ≤ reservation.expiry) :
    (table.isReserved outpoint excludeTxHash now).2 key = some reservation := by
  unfold ReservedUtxos.isReserved
  cases hfound : table outpoint with
  | none => exact hentry
  | some found =>
    dsimp only
    by_cases hexpired : now > found.expiry
    · rw [if_pos hexpired]
      have other : key ≠ outpoint := by
        rintro rfl
        rw [hentry, Option.some.injEq] at hfound
        rw [hfound] at hlive
        exact UInt64.not_lt.mpr hlive hexpired
      exact (if_neg other).trans hentry
    · rw [if_neg hexpired]
      split <;> exact hentry

theorem release_exclusive {s : ManagerState} (hs : Exclusive s) (txHash : String) :
    Exclusive (s.step (.release txHash)) := by
  constructor
  · intro a ha b hb hlivea hliveb houtput
    exact hs.single a (List.mem_of_mem_filter ha) b (List.mem_of_mem_filter hb) hlivea hliveb houtput
  · intro h hh hlive
    obtain ⟨hheld, hother⟩ := List.mem_filter.mp hh
    obtain ⟨expiry, hentry, hdeadline⟩ := hs.stays h hheld hlive
    refine ⟨expiry, ?_, hdeadline⟩
    change (s.reserved h.input.outpointKey).filter _ = _
    rw [hentry]
    exact Option.filter_some_pos hother

/-- Every step on a steady clock that fits keeps the reservations exclusive. -/
theorem step_exclusive (s : ManagerState) (event : ManagerEvent) (hs : Exclusive s)
    (h : s.Steady event ∧ Fits s event) : Exclusive (s.step event) := by
  obtain ⟨steady, fits⟩ := h
  cases event with
  | reserve inputs txHash ttlMs start => exact reserve_exclusive hs steady fits
  | release txHash => exact release_exclusive hs txHash
  | cleanup now => exact exclusive_of_dropped hs steady cleanup_keeps
  | lookup outpoint excludeTxHash now =>
    exact exclusive_of_dropped hs steady (lookup_keeps outpoint excludeTxHash)
  | pass now => exact exclusive_of_dropped hs steady fun key reservation hentry _ => hentry

/-- **Reservations stay exclusive in every run whose calls fit.** From an empty
table, at every state such a run reaches. -/
theorem reservations_run (clock : UInt64) (events : List ManagerEvent)
    (h : EveryStep ManagerState.step (fun s event => s.Steady event ∧ Fits s event)
      { clock } events) :
    ∀ reached, reached <+: events → Exclusive (run ManagerState.step { clock } reached) :=
  every_state step_exclusive ⟨nofun, nofun⟩ h

/-- One output is reserved, refused to another transaction, released and reserved
again. -/
theorem reservations_run_handover :
    let input : UtxoInput := { outpoint := ['0', 'x', 'a', 'b'] }
    ∀ reached, reached <+: [.reserve [(input, 5)] "A" 1000 5, .reserve [(input, 6)] "B" 1000 6,
      .release "A", .reserve [(input, 8)] "B" 1000 7, .cleanup 9] →
      Exclusive (run ManagerState.step { clock := 5 } reached) := by
  apply reservations_run 5
  exact ⟨by decide, by decide, by decide, by decide, by decide, trivial⟩

/-- The same output with and without its prefix is reserved twice. -/
theorem reservations_twice :
    let calls : List ManagerEvent :=
      [.reserve [({ outpoint := ['0', 'x', 'a', 'b'] }, 5)] "A" 1000 5,
        .reserve [({ outpoint := ['a', 'b'] }, 6)] "B" 1000 6]
    EveryStep ManagerState.step ManagerState.Steady { clock := 5 } calls ∧
      ¬Exclusive (run ManagerState.step { clock := 5 } calls) := by
  refine ⟨⟨by decide, by decide, trivial⟩, ?_⟩
  intro exclusive
  have single := exclusive.single ⟨"A", { outpoint := ['0', 'x', 'a', 'b'] }, 1005⟩ (by decide)
    ⟨"B", { outpoint := ['a', 'b'] }, 1006⟩ (by decide) (by decide) (by decide) (by decide)
  exact absurd single (by decide)

end MidnightSdk.UtxoTransactions
