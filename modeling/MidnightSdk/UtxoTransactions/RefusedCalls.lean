import MidnightSdk.UtxoTransactions.Reservations

/-!
# What a refused call leaves

Inputs are entered one at a time, and a refusal takes none of them back. A refused
call leaves the unexpired reservations as they were exactly when each input in front
of the refusal had its entry already, or has none alive before or after.
-/

namespace MidnightSdk.UtxoTransactions

namespace ReservedUtxos

/-- The reading of the clock at the last check a call makes. -/
def lastCheck (txHash : String) (expiry : UInt64) :
    ReservedUtxos → List (UtxoInput × UInt64) → UInt64 → UInt64
  | _, [], last => last
  | table, (input, now) :: rest, _ =>
    let (reserved, table) := table.isReserved input.outpointKey txHash now
    if reserved then now
    else lastCheck txHash expiry (table.insert input.outpointKey ⟨txHash, expiry⟩) rest now

/-- The reservations that have not expired at a reading. -/
def unexpired (table : ReservedUtxos) (now : UInt64) : ReservedUtxos :=
  fun k => (table k).filter fun reservation => now ≤ reservation.expiry

/-- A refused call leaves the unexpired reservations as it found them. -/
def AllOrNothing (table : ReservedUtxos) (inputs : List (UtxoInput × UInt64)) (txHash : String)
    (ttlMs start : UInt64) : Prop :=
  let now := lastCheck txHash (start + ttlMs) table inputs start
  (table.reserveUtxos inputs txHash ttlMs start).1 = false →
    (table.reserveUtxos inputs txHash ttlMs start).2.unexpired now = table.unexpired now

/-! ## Where a call stops -/

/-- An input is refused by the table or, behind an input with the same key, by the
entry of a call that names no transaction. -/
def Refuses (table : ReservedUtxos) (txHash : String) (expiry : UInt64) (entered : List (List Char))
    (p : UtxoInput × UInt64) : Prop :=
  (p.1.outpointKey ∈ entered ∧ txHash.isEmpty = true ∧ p.2 ≤ expiry) ∨
    (p.1.outpointKey ∉ entered ∧ Blocked table txHash p)

/-- None of the inputs is refused, each behind those in front of it. -/
def Passes (table : ReservedUtxos) (txHash : String) (expiry : UInt64) :
    List (List Char) → List (UtxoInput × UInt64) → Prop
  | _, [] => True
  | entered, p :: rest =>
    ¬Refuses table txHash expiry entered p ∧
      Passes table txHash expiry (entered ++ [p.1.outpointKey]) rest

/-- What was alive under the input's key at a reading is what is alive there once
the input is entered. -/
def Unchanged (table : ReservedUtxos) (txHash : String) (expiry now : UInt64)
    (p : UtxoInput × UInt64) : Prop :=
  table p.1.outpointKey = some ⟨txHash, expiry⟩ ∨
    expiry < now ∧
      ∀ reservation, table p.1.outpointKey = some reservation → reservation.expiry < now

section Call
variable {table : ReservedUtxos} {txHash : String} {expiry : UInt64}

theorem withKeys_append (entered later : List (List Char)) (reservation : Reservation) :
    (table.withKeys entered reservation).withKeys later reservation =
      table.withKeys (entered ++ later) reservation := by
  funext k
  by_cases hlater : k ∈ later
  · simp [withKeys, hlater]
  · by_cases hentered : k ∈ entered <;> simp [withKeys, hlater, hentered]

/-- What a call has entered decides together with the table it found. -/
theorem blocked_withKeys_iff (entered : List (List Char)) (p : UtxoInput × UInt64) :
    Blocked (table.withKeys entered ⟨txHash, expiry⟩) txHash p ↔
      Refuses table txHash expiry entered p := by
  unfold Refuses Blocked withKeys
  by_cases hentered : p.1.outpointKey ∈ entered
  · simp only [hentered, if_true, not_true_eq_false, false_and, or_false, true_and]
    constructor
    · rintro ⟨reservation, hentry, hlive, hother⟩
      obtain rfl := Option.some.inj hentry
      exact ⟨by simpa using hother, hlive⟩
    · rintro ⟨hempty, hlive⟩
      exact ⟨⟨txHash, expiry⟩, rfl, hlive, by simp [hempty]⟩
  · simp only [hentered, if_false, not_false_eq_true, false_and, false_or, true_and]

theorem lastCheck_of_blocked {p : UtxoInput × UInt64} (h : Blocked table txHash p)
    (rest : List (UtxoInput × UInt64)) (last : UInt64) :
    lastCheck txHash expiry table (p :: rest) last = p.2 := by
  rw [lastCheck, isReserved_of_blocked h]
  rfl

theorem lastCheck_of_not_blocked {p : UtxoInput × UInt64} (h : ¬Blocked table txHash p)
    (rest : List (UtxoInput × UInt64)) (last : UInt64) :
    lastCheck txHash expiry table (p :: rest) last =
      lastCheck txHash expiry (table.withKeys [p.1.outpointKey] ⟨txHash, expiry⟩) rest p.2 := by
  obtain ⟨passes, entered⟩ := isReserved_of_not_blocked h ⟨txHash, expiry⟩
  rw [lastCheck]
  dsimp only
  rw [passes, entered, if_neg (by decide)]

/-- A call refused at an input has entered those in front of it, and no more. -/
theorem refused_at {entered : List (List Char)} {front : List (UtxoInput × UInt64)}
    {p : UtxoInput × UInt64} (rest : List (UtxoInput × UInt64)) (last : UInt64)
    (hpasses : Passes table txHash expiry entered front)
    (hrefused : Refuses table txHash expiry (entered ++ front.map (·.1.outpointKey)) p) :
    reserveLoop txHash expiry (table.withKeys entered ⟨txHash, expiry⟩) (front ++ p :: rest) =
      (false, table.withKeys (entered ++ front.map (·.1.outpointKey)) ⟨txHash, expiry⟩) ∧
    lastCheck txHash expiry (table.withKeys entered ⟨txHash, expiry⟩) (front ++ p :: rest) last =
      p.2 := by
  induction front generalizing entered last with
  | nil =>
    rw [List.map_nil, List.append_nil] at hrefused ⊢
    have blocked := (blocked_withKeys_iff entered p).mpr hrefused
    exact ⟨reserveLoop_of_blocked blocked expiry rest, lastCheck_of_blocked blocked rest last⟩
  | cons q front ih =>
    obtain ⟨hfree, hpasses⟩ := hpasses
    have free : ¬Blocked (table.withKeys entered ⟨txHash, expiry⟩) txHash q := fun h =>
      hfree ((blocked_withKeys_iff entered q).mp h)
    have keys : entered ++ (q :: front).map (·.1.outpointKey) =
        (entered ++ [q.1.outpointKey]) ++ front.map (·.1.outpointKey) := by simp
    rw [keys] at hrefused ⊢
    rw [List.cons_append, reserveLoop_of_not_blocked free, lastCheck_of_not_blocked free,
      withKeys_append]
    exact ih q.2 hpasses hrefused

/-- A refused call was refused at some input. -/
theorem refused_somewhere {entered : List (List Char)} {inputs : List (UtxoInput × UInt64)}
    (h : (reserveLoop txHash expiry (table.withKeys entered ⟨txHash, expiry⟩) inputs).1 = false) :
    ∃ front p rest, inputs = front ++ p :: rest ∧ Passes table txHash expiry entered front ∧
      Refuses table txHash expiry (entered ++ front.map (·.1.outpointKey)) p := by
  induction inputs generalizing entered with
  | nil => cases h
  | cons q inputs ih =>
    by_cases hblocked : Blocked (table.withKeys entered ⟨txHash, expiry⟩) txHash q
    · refine ⟨[], q, inputs, rfl, trivial, ?_⟩
      rw [List.map_nil, List.append_nil]
      exact (blocked_withKeys_iff entered q).mp hblocked
    · rw [reserveLoop_of_not_blocked hblocked, withKeys_append] at h
      obtain ⟨front, p, rest, rfl, hpasses, hrefused⟩ := ih h
      refine ⟨q :: front, p, rest, rfl, ⟨?_, hpasses⟩, ?_⟩
      · exact fun h => hblocked ((blocked_withKeys_iff entered q).mpr h)
      · simpa using hrefused

/-- Entering inputs leaves what is alive at a reading exactly when it does so under
the key of each. -/
theorem unexpired_withKeys_iff (now : UInt64) (front : List (UtxoInput × UInt64)) :
    (table.withKeys (front.map (·.1.outpointKey)) ⟨txHash, expiry⟩).unexpired now =
        table.unexpired now ↔
      ∀ q ∈ front, Unchanged table txHash expiry now q := by
  have one (q : UtxoInput × UInt64) (hq : q ∈ front) :
      (table.withKeys (front.map (·.1.outpointKey)) ⟨txHash, expiry⟩).unexpired now
          q.1.outpointKey = table.unexpired now q.1.outpointKey ↔
        Unchanged table txHash expiry now q := by
    have entered : q.1.outpointKey ∈ front.map (·.1.outpointKey) := List.mem_map_of_mem hq
    unfold unexpired withKeys Unchanged
    rw [if_pos entered]
    cases hentry : table q.1.outpointKey with
    | none => by_cases hlive : now ≤ expiry <;> simp [Option.filter, hlive, ← UInt64.not_le]
    | some reservation =>
      by_cases hlive : now ≤ expiry
      · by_cases hold : now ≤ reservation.expiry
        · simp [Option.filter, hlive, hold, ← UInt64.not_le, eq_comm]
        · have other : reservation ≠ ⟨txHash, expiry⟩ := by
            rintro rfl
            exact hold hlive
          simp [Option.filter, hlive, hold, ← UInt64.not_le, other]
      · by_cases hold : now ≤ reservation.expiry
        · have other : reservation ≠ ⟨txHash, expiry⟩ := by
            rintro rfl
            exact hlive hold
          simp [Option.filter, hlive, hold, ← UInt64.not_le, other]
        · simp [Option.filter, hlive, hold, ← UInt64.not_le]
  constructor
  · intro same q hq
    exact (one q hq).mp (congrFun same _)
  · intro unchanged
    funext k
    by_cases hk : k ∈ front.map (·.1.outpointKey)
    · obtain ⟨q, hq, rfl⟩ := List.mem_map.mp hk
      exact (one q hq).mpr (unchanged q hq)
    · rw [unexpired, unexpired, withKeys, if_neg hk]

end Call

/-- **When a refused call changes nothing.** Every input in front of the refused one
had exactly this entry already, or neither its old entry nor the new one is alive at
the refusal. -/
theorem allOrNothing_iff (table : ReservedUtxos) (inputs : List (UtxoInput × UInt64))
    (txHash : String) (ttlMs start : UInt64) :
    table.AllOrNothing inputs txHash ttlMs start ↔
      ∀ front p rest, inputs = front ++ p :: rest →
        Passes table txHash (start + ttlMs) [] front →
        Refuses table txHash (start + ttlMs) (front.map (·.1.outpointKey)) p →
        ∀ q ∈ front, Unchanged table txHash (start + ttlMs) p.2 q := by
  have fresh : table.withKeys [] ⟨txHash, start + ttlMs⟩ = table := by
    funext k
    simp [withKeys]
  have stops (front rest : List (UtxoInput × UInt64)) (p : UtxoInput × UInt64)
      (hpasses : Passes table txHash (start + ttlMs) [] front)
      (hrefused : Refuses table txHash (start + ttlMs) (front.map (·.1.outpointKey)) p) :=
    refused_at rest start hpasses (by rwa [List.nil_append])
  simp only [fresh, List.nil_append] at stops
  unfold AllOrNothing reserveUtxos
  dsimp only
  constructor
  · rintro law front p rest rfl hpasses hrefused
    obtain ⟨hloop, hlast⟩ := stops front rest p hpasses hrefused
    rw [hloop, hlast] at law
    exact (unexpired_withKeys_iff p.2 front).mp (law rfl)
  · intro unchanged hfalse
    obtain ⟨front, p, rest, rfl, hpasses, hrefused⟩ :=
      @refused_somewhere table txHash (start + ttlMs) [] inputs (by rwa [fresh])
    rw [List.nil_append] at hrefused
    obtain ⟨hloop, hlast⟩ := stops front rest p hpasses hrefused
    rw [hloop, hlast]
    exact (unexpired_withKeys_iff p.2 front).mpr (unchanged front p rest rfl hpasses hrefused)

/-- An output that is free is reserved by a call that is refused at the next one. -/
theorem refused_call_reserves :
    let free : UtxoInput := { outpoint := ['a'] }
    let taken : UtxoInput := { outpoint := ['b'] }
    let table : ReservedUtxos := fun k =>
      if k = taken.outpointKey then some ⟨"B", 1000⟩ else none
    (table.reserveUtxos [(free, 5), (taken, 6)] "A" 100 5).1 = false ∧
      (table.reserveUtxos [(free, 5), (taken, 6)] "A" 100 5).2 free.outpointKey =
        some ⟨"A", 105⟩ ∧
      ¬table.AllOrNothing [(free, 5), (taken, 6)] "A" 100 5 := by
  refine ⟨by decide, by decide, ?_⟩
  intro law
  have same := congrFun (law (by decide)) ['a', ':', '0']
  exact absurd same (by decide)

end ReservedUtxos

end MidnightSdk.UtxoTransactions
