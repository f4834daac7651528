import MidnightSdk.Protocols.MqttIdentifiers

/-!
# Waiters at one connection

A registered waiter hears of the PUBACK of its own call and of no other one. With the
identifiers told apart this gives what `publish_qos1` promises, over whole runs.
-/

namespace MidnightSdk.Protocols.Mqtt.Connection

open Runs

variable {κ : Type} [DecidableEq κ] {s t : Connection κ}

variable (s) in
structure Heard : Prop where
  registered : ∀ id c, s.pending_pubacks_.lookup id = some c → (s.calls c).registered? = some id
  holds : s.lost = false → ∀ c id, (s.calls c).registered? = some id →
    s.pending_pubacks_.lookup id = some c
  closed : s.sockOpen = false → s.lost = true
  success : ∀ c, (s.waiters c).success = true → s.processed c = true
  acknowledged : ∀ c, s.acked c = true → s.lost = false → s.WillReturnTrue c
  returned : ∀ c, s.calls c = .returned true → s.processed c = true

/-- One call goes on as far as its waiter is concerned. -/
theorem Heard.phase (h : s.Heard) {c : κ} {p : Phase}
    (hsame : p.registered? = (s.calls c).registered?)
    (hcalls : t.calls = Function.update s.calls c p)
    (hpending : t.pending_pubacks_ = s.pending_pubacks_) (hwaiters : t.waiters = s.waiters)
    (hopen : t.sockOpen = s.sockOpen) (hlost : t.lost = s.lost)
    (hprocessed : t.processed = s.processed) (hacked : t.acked = s.acked)
    (hwill : s.WillReturnTrue c → t.WillReturnTrue c) (hreturned : p ≠ .returned true) :
    t.Heard := by
  have registered : ∀ d, (t.calls d).registered? = (s.calls d).registered? := by
    rw [hcalls]
    exact (Function.forall_update_iff s.calls
      fun d p => p.registered? = (s.calls d).registered?).mpr ⟨hsame, fun _ _ => rfl⟩
  constructor
  · intro id d hlookup
    rw [registered]
    rw [hpending] at hlookup
    exact h.registered id d hlookup
  · intro hup d id hid
    rw [registered] at hid
    rw [hpending]
    exact h.holds (hlost ▸ hup) d id hid
  · rw [hopen, hlost]
    exact h.closed
  · rw [hwaiters, hprocessed]
    exact h.success
  · intro d hack hup
    rw [hacked] at hack
    have before := h.acknowledged d hack (hlost ▸ hup)
    by_cases hd : d = c
    · subst hd
      exact hwill before
    · rw [WillReturnTrue, hcalls, hwaiters, Function.update_of_ne hd]
      exact before
  · rw [hprocessed, hcalls]
    exact (Function.forall_update_iff s.calls
      fun d p => p = .returned true → s.processed d = true).mpr
        ⟨fun hd => absurd hd hreturned, fun d _ => h.returned d⟩

theorem Heard.register (h : s.Heard) (htracked : s.Tracked) (c : κ) :
    (s.step (.register c)).Heard := by
  cases hphase : s.calls c with
  | sent id =>
    simp only [step, hphase]
    constructor
    · intro id' d hlookup
      simp only [setCall] at hlookup ⊢
      by_cases hid : id' = id
      · subst hid
        rw [AList.lookup_insert] at hlookup
        cases hlookup
        rw [Function.update_self]
        rfl
      · rw [AList.lookup_insert_ne hid] at hlookup
        have hd : d ≠ c := by
          rintro rfl
          have hreg := h.registered id' d hlookup
          rw [hphase] at hreg
          cases hreg
        rw [Function.update_of_ne hd]
        exact h.registered id' d hlookup
    · intro hup d id' hid
      simp only [setCall] at hup hid ⊢
      by_cases hd : d = c
      · subst hd
        rw [Function.update_self] at hid
        cases hid
        exact AList.lookup_insert _
      · rw [Function.update_of_ne hd] at hid
        have hne : id' ≠ id := by
          rintro rfl
          exact hd (htracked.same_call (Phase.id?_of_registered? hid) (by rw [hphase]; rfl))
        rw [AList.lookup_insert_ne hne]
        exact h.holds hup d id' hid
    · exact h.closed
    · exact (Function.forall_update_iff s.waiters
        fun d w => w.success = true → s.processed d = true).mpr
          ⟨fun hd => absurd hd Bool.false_ne_true, fun d _ => h.success d⟩
    · intro d hack hup
      have before := h.acknowledged d hack hup
      have hd : d ≠ c := by
        rintro rfl
        simp only [WillReturnTrue, hphase, reduceCtorEq, exists_false, and_false, or_self] at before
      simp only [WillReturnTrue, setCall, Function.update_of_ne hd]
      exact before
    · exact (Function.forall_update_iff s.calls
        fun d p => p = .returned true → s.processed d = true).mpr
          ⟨fun hd => absurd hd (by simp), fun d _ => h.returned d⟩
  | idle | drawn | waiting | woken | returned =>
    simp only [step, hphase]
    exact h

theorem Heard.finish (h : s.Heard) (c : κ) : (s.step (.finish c)).Heard := by
  cases hphase : s.calls c with
  | woken id success =>
    simp only [step, hphase]
    constructor
    · intro id' d hlookup
      simp only [setCall] at hlookup ⊢
      have hid : id' ≠ id := by
        rintro rfl
        rw [AList.lookup_erase] at hlookup
        cases hlookup
      rw [AList.lookup_erase_ne hid] at hlookup
      have hd : d ≠ c := by
        rintro rfl
        have hreg := h.registered id' d hlookup
        rw [hphase] at hreg
        exact hid (Option.some.inj hreg).symm
      rw [Function.update_of_ne hd]
      exact h.registered id' d hlookup
    · intro hup d id' hid
      simp only [setCall] at hup hid ⊢
      have hd : d ≠ c := by
        rintro rfl
        rw [Function.update_self] at hid
        cases hid
      rw [Function.update_of_ne hd] at hid
      have held := h.holds hup d id' hid
      have hne : id' ≠ id := by
        rintro rfl
        have other := h.holds hup c id' (by rw [hphase]; rfl)
        exact hd (Option.some.inj (held.symm.trans other))
      rw [AList.lookup_erase_ne hne]
      exact held
    · exact h.closed
    · exact h.success
    · intro d hack hup
      have before := h.acknowledged d hack hup
      by_cases hd : d = c
      · subst hd
        simp only [WillReturnTrue, hphase, reduceCtorEq, false_or, Phase.woken.injEq, exists_false,
          and_false, or_false, exists_eq_left'] at before
        left
        simp only [setCall, Function.update_self, before, Bool.and_self]
      · simp only [WillReturnTrue, setCall, Function.update_of_ne hd]
        exact before
    · refine (Function.forall_update_iff s.calls
        fun d p => p = .returned true → s.processed d = true).mpr
          ⟨fun hd => ?_, fun d _ => h.returned d⟩
      exact h.success c (Bool.and_eq_true_iff.mp (Phase.returned.inj hd)).2
  | idle | drawn | sent | waiting | returned =>
    simp only [step, hphase]
    exact h

/-- Waiters may hear of PUBACKs that have been processed. -/
theorem Heard.hear (h : s.Heard) (hcalls : t.calls = s.calls)
    (hpending : t.pending_pubacks_ = s.pending_pubacks_) (hopen : t.sockOpen = s.sockOpen)
    (hlost : t.lost = s.lost) (hprocessed : ∀ c, s.processed c = true → t.processed c = true)
    (hwaiters : ∀ c, t.waiters c = s.waiters c ∨ t.waiters c = ⟨true, true⟩ ∧ t.processed c = true)
    (hacked : ∀ c, t.acked c = true → s.lost = false → s.acked c = true ∨ t.WillReturnTrue c) :
    t.Heard := by
  constructor
  · rw [hpending, hcalls]
    exact h.registered
  · rw [hpending, hcalls, hlost]
    exact h.holds
  · rw [hopen, hlost]
    exact h.closed
  · intro c hc
    rcases hwaiters c with hsame | ⟨-, hdone⟩
    · exact hprocessed c (h.success c (hsame ▸ hc))
    · exact hdone
  · intro c hc hup
    rw [hlost] at hup
    rcases hacked c hc hup with hbefore | hnow
    · have before := h.acknowledged c hbefore hup
      rcases hwaiters c with hsame | ⟨hset, -⟩
      · rw [WillReturnTrue, hcalls, hsame]
        exact before
      · rw [WillReturnTrue, hcalls, hset]
        exact before.imp id fun ⟨_, hflags⟩ => ⟨rfl, hflags.imp id fun ⟨_, hwaits⟩ => ⟨rfl, hwaits⟩⟩
    · exact hnow
  · intro c hc
    rw [hcalls] at hc
    exact hprocessed c (h.returned c hc)

/-- The waiter registered under the identifier of a PUBACK is the one of its own call. -/
theorem own_waiter (h : s.Heard) (htracked : s.Tracked) {e : UInt16 × κ} (he : e ∈ s.outstanding)
    {d : κ} (hlookup : s.pending_pubacks_.lookup e.1 = some d) : d = e.2 := by
  have hid := Phase.id?_of_registered? (h.registered e.1 d hlookup)
  refine htracked.apart d e.2 (Or.inl (by rw [hid]; rfl)) (Or.inr ⟨e, he, rfl⟩) ?_
  rw [← htracked.drawn d e.1 hid]
  exact (htracked.published e he).1

theorem Heard.puback (h : s.Heard) (htracked : s.Tracked) {e : UInt16 × κ}
    (hmeets : ∀ id, s.calls e.2 ≠ .sent id) : (s.step (.puback e)).Heard := by
  simp only [step]
  split
  · rename_i hmem
    have out : e ∈ s.outstanding := List.mem_append_right _ hmem
    have waiters (c : κ) : (s.complete e.1).waiters c = s.waiters c ∨
        (s.complete e.1).waiters c = ⟨true, true⟩ ∧ c = e.2 := by
      unfold complete
      split
      · rename_i d hlookup
        by_cases hc : c = d
        · subst hc
          exact Or.inr ⟨Function.update_self .., own_waiter h htracked out hlookup⟩
        · exact Or.inl (Function.update_of_ne hc ..)
      · exact Or.inl rfl
    have heard (id : UInt16) (hup : s.lost = false) (hwaits : s.calls e.2 = .waiting id) :
        (s.complete e.1).waiters e.2 = ⟨true, true⟩ := by
      have same : id = e.1 := by
        rw [htracked.drawn e.2 id (by rw [hwaits]; rfl), (htracked.published e out).1]
      have hlookup := h.holds hup e.2 id (by rw [hwaits]; rfl)
      rw [same] at hlookup
      simp only [complete, hlookup, Function.update_self]
    rw [complete_eq]
    refine h.hear rfl rfl rfl rfl ?_ ?_ ?_
    · intro c hc
      by_cases hce : c = e.2
      · subst hce
        exact Function.update_self ..
      · exact (Function.update_of_ne hce ..).trans hc
    · intro c
      rcases waiters c with same | ⟨set, rfl⟩
      · exact Or.inl same
      · exact Or.inr ⟨set, Function.update_self ..⟩
    · intro c hc hup
      by_cases hce : c = e.2
      · subst hce
        right
        dsimp only at hc
        rw [Function.update_self] at hc
        cases hphase : s.calls e.2 with
        | waiting id =>
          have set := heard id hup hphase
          exact Or.inr ⟨congrArg PendingPuback.success set,
            Or.inr ⟨congrArg PendingPuback.completed set, id, hphase⟩⟩
        | sent id => exact absurd hphase (hmeets id)
        | idle | drawn | woken | returned =>
          rw [hphase] at hc
          cases hc
      · exact Or.inl ((Function.update_of_ne hce ..).symm.trans hc)
  · exact h

theorem not_willReturnTrue {c : κ} (h : (s.calls c).registered? = none)
    (hreturned : s.calls c ≠ .returned true) : ¬ s.WillReturnTrue c := by
  rintro (hc | ⟨-, ⟨id, hc⟩ | ⟨-, id, hc⟩⟩)
  · exact hreturned hc
  · rw [hc] at h
    cases h
  · rw [hc] at h
    cases h

theorem waiting_flags {c : κ} {id : UInt16} (h : s.WillReturnTrue c)
    (hc : s.calls c = .waiting id) :
    (s.waiters c).success = true ∧ (s.waiters c).completed = true := by
  rcases h with hret | ⟨hsuccess, ⟨id', hwoken⟩ | ⟨hcompleted, -⟩⟩
  · rw [hc] at hret
    cases hret
  · rw [hc] at hwoken
    cases hwoken
  · exact ⟨hsuccess, hcompleted⟩

theorem Heard.cleanup (h : s.Heard) : (s.step .cleanup).Heard := by
  simp only [Connection.step]
  split
  · exact h
  · rename_i hopen
    have hlost := h.closed ((Bool.not_eq_true _).mp hopen)
    refine ⟨?_, fun hup => ?_, fun _ => hlost, ?_, fun _ _ hup => ?_, h.returned⟩
    · intro id c hlookup
      cases hlookup
    · rw [show s.lost = false from hup] at hlost
      cases hlost
    · intro c hc
      simp only [failAll] at hc
      split at hc
      · cases hc
      · exact h.success c hc
    · rw [show s.lost = false from hup] at hlost
      cases hlost

/-- Nothing but the place of one call changes. -/
theorem Heard.setCall (h : s.Heard) {c : κ} {p : Phase}
    (hsame : p.registered? = (s.calls c).registered?)
    (hwill : s.WillReturnTrue c → (s.setCall c p).WillReturnTrue c)
    (hreturned : p ≠ .returned true) : (s.setCall c p).Heard :=
  h.phase hsame rfl rfl rfl rfl rfl rfl rfl hwill hreturned

theorem Heard.start (h : s.Heard) (c : κ) : (s.step (.start c)).Heard := by
  simp only [Connection.step]
  split
  · rename_i hidle
    have never := not_willReturnTrue (s := s) (c := c) (by rw [hidle]; rfl) (by simp [hidle])
    exact h.phase (c := c) (p := .drawn _) (by rw [hidle]; rfl) rfl rfl rfl rfl rfl rfl rfl
      (fun hwill => absurd hwill never) (by simp)
  · exact h

theorem Heard.send (h : s.Heard) (c : κ) (ok : Bool) : (s.step (.send c ok)).Heard := by
  cases hphase : s.calls c with
  | drawn id =>
    have never := not_willReturnTrue (s := s) (c := c) (by rw [hphase]; rfl) (by simp [hphase])
    simp only [Connection.step, hphase]
    split
    · exact h.phase (c := c) (p := .sent id) (by rw [hphase]; rfl) rfl rfl rfl rfl rfl rfl rfl
        (fun hwill => absurd hwill never) (by simp)
    · exact h.setCall (by rw [hphase]; rfl) (fun hwill => absurd hwill never) (by simp)
  | idle | sent | waiting | woken | returned =>
    simp only [Connection.step, hphase]
    exact h

theorem Heard.wake (h : s.Heard) (c : κ) : (s.step (.wake c)).Heard := by
  cases hphase : s.calls c with
  | waiting id =>
    simp only [Connection.step, hphase]
    split
    · refine h.setCall (by rw [hphase]; rfl) (fun hwill => ?_) (by simp)
      exact Or.inr ⟨(waiting_flags hwill hphase).1, Or.inl ⟨id, Function.update_self ..⟩⟩
    · exact h
  | idle | drawn | sent | woken | returned =>
    simp only [Connection.step, hphase]
    exact h

theorem Heard.timeout (h : s.Heard) (c : κ) : (s.step (.timeout c)).Heard := by
  cases hphase : s.calls c with
  | waiting id =>
    simp only [Connection.step, hphase]
    refine h.setCall (by rw [hphase]; rfl) (fun hwill => ?_) (by simp)
    obtain ⟨hsuccess, hcompleted⟩ := waiting_flags hwill hphase
    refine Or.inr ⟨hsuccess, Or.inl ⟨id, ?_⟩⟩
    rw [hcompleted]
    exact Function.update_self ..
  | idle | drawn | sent | woken | returned =>
    simp only [Connection.step, hphase]
    exact h

/-- Of a lost connection nothing is said but that its socket may be closed. -/
theorem Heard.lose (h : s.Heard) : (s.step .lose).Heard := by
  refine ⟨h.registered, ?_, fun _ => rfl, h.success, ?_, h.returned⟩
  · intro hup
    cases hup
  · intro _ _ hup
    cases hup

theorem Heard.step (h : s.Heard) (htracked : s.Tracked) {e : Event κ} (hmeets : s.Meets e) :
    (s.step e).Heard := by
  cases e with
  | start c => exact h.start c
  | send c ok => exact h.send c ok
  | register c => exact h.register htracked c
  | wake c => exact h.wake c
  | timeout c => exact h.timeout c
  | finish c => exact h.finish c
  | subscribe =>
    exact h.hear rfl rfl rfl rfl (fun _ hc => hc) (fun _ => Or.inl rfl) (fun _ hc _ => Or.inl hc)
  | answer e =>
    simp only [Connection.step]
    split
    · exact h.hear rfl rfl rfl rfl (fun _ hc => hc) (fun _ => Or.inl rfl) (fun _ hc _ => Or.inl hc)
    · exact h
  | puback e => exact h.puback htracked hmeets
  | pubcomp id =>
    have none : s.complete id = s := by
      rw [complete, show s.pending_pubacks_.lookup id = none from hmeets]
    rw [Connection.step, none]
    exact h
  | lose => exact h.lose
  | closeSocket =>
    simp only [Connection.step]
    split
    · rename_i hlost
      exact ⟨h.registered, h.holds, fun _ => hlost, h.success, h.acknowledged, h.returned⟩
    · exact h
  | cleanup => exact h.cleanup

/-! ## Whole runs -/

theorem tracked_fresh : (fresh : Connection κ).Tracked where
  counter := Or.inl rfl
  drawn _ _ := nofun
  published _ := nofun
  unsent _ _ := rfl
  before _ hu := by
    rcases hu with hcall | ⟨e, he, -⟩
    · cases hcall
    · cases he
  once := List.nodup_nil
  apart c _ hu _ _ := by
    rcases hu with hcall | ⟨e, he, -⟩
    · cases hcall
    · cases he

theorem heard_fresh : (fresh : Connection κ).Heard where
  registered _ _ := nofun
  holds _ _ _ := nofun
  closed := nofun
  success _ := nofun
  acknowledged _ := nofun
  returned _ := nofun

/-- **What is promised holds in every state of a run** whose identifiers are drawn at safe
distances and whose PUBACKs find their waiters registered. -/
theorem kept_of_everyStep {events : List (Event κ)} (h : EveryStep step Meets fresh events) :
    ∀ reached, reached <+: events → (run step fresh reached).Kept := by
  intro reached hp
  obtain ⟨htracked, hheard⟩ : (run step (fresh : Connection κ) reached).Tracked ∧
      (run step fresh reached).Heard :=
    @every_state _ _ _ _ (fun s => s.Tracked ∧ s.Heard)
      (fun s e ⟨htracked, hheard⟩ hmeets => ⟨htracked.step hmeets, hheard.step htracked hmeets⟩) _ _
      ⟨tracked_fresh, heard_fresh⟩ h reached hp
  exact ⟨hheard.acknowledged, hheard.returned, fun c d id => htracked.same_call⟩

/-- Two messages at once, each acknowledged behind its registration. -/
def twoMessages : List (Event Nat) :=
  [.start 0, .start 1, .send 1 true, .send 0 true, .register 1, .register 0, .answer (2, 1),
    .puback (2, 1), .wake 1, .answer (1, 0), .puback (1, 0), .wake 0, .finish 0, .finish 1]

theorem kept_twoMessages : (run step fresh twoMessages).Kept := by
  refine kept_of_everyStep ?_ twoMessages List.prefix_rfl
  have first (c : Nat) (hc : (fresh : Connection Nat).Unsettled c) : False :=
    absurd (tracked_fresh.before c hc) (Nat.not_lt_zero _)
  have second (c : Nat) : ((fresh : Connection Nat).step (.start 0)).drawnAt c = 0 := by
    change Function.update (fun _ => 0) 0 0 c = 0
    rw [Function.update_eq_self]
  have one : ∀ c, ¬ 65535 ∣ 1 - ((fresh : Connection Nat).step (.start 0)).drawnAt c := by
    intro c
    rw [second]
    decide
  exact ⟨fun c hc => (first c hc).elim, fun c _ => one c, trivial, trivial, trivial, trivial, trivial,
    nofun, trivial, trivial, nofun, trivial, trivial, trivial, trivial⟩

/-- The broker is faster than the caller: its PUBACK is there before the waiter. -/
def pubackFirst : List (Event Nat) :=
  [.start 0, .send 0 true, .answer (1, 0), .puback (1, 0), .register 0, .timeout 0, .finish 0]

theorem not_kept_pubackFirst : ¬ (run step fresh pubackFirst).Kept := by
  intro h
  rcases h.acknowledged 0 rfl rfl with hret | ⟨hsuccess, -⟩
  · exact absurd hret (by decide)
  · exact absurd hsuccess (by decide)

end MidnightSdk.Protocols.Mqtt.Connection
