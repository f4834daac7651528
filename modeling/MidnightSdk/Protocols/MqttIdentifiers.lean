import MidnightSdk.Protocols.MqttPublishQos1

/-!
# Identifiers at one connection

Every call has the identifier its draw gives it, a PUBLISH carries it, and calls that
are not settled have different ones as long as identifiers are drawn at safe distances.
-/

namespace MidnightSdk.Protocols.Mqtt.Connection

variable {κ : Type} [DecidableEq κ]

variable (s : Connection κ) in
structure Tracked : Prop where
  counter : CounterAt s.draws s.next_packet_id_
  drawn : ∀ c id, (s.calls c).id? = some id → id = idOf (s.drawnAt c)
  published : ∀ e ∈ s.outstanding, e.1 = idOf (s.drawnAt e.2) ∧ (s.calls e.2).WasSent = true ∧
    s.processed e.2 = false
  unsent : ∀ c, (s.calls c).WasSent = false → s.processed c = false
  before : ∀ c, s.Unsettled c → s.drawnAt c < s.draws
  once : s.outstanding.Nodup
  apart : ∀ c d, s.Unsettled c → s.Unsettled d → idOf (s.drawnAt c) = idOf (s.drawnAt d) → c = d

variable {s t : Connection κ}

/-- Identifiers stay told apart when no call takes one and nothing is published. -/
theorem Tracked.mono (h : s.Tracked) (hcounter : CounterAt t.draws t.next_packet_id_)
    (hdraws : s.draws ≤ t.draws) (hat : t.drawnAt = s.drawnAt)
    (hcalls : ∀ c, (t.calls c).id? = none ∨ (t.calls c).id? = (s.calls c).id?)
    (hsent : ∀ c, (s.calls c).WasSent = true → (t.calls c).WasSent = true)
    (hout : ∀ e ∈ t.outstanding, e ∈ s.outstanding) (honce : t.outstanding.Nodup)
    (hprocessed : ∀ e ∈ t.outstanding, t.processed e.2 = s.processed e.2)
    (hunsent : ∀ c, (t.calls c).WasSent = false → t.processed c = false) : t.Tracked := by
  have unsettled (c : κ) (hc : t.Unsettled c) : s.Unsettled c := by
    rcases hc with hcall | ⟨e, he, rfl⟩
    · rcases hcalls c with hnone | hsame
      · rw [hnone] at hcall
        cases hcall
      · exact Or.inl (hsame ▸ hcall)
    · exact Or.inr ⟨e, hout e he, rfl⟩
  constructor
  · exact hcounter
  · intro c id hid
    rw [hat]
    rcases hcalls c with hnone | hsame
    · rw [hnone] at hid
      cases hid
    · exact h.drawn c id (hsame ▸ hid)
  · intro e he
    obtain ⟨hid, hwas, hnot⟩ := h.published e (hout e he)
    rw [hat, hprocessed e he]
    exact ⟨hid, hsent e.2 hwas, hnot⟩
  · exact hunsent
  · intro c hc
    rw [hat]
    exact Nat.lt_of_lt_of_le (h.before c (unsettled c hc)) hdraws
  · exact honce
  · intro c d hc hd hids
    rw [hat] at hids
    exact h.apart c d (unsettled c hc) (unsettled d hd) hids

/-- One call goes on with its identifier, or ends. -/
theorem Tracked.phase (h : s.Tracked) {c : κ} {p : Phase}
    (hid : p.id? = none ∨ p.id? = (s.calls c).id?) (hsent : p.WasSent = true)
    (hcalls : t.calls = Function.update s.calls c p)
    (hnext : t.next_packet_id_ = s.next_packet_id_) (hdraws : t.draws = s.draws)
    (hat : t.drawnAt = s.drawnAt) (hout : t.outstanding = s.outstanding)
    (hprocessed : t.processed = s.processed) : t.Tracked := by
  have wasSent : ∀ d, (s.calls d).WasSent = true → (t.calls d).WasSent = true := by
    rw [hcalls]
    exact (Function.forall_update_iff s.calls
      fun d p => (s.calls d).WasSent = true → p.WasSent = true).mpr ⟨fun _ => hsent, fun _ _ => id⟩
  apply h.mono
  · rw [hdraws, hnext]
    exact h.counter
  · exact Nat.le_of_eq hdraws.symm
  · exact hat
  · rw [hcalls]
    exact (Function.forall_update_iff s.calls
      fun d p => p.id? = none ∨ p.id? = (s.calls d).id?).mpr ⟨hid, fun _ _ => Or.inr rfl⟩
  · exact wasSent
  · rw [hout]
    exact fun e he => he
  · rw [hout]
    exact h.once
  · intro e _
    rw [hprocessed]
  · intro d hnot
    rw [hprocessed]
    apply h.unsent
    by_contra hwas
    rw [wasSent d (Bool.not_eq_false _ ▸ hwas)] at hnot
    cases hnot

/-- Without a call of its own a step leaves the identifiers alone. -/
theorem Tracked.same (h : s.Tracked) (hcalls : t.calls = s.calls)
    (hnext : t.next_packet_id_ = s.next_packet_id_) (hdraws : t.draws = s.draws)
    (hat : t.drawnAt = s.drawnAt) (hout : ∀ e ∈ t.outstanding, e ∈ s.outstanding)
    (honce : t.outstanding.Nodup)
    (hprocessed : ∀ e ∈ t.outstanding, t.processed e.2 = s.processed e.2)
    (hunsent : ∀ c, (t.calls c).WasSent = false → t.processed c = false) : t.Tracked := by
  refine h.mono ?_ (Nat.le_of_eq hdraws.symm) hat ?_ ?_ hout honce hprocessed hunsent
  · rw [hdraws, hnext]
    exact h.counter
  · intro d
    exact Or.inr (by rw [hcalls])
  · intro d hwas
    rwa [hcalls]

/-- What is outstanding belongs to calls that have sent it. -/
theorem Tracked.not_outstanding (h : s.Tracked) {c : κ} (hunsent : (s.calls c).WasSent = false) :
    ∀ e ∈ s.outstanding, e.2 ≠ c := by
  rintro e he rfl
  have hwas := (h.published e he).2.1
  rw [hunsent] at hwas
  cases hwas

theorem Tracked.start (h : s.Tracked) (c : κ)
    (hmeets : ∀ d, s.Unsettled d → ¬ 65535 ∣ s.draws - s.drawnAt d) :
    (s.step (.start c)).Tracked := by
  by_cases hidle : s.calls c = .idle
  · obtain ⟨hid, hcounter⟩ := counterAt_next h.counter
    have fresh := h.not_outstanding (c := c) (by rw [hidle]; rfl)
    have new (d : κ) (hd : s.Unsettled d) : idOf (s.drawnAt d) ≠ idOf s.draws := by
      have earlier := h.before d hd
      have apart := hmeets d hd
      rw [ne_eq, idOf_inj]
      omega
    rw [step, if_pos hidle, setCall, draw, hid]
    have still (d : κ) (hd : d ≠ c)
        (hu : Unsettled { s with
          next_packet_id_ := (nextPacketId s.next_packet_id_).2
          draws := s.draws + 1
          calls := Function.update s.calls c (.drawn (idOf s.draws))
          drawnAt := Function.update s.drawnAt c s.draws } d) : s.Unsettled d := by
      rcases hu with hcall | hout
      · dsimp only at hcall
        rw [Function.update_of_ne hd] at hcall
        exact Or.inl hcall
      · exact Or.inr hout
    constructor
    · exact hcounter
    · intro d id hdid
      dsimp only at hdid ⊢
      by_cases hd : d = c
      · subst hd
        rw [Function.update_self] at hdid ⊢
        exact (Option.some.inj hdid).symm
      · rw [Function.update_of_ne hd] at hdid ⊢
        exact h.drawn d id hdid
    · intro e he
      dsimp only
      rw [Function.update_of_ne (fresh e he), Function.update_of_ne (fresh e he)]
      exact h.published e he
    · exact (Function.forall_update_iff s.calls
        fun d p => p.WasSent = false → s.processed d = false).mpr
          ⟨fun _ => h.unsent c (by rw [hidle]; rfl), fun d _ => h.unsent d⟩
    · intro d hu
      dsimp only
      by_cases hd : d = c
      · subst hd
        rw [Function.update_self]
        exact Nat.lt_succ_self _
      · rw [Function.update_of_ne hd]
        exact Nat.lt_succ_of_lt (h.before d (still d hd hu))
    · exact h.once
    · intro d d' hu hu' hids
      dsimp only at hids
      by_cases hd : d = c
      · by_cases hd' : d' = c
        · rw [hd, hd']
        · rw [hd, Function.update_self, Function.update_of_ne hd'] at hids
          exact absurd hids.symm (new d' (still d' hd' hu'))
      · by_cases hd' : d' = c
        · rw [hd', Function.update_self, Function.update_of_ne hd] at hids
          exact absurd hids (new d (still d hd hu))
        · rw [Function.update_of_ne hd, Function.update_of_ne hd'] at hids
          exact h.apart d d' (still d hd hu) (still d' hd' hu') hids
  · rw [step, if_neg hidle]
    exact h

theorem Tracked.send (h : s.Tracked) (c : κ) (ok : Bool) : (s.step (.send c ok)).Tracked := by
  cases hphase : s.calls c with
  | drawn id =>
    by_cases hsends : (s.sockOpen && ok) = true
    · have hid : id = idOf (s.drawnAt c) := h.drawn c id (by rw [hphase]; rfl)
      have fresh := h.not_outstanding (c := c) (by rw [hphase]; rfl)
      have split : List.Perm ((s.unanswered ++ [(id, c)]) ++ s.pubacks)
          ((id, c) :: s.outstanding) := by
        rw [List.append_assoc]
        exact List.perm_middle
      have known (d : κ) (hu : Unsettled { s.setCall c (.sent id) with
          unanswered := s.unanswered ++ [(id, c)] } d) : s.Unsettled d := by
        by_cases hd : d = c
        · subst hd
          exact Or.inl (by rw [hphase]; rfl)
        · rcases hu with hcall | ⟨e, he, rfl⟩
          · simp only [setCall, Function.update_of_ne hd] at hcall
            exact Or.inl hcall
          · rcases List.mem_cons.mp (split.mem_iff.mp he) with rfl | he
            · exact absurd rfl hd
            · exact Or.inr ⟨e, he, rfl⟩
      simp only [step, hphase, if_pos hsends]
      constructor
      · exact h.counter
      · exact (Function.forall_update_iff s.calls
          fun d p => ∀ did, p.id? = some did → did = idOf (s.drawnAt d)).mpr
            ⟨fun did hdid => (Option.some.inj hdid).symm.trans hid, fun d _ => h.drawn d⟩
      · intro e he
        rcases List.mem_cons.mp (split.mem_iff.mp he) with rfl | he
        · simp only [setCall, Function.update_self]
          exact ⟨hid, rfl, h.unsent c (by rw [hphase]; rfl)⟩
        · simp only [setCall, Function.update_of_ne (fresh e he)]
          exact h.published e he
      · exact (Function.forall_update_iff s.calls
          fun d p => p.WasSent = false → s.processed d = false).mpr
            ⟨fun _ => h.unsent c (by rw [hphase]; rfl), fun d _ => h.unsent d⟩
      · exact fun d hu => h.before d (known d hu)
      · refine split.nodup_iff.mpr (List.nodup_cons.mpr ⟨?_, h.once⟩)
        exact fun hmem => fresh _ hmem rfl
      · exact fun d d' hu hu' hids => h.apart d d' (known d hu) (known d' hu') hids
    · simp only [step, hphase, if_neg hsends]
      exact h.phase (p := .returned false) (Or.inl rfl) rfl rfl rfl rfl rfl rfl rfl
  | idle | sent | waiting | woken | returned =>
    simp only [step, hphase]
    exact h

theorem Tracked.answer (h : s.Tracked) (e : UInt16 × κ) : (s.step (.answer e)).Tracked := by
  simp only [Connection.step]
  split
  · rename_i hmem
    have same : List.Perm (s.unanswered.erase e ++ (s.pubacks ++ [e])) s.outstanding := by
      rw [← List.append_assoc]
      refine List.perm_append_comm.trans ?_
      exact (List.Perm.append_right s.pubacks (List.perm_cons_erase hmem)).symm
    refine h.same rfl rfl rfl rfl (fun d hd => same.mem_iff.mp hd) (same.nodup_iff.mpr h.once)
      (fun _ _ => rfl) h.unsent
  · exact h

theorem Tracked.puback (h : s.Tracked) (e : UInt16 × κ) : (s.step (.puback e)).Tracked := by
  simp only [Connection.step]
  split
  · rename_i hmem
    rw [complete_eq]
    have all : e ∈ s.outstanding := List.mem_append_right _ hmem
    obtain ⟨hid, hwas, -⟩ := h.published e all
    have split : List.Perm s.outstanding (e :: (s.unanswered ++ s.pubacks.erase e)) :=
      (List.Perm.append_left s.unanswered (List.perm_cons_erase hmem)).trans List.perm_middle
    obtain ⟨hgone, honce⟩ := List.nodup_cons.mp (split.nodup_iff.mp h.once)
    have others : ∀ e' ∈ s.unanswered ++ s.pubacks.erase e, e'.2 ≠ e.2 := by
      intro e' he' hcall
      have hid' := (h.published e' (split.mem_iff.mpr (List.mem_cons_of_mem e he'))).1
      rw [hcall, ← hid] at hid'
      exact hgone (Prod.ext hid' hcall ▸ he')
    refine h.same rfl rfl rfl rfl
      (fun e' he' => split.mem_iff.mpr (List.mem_cons_of_mem e he')) honce ?_ ?_
    · exact fun e' he' => Function.update_of_ne (others e' he') true s.processed
    · intro c hnot
      have hc : c ≠ e.2 := by
        rintro rfl
        rw [hwas] at hnot
        cases hnot
      exact (Function.update_of_ne hc true s.processed).trans (h.unsent c hnot)
  · exact h

theorem Tracked.step (h : s.Tracked) {e : Event κ} (hmeets : s.Meets e) : (s.step e).Tracked := by
  cases e with
  | start c => exact h.start c hmeets
  | send c ok => exact h.send c ok
  | register c =>
    cases hphase : s.calls c with
    | sent id =>
      simp only [Connection.step, hphase]
      exact h.phase (c := c) (p := .waiting id) (Or.inr (by rw [hphase]; rfl)) rfl rfl rfl rfl rfl
        rfl rfl
    | idle | drawn | waiting | woken | returned =>
      simp only [Connection.step, hphase]
      exact h
  | wake c =>
    cases hphase : s.calls c with
    | waiting id =>
      simp only [Connection.step, hphase]
      split
      · exact h.phase (c := c) (p := .woken id true) (Or.inr (by rw [hphase]; rfl)) rfl rfl rfl rfl
          rfl rfl rfl
      · exact h
    | idle | drawn | sent | woken | returned =>
      simp only [Connection.step, hphase]
      exact h
  | timeout c =>
    cases hphase : s.calls c with
    | waiting id =>
      simp only [Connection.step, hphase]
      exact h.phase (c := c) (p := .woken id _) (Or.inr (by rw [hphase]; rfl)) rfl rfl rfl rfl rfl
        rfl rfl
    | idle | drawn | sent | woken | returned =>
      simp only [Connection.step, hphase]
      exact h
  | finish c =>
    cases hphase : s.calls c with
    | woken id success =>
      simp only [Connection.step, hphase]
      exact h.phase (c := c) (p := .returned _) (Or.inl rfl) rfl rfl rfl rfl rfl rfl rfl
    | idle | drawn | sent | waiting | returned =>
      simp only [Connection.step, hphase]
      exact h
  | subscribe =>
    refine h.mono (counterAt_next h.counter).2 (Nat.le_succ s.draws) rfl (fun _ => Or.inr rfl)
      (fun _ hwas => hwas) (fun _ he => he) h.once (fun _ _ => rfl) h.unsent
  | answer e => exact h.answer e
  | puback e => exact h.puback e
  | pubcomp id =>
    simp only [Connection.step]
    rw [complete_eq]
    exact h.same rfl rfl rfl rfl (fun _ he => he) h.once (fun _ _ => rfl) h.unsent
  | lose => exact h.same rfl rfl rfl rfl (fun _ he => he) h.once (fun _ _ => rfl) h.unsent
  | closeSocket =>
    simp only [Connection.step]
    split
    · exact h.same rfl rfl rfl rfl (fun _ he => he) h.once (fun _ _ => rfl) h.unsent
    · exact h
  | cleanup =>
    simp only [Connection.step]
    split
    · exact h
    · exact h.same rfl rfl rfl rfl (fun _ he => absurd he (List.not_mem_nil)) List.nodup_nil
        (fun _ _ => rfl) h.unsent

theorem Tracked.same_call (h : s.Tracked) {c d : κ} {id : UInt16}
    (hc : (s.calls c).id? = some id) (hd : (s.calls d).id? = some id) : c = d := by
  refine h.apart c d (Or.inl (by rw [hc]; rfl)) (Or.inl (by rw [hd]; rfl)) ?_
  rw [← h.drawn c id hc, ← h.drawn d id hd]

end MidnightSdk.Protocols.Mqtt.Connection
