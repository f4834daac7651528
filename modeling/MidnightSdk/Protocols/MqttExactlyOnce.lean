import MidnightSdk.Library.Runs
import MidnightSdk.Protocols.MqttQos2

/-!
# Exactly once

The replies the broker will hear, under way or still to come, stand in an order that
tells it when a message has been handled; so a message is never handed over too
seldom, and too often only by a second PUBLISH of it.
-/

namespace MidnightSdk.Protocols.Mqtt.Exchange

open Runs

variable {μ : Type} [DecidableEq μ]

/-! ## What the broker will hear -/

/-- The replies to a packet. -/
def repliesTo : Inbound μ → List Reply
  | .publish .AT_LEAST_ONCE id _ _ => [.puback id]
  | .publish .EXACTLY_ONCE id _ _ => [.pubrec id]
  | .publish _ _ _ _ => []
  | .pubrec id => [.pubrel id]
  | .pubrel id => [.pubcomp id]
  | .pubcomp _ => []

omit [DecidableEq μ] in
theorem handlePacket_replies (r : Receiver μ) (p : Inbound μ) :
    (r.handlePacket p).2 = repliesTo p := by
  cases p with
  | publish qos id dup m => cases qos <;> rfl
  | pubrec | pubrel | pubcomp => rfl

omit [DecidableEq μ] in
theorem publish_of_pubrec {p : Inbound μ} {id : UInt16} (h : .pubrec id ∈ repliesTo p) :
    ∃ dup m, p = .publish .EXACTLY_ONCE id dup m := by
  cases p with
  | publish qos id' dup m =>
    cases qos with
    | EXACTLY_ONCE =>
      cases List.mem_singleton.mp h
      exact ⟨dup, m, rfl⟩
    | AT_LEAST_ONCE => cases List.mem_singleton.mp h
    | AT_MOST_ONCE | reserved => cases h
  | pubrec id' => cases List.mem_singleton.mp h
  | pubrel id' => cases List.mem_singleton.mp h
  | pubcomp id' => cases h

/-- The replies under way and those the packets under way will bring. -/
def pipeline (s : Exchange μ) : List Reply := s.toBroker ++ s.toClient.flatMap repliesTo

omit [DecidableEq μ] in
theorem pipeline_send (s : Exchange μ) (p : Inbound μ) :
    (s.send p).pipeline = s.pipeline ++ repliesTo p := by
  simp only [pipeline, send, List.flatMap_append, List.flatMap_singleton, List.append_assoc]

/-- No PUBCOMP of the identifier behind a PUBREC of it. -/
def RecsLast (id : UInt16) (rs : List Reply) : Prop :=
  rs.Pairwise fun a b => a = .pubrec id → b ≠ .pubcomp id

/-- No PUBREC of the identifier behind a PUBCOMP of it. -/
def CompsLast (id : UInt16) (rs : List Reply) : Prop :=
  rs.Pairwise fun a b => a = .pubcomp id → b ≠ .pubrec id

/-- What is under way with an identifier, by where the broker stands with it. A PUBREC that
has been sent says that the message was handled. -/
def SlotRight (s : Exchange μ) (id : UInt16) : Slot μ → Prop
  | .free => .pubrec id ∉ s.pipeline
  | .awaitsPubrec m =>
    RecsLast id s.pipeline ∧ (.pubrec id ∈ s.toBroker → 0 < s.timesHandled m) ∧
      ∀ dup m', .publish .EXACTLY_ONCE id dup m' ∈ s.toClient → m' = m
  | .awaitsPubcomp m => CompsLast id s.pipeline ∧ 0 < s.timesHandled m

structure Sound (s : Exchange μ) : Prop where
  replies : ∀ e ∈ s.log, e.2 = repliesTo e.1
  counted : ∀ m, s.receiver.delivered.count (.EXACTLY_ONCE, m) = s.timesHandled m
  slots : ∀ id, s.SlotRight id (s.slots id)
  begun : ∀ m ∈ s.begun, s.Awaited m ∨ 0 < s.timesHandled m

variable {s t : Exchange μ} {id : UInt16} {slot : Slot μ}

theorem SlotRight.weaken (h : s.SlotRight id slot) (hpipe : t.pipeline.Sublist s.pipeline)
    (hback : ∀ m, slot = .awaitsPubrec m → .pubrec id ∈ t.toBroker →
      .pubrec id ∈ s.toBroker ∨ 0 < t.timesHandled m)
    (hclient : ∀ p ∈ t.toClient, p ∈ s.toClient)
    (hlog : ∀ m, s.timesHandled m ≤ t.timesHandled m) : t.SlotRight id slot := by
  cases slot with
  | free => exact fun hmem => h (hpipe.subset hmem)
  | awaitsPubrec m =>
    obtain ⟨hlast, hsent, hone⟩ := h
    refine ⟨hlast.sublist hpipe, ?_, fun dup m' hmem => hone dup m' (hclient _ hmem)⟩
    intro hmem
    rcases hback m rfl hmem with hbefore | hnow
    · exact Nat.lt_of_lt_of_le (hsent hbefore) (hlog m)
    · exact hnow
  | awaitsPubcomp m => exact ⟨h.1.sublist hpipe, Nat.lt_of_lt_of_le h.2 (hlog m)⟩

theorem recsLast_append {rs more : List Reply} (h : RecsLast id rs) (hmore : .pubcomp id ∉ more) :
    RecsLast id (rs ++ more) := by
  have never {a b : Reply} (hb : b ∈ more) : a = .pubrec id → b ≠ .pubcomp id :=
    fun _ heq => hmore (heq ▸ hb)
  refine List.pairwise_append.mpr ⟨h, ?_, fun a _ b hb => never hb⟩
  exact List.pairwise_of_forall_mem_list fun a _ b hb => never hb

theorem compsLast_append {rs more : List Reply} (h : CompsLast id rs) (hmore : .pubrec id ∉ more) :
    CompsLast id (rs ++ more) := by
  have never {a b : Reply} (hb : b ∈ more) : a = .pubcomp id → b ≠ .pubrec id :=
    fun _ heq => hmore (heq ▸ hb)
  refine List.pairwise_append.mpr ⟨h, ?_, fun a _ b hb => never hb⟩
  exact List.pairwise_of_forall_mem_list fun a _ b hb => never hb

/-- A packet fits where the broker stands with an identifier. -/
def FitsSlot (id : UInt16) (p : Inbound μ) : Slot μ → Prop
  | .free => .pubrec id ∉ repliesTo p
  | .awaitsPubrec m =>
    .pubcomp id ∉ repliesTo p ∧ ∀ dup m', p = .publish .EXACTLY_ONCE id dup m' → m' = m
  | .awaitsPubcomp _ => .pubrec id ∉ repliesTo p

theorem SlotRight.send (h : s.SlotRight id slot) {p : Inbound μ} (hp : FitsSlot id p slot) :
    (s.send p).SlotRight id slot := by
  cases slot with
  | free =>
    rw [SlotRight, pipeline_send, List.mem_append]
    exact not_or.mpr ⟨h, hp⟩
  | awaitsPubrec m =>
    obtain ⟨hlast, hsent, hone⟩ := h
    refine ⟨?_, hsent, ?_⟩
    · rw [pipeline_send]
      exact recsLast_append hlast hp.1
    · intro dup m' hmem
      rcases List.mem_append.mp hmem with hbefore | hnow
      · exact hone dup m' hbefore
      · exact hp.2 dup m' (List.mem_singleton.mp hnow).symm
  | awaitsPubcomp m =>
    refine ⟨?_, h.2⟩
    rw [pipeline_send]
    exact compsLast_append h.1 hp

/-- A free identifier can be taken for any message. -/
theorem SlotRight.start (h : s.SlotRight id .free) (m : μ) : s.SlotRight id (.awaitsPubrec m) := by
  have free : .pubrec id ∉ s.pipeline := h
  refine ⟨?_, fun hmem => absurd (List.mem_append_left _ hmem) free, ?_⟩
  · exact List.pairwise_of_forall_mem_list fun a ha b _ heq => absurd (heq ▸ ha) free
  · intro dup m' hmem
    refine absurd (List.mem_append_right _ (List.mem_flatMap.mpr ⟨_, hmem, ?_⟩)) free
    exact List.mem_singleton_self _

omit [DecidableEq μ] in
/-- A packet without a reply that counts fits everywhere. -/
theorem fitsSlot_of_not_mem {p : Inbound μ} (hrec : .pubrec id ∉ repliesTo p)
    (hcomp : .pubcomp id ∉ repliesTo p) (slot : Slot μ) : FitsSlot id p slot := by
  cases slot with
  | free => exact hrec
  | awaitsPubrec m =>
    refine ⟨hcomp, fun dup m' heq => ?_⟩
    subst heq
    exact absurd (List.mem_singleton_self _) hrec
  | awaitsPubcomp m => exact hrec

omit [DecidableEq μ] in
/-- A packet under one identifier fits all others. -/
theorem fitsSlot_other {id' : UInt16} (hne : id ≠ id') {p : Inbound μ}
    (hp : repliesTo p = [.pubrec id'] ∨ repliesTo p = [.pubcomp id']) (slot : Slot μ) :
    FitsSlot id p slot := by
  apply fitsSlot_of_not_mem
  · rcases hp with hp | hp
    · rw [hp, List.mem_singleton]
      exact fun heq => hne (Reply.pubrec.inj heq)
    · rw [hp, List.mem_singleton]
      exact nofun
  · rcases hp with hp | hp
    · rw [hp, List.mem_singleton]
      exact nofun
    · rw [hp, List.mem_singleton]
      exact fun heq => hne (Reply.pubcomp.inj heq)

omit [DecidableEq μ] in
theorem fitsSlot_publish (id : UInt16) (dup : Bool) (m : μ) :
    FitsSlot id (.publish .EXACTLY_ONCE id dup m) (.awaitsPubrec m) := by
  refine ⟨?_, ?_⟩
  · rw [repliesTo, List.mem_singleton]
    exact nofun
  · intro dup' m' heq
    cases heq
    rfl

omit [DecidableEq μ] in
theorem fitsSlot_pubrel (id : UInt16) (m : μ) : FitsSlot id (.pubrel id) (.awaitsPubcomp m) := by
  rw [FitsSlot, repliesTo, List.mem_singleton]
  exact nofun

/-! ## The broker's steps -/

/-- The broker sends a packet that fits all its slots. -/
theorem Sound.send (h : s.Sound) {p : Inbound μ} (hp : ∀ id, FitsSlot id p (s.slots id)) :
    (s.send p).Sound :=
  ⟨h.replies, h.counted, fun id => (h.slots id).send (hp id), h.begun⟩

/-- A packet under an identifier has to fit only where the broker stands with that. -/
theorem Sound.sendUnder (h : s.Sound) {p : Inbound μ}
    (hp : repliesTo p = [.pubrec id] ∨ repliesTo p = [.pubcomp id]) (hslot : s.slots id = slot)
    (hfits : FitsSlot id p slot) : (s.send p).Sound := by
  apply h.send
  intro id'
  by_cases hid : id' = id
  · rw [hid, hslot]
    exact hfits
  · exact fitsSlot_other hid hp _

/-- One slot moves on and the others stay. -/
theorem Sound.setSlot (h : s.Sound) (id : UInt16) (slot : Slot μ) (hslot : s.SlotRight id slot)
    (hleft : ∀ m, s.slots id = .awaitsPubrec m → 0 < s.timesHandled m) :
    (s.setSlot id slot).Sound := by
  refine ⟨h.replies, h.counted, ?_, ?_⟩
  · intro id'
    by_cases hid : id' = id
    · subst hid
      simp only [Exchange.setSlot, Function.update_self]
      exact hslot
    · simp only [Exchange.setSlot, Function.update_of_ne hid]
      exact h.slots id'
  · intro m hm
    rcases h.begun m hm with ⟨id', hawaits⟩ | hpos
    · by_cases hid : id' = id
      · subst hid
        exact Or.inr (hleft m hawaits)
      · exact Or.inl ⟨id', (Function.update_of_ne hid ..).trans hawaits⟩
    · exact Or.inr hpos

/-- The broker counts a message it waits for among those it has begun. -/
theorem Sound.register (h : s.Sound) {m : μ} (hm : s.Awaited m) :
    Sound { s with begun := s.begun ++ [m] } := by
  refine ⟨h.replies, h.counted, h.slots, fun m' hm' => ?_⟩
  rcases List.mem_append.mp hm' with hbefore | hnow
  · exact h.begun m' hbefore
  · cases List.mem_singleton.mp hnow
    exact Or.inl hm

theorem Sound.begin (h : s.Sound) (id : UInt16) (m : μ) : (s.step (.begin id m)).Sound := by
  cases hslot : s.slots id with
  | free =>
    by_cases hm : m ∈ s.begun
    · simp only [step, hslot, if_pos hm]
      exact h
    · simp only [step, hslot, if_neg hm]
      have right := h.slots id
      rw [hslot] at right
      have moved := h.setSlot id (.awaitsPubrec m) (right.start m) (by
        intro m' hm'
        cases hslot.symm.trans hm')
      have taken : (s.setSlot id (.awaitsPubrec m)).slots id = .awaitsPubrec m :=
        Function.update_self ..
      have sent := moved.sendUnder (Or.inl rfl) taken (fitsSlot_publish id false m)
      exact sent.register ⟨id, taken⟩
  | awaitsPubrec | awaitsPubcomp =>
    simp only [step, hslot]
    exact h

theorem Sound.retransmit (h : s.Sound) (id : UInt16) : (s.step (.retransmit id)).Sound := by
  cases hslot : s.slots id with
  | free =>
    simp only [step, hslot]
    exact h
  | awaitsPubrec m =>
    simp only [step, hslot]
    exact h.sendUnder (Or.inl rfl) hslot (fitsSlot_publish id true m)
  | awaitsPubcomp m =>
    simp only [step, hslot]
    exact h.sendUnder (Or.inr rfl) hslot (fitsSlot_pubrel id m)

theorem Sound.other (h : s.Sound) (p : Inbound μ) : (s.step (.other p)).Sound := by
  simp only [step]
  split
  · rename_i hother
    apply h.send
    intro id
    cases p with
    | publish qos id' dup m =>
      cases qos with
      | EXACTLY_ONCE => cases hother
      | AT_MOST_ONCE | reserved => exact fitsSlot_of_not_mem List.not_mem_nil List.not_mem_nil _
      | AT_LEAST_ONCE =>
        exact fitsSlot_of_not_mem (by rw [repliesTo, List.mem_singleton]; exact nofun)
          (by rw [repliesTo, List.mem_singleton]; exact nofun) _
    | pubrec id' =>
      exact fitsSlot_of_not_mem (by rw [repliesTo, List.mem_singleton]; exact nofun)
        (by rw [repliesTo, List.mem_singleton]; exact nofun) _
    | pubrel id' => cases hother
    | pubcomp id' => exact fitsSlot_of_not_mem List.not_mem_nil List.not_mem_nil _
  · exact h

/-! ## The connection's step -/

/-- The call of `msg_cb_` that a packet brings. -/
def deliveryOf : Inbound μ → List (QoS × μ)
  | .publish qos _ _ m => [(qos, m)]
  | _ => []

omit [DecidableEq μ] in
theorem handlePacket_delivered (r : Receiver μ) (p : Inbound μ) :
    (r.handlePacket p).1.delivered = r.delivered ++ deliveryOf p := by
  cases p with
  | publish qos id dup m => cases qos <;> rfl
  | pubrec | pubrel | pubcomp => exact (List.append_nil _).symm

theorem count_deliveryOf (m : μ) (p : Inbound μ) :
    (deliveryOf p).count (.EXACTLY_ONCE, m) = if IsPublishOf m p then 1 else 0 := by
  cases p with
  | publish qos id dup m' =>
    rw [deliveryOf, List.count_singleton]
    cases qos <;> simp [IsPublishOf]
  | pubrec | pubrel | pubcomp => rfl

/-- The message is handed over once more for every PUBLISH of it. -/
theorem timesHandled_handle {p : Inbound μ} {rest : List (Inbound μ)} (hp : s.toClient = p :: rest)
    (m : μ) :
    (s.step .handle).timesHandled m = s.timesHandled m + if IsPublishOf m p then 1 else 0 := by
  simp only [step, hp, timesHandled, List.countP_append, List.countP_singleton]

theorem Sound.handle (h : s.Sound) : (s.step .handle).Sound := by
  cases hp : s.toClient with
  | nil =>
    simp only [step, hp]
    exact h
  | cons p rest =>
    have grows (m : μ) : s.timesHandled m ≤ (s.step .handle).timesHandled m := by
      rw [timesHandled_handle hp]
      exact Nat.le_add_right _ _
    have pipe : (s.step .handle).pipeline = s.pipeline := by
      simp only [step, hp, pipeline, handlePacket_replies, List.flatMap_cons, List.append_assoc]
    have slots : (s.step .handle).slots = s.slots := by simp only [step, hp]
    have begun : (s.step .handle).begun = s.begun := by simp only [step, hp]
    constructor
    · intro e he
      simp only [step, hp] at he
      rcases List.mem_append.mp he with hbefore | hnow
      · exact h.replies e hbefore
      · rw [List.mem_singleton.mp hnow]
        exact handlePacket_replies s.receiver p
    · intro m
      rw [timesHandled_handle hp, ← h.counted, ← count_deliveryOf, ← List.count_append]
      simp only [step, hp, handlePacket_delivered]
    · intro id
      rw [slots]
      apply (h.slots id).weaken
      · rw [pipe]
      · intro m hslot hmem
        have right := h.slots id
        rw [hslot] at right
        simp only [step, hp, handlePacket_replies] at hmem
        rcases List.mem_append.mp hmem with hbefore | hnow
        · exact Or.inl hbefore
        · right
          obtain ⟨dup, m', rfl⟩ := publish_of_pubrec hnow
          obtain rfl := right.2.2 dup m' (by rw [hp]; exact List.mem_cons_self)
          rw [timesHandled_handle hp, IsPublishOf, if_pos (decide_eq_true rfl)]
          exact Nat.succ_pos _
      · intro q hq
        simp only [step, hp] at hq
        rw [hp]
        exact List.mem_cons_of_mem p hq
      · exact grows
    · intro m hm
      rw [begun] at hm
      rcases h.begun m hm with ⟨id, hawaits⟩ | hpos
      · exact Or.inl ⟨id, (congrFun slots id).trans hawaits⟩
      · exact Or.inr (Nat.lt_of_lt_of_le hpos (grows m))

/-- The reply at the front is taken away. -/
theorem Sound.take (h : s.Sound) {r : Reply} {rest : List Reply} (hr : s.toBroker = r :: rest) :
    Sound { s with toBroker := rest } := by
  refine ⟨h.replies, h.counted, fun id => (h.slots id).weaken ?_ ?_ (fun _ hmem => hmem)
    (fun _ => Nat.le_refl _), h.begun⟩
  · have whole : s.pipeline = r :: pipeline { s with toBroker := rest } := by
      rw [pipeline, hr]
      rfl
    rw [whole]
    exact List.sublist_cons_self _ _
  · intro m _ hmem
    rw [hr]
    exact Or.inl (List.mem_cons_of_mem r hmem)

theorem Sound.hear (h : s.Sound) : (s.step .hear).Sound := by
  cases hr : s.toBroker with
  | nil =>
    simp only [step, hr]
    exact h
  | cons r rest =>
    simp only [step, hr]
    have taken := h.take hr
    have pipe : s.pipeline = r :: pipeline { s with toBroker := rest } := by
      rw [pipeline, hr]
      rfl
    cases r with
    | puback id | pubrel id => exact taken
    | pubrec id =>
      cases hslot : s.slots id with
      | free | awaitsPubcomp =>
        simp only [hearReply, hslot]
        exact taken
      | awaitsPubrec m =>
        simp only [hearReply, hslot]
        have right := h.slots id
        rw [hslot, SlotRight, pipe] at right
        obtain ⟨hlast, hsent, -⟩ := right
        have handled : 0 < s.timesHandled m := hsent (by rw [hr]; exact List.mem_cons_self)
        have noComp : .pubcomp id ∉ pipeline { s with toBroker := rest } :=
          fun hmem => (List.pairwise_cons.mp hlast).1 _ hmem rfl rfl
        have vacuous : CompsLast id (pipeline { s with toBroker := rest }) :=
          List.pairwise_of_forall_mem_list fun a ha b _ heq => absurd (heq ▸ ha) noComp
        have moved := taken.setSlot id (.awaitsPubcomp m) ⟨vacuous, handled⟩ (by
          intro m' hm'
          cases hslot.symm.trans hm'
          exact handled)
        exact moved.sendUnder (Or.inr rfl) (Function.update_self ..) (fitsSlot_pubrel id m)
    | pubcomp id =>
      cases hslot : s.slots id with
      | free | awaitsPubrec =>
        simp only [hearReply, hslot]
        exact taken
      | awaitsPubcomp m =>
        simp only [hearReply, hslot]
        have right := h.slots id
        rw [hslot, SlotRight, pipe] at right
        have noRec : .pubrec id ∉ pipeline { s with toBroker := rest } :=
          fun hmem => (List.pairwise_cons.mp right.1).1 _ hmem rfl rfl
        apply taken.setSlot id .free noRec
        intro m' hm'
        cases hslot.symm.trans hm'

theorem Sound.renew (h : s.Sound) : (s.step .renew).Sound := by
  refine ⟨h.replies, h.counted, fun id => ?_, h.begun⟩
  exact (h.slots id).weaken (List.nil_sublist _) (fun _ _ hmem => absurd hmem List.not_mem_nil)
    (fun _ hmem => absurd hmem List.not_mem_nil) (fun _ => Nat.le_refl _)

theorem Sound.step (h : s.Sound) (e : Qos2Event μ) : (s.step e).Sound := by
  cases e with
  | begin id m => exact h.begin id m
  | retransmit id => exact h.retransmit id
  | other p => exact h.other p
  | handle => exact h.handle
  | hear => exact h.hear
  | renew => exact h.renew

theorem sound_start : (start : Exchange μ).Sound where
  replies _ := nofun
  counted _ := rfl
  slots _ := List.not_mem_nil
  begun _ := nofun

/-! ## Exactly once -/

variable (s) in
def AtMostOnce : Prop := ∀ m, s.timesHandled m ≤ 1

/-- Where all is sound only a second handling is in the way. -/
theorem Sound.exactlyOnce_iff_atMostOnce (h : s.Sound) : s.ExactlyOnce ↔ s.AtMostOnce := by
  constructor
  · intro hexactly m
    rw [← h.counted]
    exact hexactly.atMostOnce m
  · intro hmost
    constructor
    · intro m
      rw [h.counted]
      exact hmost m
    · intro m hm hnot
      have once := (h.begun m hm).resolve_left hnot
      rw [h.counted]
      exact Nat.le_antisymm (hmost m) once
    · intro e he id dup m hpublish
      rw [h.replies e he, hpublish]
      rfl
    · intro e he id hpubrel
      rw [h.replies e he, hpubrel]
      rfl

/-- Handling a packet keeps every message at one exactly if it is not handled again. -/
theorem atMostOnce_handle_iff (h : s.AtMostOnce) : (s.step .handle).AtMostOnce ↔ s.Meets .handle := by
  cases hp : s.toClient with
  | nil =>
    have same : s.step .handle = s := by simp only [Exchange.step, hp]
    rw [same]
    refine iff_of_true h ?_
    intro id dup m rest heq
    rw [hp] at heq
    cases heq
  | cons p rest =>
    constructor
    · intro hafter id dup m rest' heq
      rw [hp] at heq
      cases heq
      have after := hafter m
      rw [timesHandled_handle hp, IsPublishOf, if_pos (decide_eq_true rfl)] at after
      omega
    · intro hmeets m
      rw [timesHandled_handle hp]
      split
      · rename_i hpublish
        obtain ⟨id, dup, rfl⟩ := eq_publish hpublish
        rw [hmeets id dup m rest hp]
      · exact h m

omit [DecidableEq μ] in
/-- Only the reader adds to the log. -/
theorem log_hearReply (r : Reply) : (s.hearReply r).log = s.log := by
  cases r with
  | puback | pubrel => rfl
  | pubrec id =>
    rw [hearReply]
    split <;> rfl
  | pubcomp id =>
    rw [hearReply]
    split <;> rfl

theorem log_step {e : Qos2Event μ} (h : e ≠ .handle) : (s.step e).log = s.log := by
  cases e with
  | handle => exact absurd rfl h
  | begin id m =>
    simp only [step]
    split
    · split <;> rfl
    · rfl
  | retransmit id =>
    simp only [step]
    split <;> rfl
  | other p =>
    simp only [step]
    split <;> rfl
  | hear =>
    simp only [step]
    split
    · exact log_hearReply _
    · rfl
  | renew => rfl

theorem exactlyOnce_step_iff (h : s.Sound ∧ s.AtMostOnce) (e : Qos2Event μ) :
    ((s.step e).Sound ∧ (s.step e).AtMostOnce) ↔ s.Meets e := by
  have stays (he : e ≠ .handle) : (s.step e).AtMostOnce := by
    intro m
    rw [timesHandled, log_step he]
    exact h.2 m
  rw [and_iff_right (h.1.step e)]
  cases e with
  | handle => exact atMostOnce_handle_iff h.2
  | begin | retransmit | other | hear | renew => exact iff_of_true (stays nofun) trivial

/-- **Every message is handed over exactly once in every state of a run exactly when no
PUBLISH of a message is handled after another one of it.** -/
theorem exactlyOnce_iff {events : List (Qos2Event μ)} :
    (∀ reached, reached <+: events → (run step start reached).ExactlyOnce) ↔
      EveryStep step Meets start events := by
  rw [← @every_state_iff _ _ _ _ (fun s => s.Sound ∧ s.AtMostOnce)
    (fun s e h => exactlyOnce_step_iff h e) _ _ ⟨sound_start, fun _ => Nat.zero_le 1⟩]
  have sound (reached : List (Qos2Event μ)) : (run step start reached).Sound :=
    @every_state _ _ _ (fun _ _ => True) _ (fun s e h _ => h.step e) _ _ sound_start
      (everyStep_of_forall fun _ _ => trivial) reached List.prefix_rfl
  constructor
  · intro h reached hp
    exact ⟨sound reached, (sound reached).exactlyOnce_iff_atMostOnce.mp (h reached hp)⟩
  · intro h reached hp
    exact (sound reached).exactlyOnce_iff_atMostOnce.mpr (h reached hp).2

/-- The broker sends the message again before it has the PUBREC. -/
def sentAgain : List (Qos2Event Nat) := [.begin 7 0, .retransmit 7, .handle, .handle]

theorem not_exactlyOnce_sentAgain : ¬ (run step start sentAgain).ExactlyOnce := by
  intro h
  exact absurd (h.atMostOnce 0) (by decide)

end MidnightSdk.Protocols.Mqtt.Exchange
