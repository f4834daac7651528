import Mathlib.Data.List.Infix

/-!
# Runs of a step function

A run applies a step function to a list of inputs. When an invariant survives a
step exactly under a condition on the state before it and its input, it holds
in every state a run reaches exactly when every step meets the condition.
-/

namespace MidnightSdk.Runs

variable {σ δ : Type*} (step : σ → δ → σ) (meets : σ → δ → Prop)

def run (s : σ) (ds : List δ) : σ := ds.foldl step s

/-- Every step of the run meets the condition in the state it starts from. -/
def EveryStep : σ → List δ → Prop
  | _, [] => True
  | s, d :: ds => meets s d ∧ EveryStep (step s d) ds

variable {step meets} {inv : σ → Prop}

/-- An invariant that steps meeting a condition keep holds in every state such a
run reaches. -/
theorem every_state (keeps : ∀ s d, inv s → meets s d → inv (step s d)) {s : σ} {ds : List δ}
    (hs : inv s) (h : EveryStep step meets s ds) :
    ∀ reached, reached <+: ds → inv (run step s reached) := by
  induction ds generalizing s with
  | nil =>
    intro reached hp
    rw [List.prefix_nil.mp hp]
    exact hs
  | cons d ds ih =>
    intro reached hp
    cases reached with
    | nil => exact hs
    | cons e reached =>
      obtain ⟨rfl, hrun⟩ := List.cons_prefix_cons.mp hp
      exact ih (keeps s e hs h.1) h.2 reached hrun

/-- A condition on the inputs alone is met at every step if every input meets it. -/
theorem everyStep_of_forall {P : δ → Prop} {s : σ} {ds : List δ} (h : ∀ d ∈ ds, P d) :
    EveryStep step (fun _ d => P d) s ds := by
  induction ds generalizing s with
  | nil => trivial
  | cons d ds ih =>
    rw [List.forall_mem_cons] at h
    exact ⟨h.1, ih h.2⟩

/-- An invariant that survives exactly the steps meeting a condition holds in
every state reached exactly when all steps meet it. -/
theorem every_state_iff (exactly : ∀ s d, inv s → (inv (step s d) ↔ meets s d)) {s : σ}
    {ds : List δ} (hs : inv s) :
    (∀ reached, reached <+: ds → inv (run step s reached)) ↔ EveryStep step meets s ds := by
  induction ds generalizing s with
  | nil =>
    refine ⟨fun _ => trivial, ?_⟩
    intro _ reached h
    rw [List.prefix_nil.mp h]
    exact hs
  | cons d ds ih =>
    constructor
    · intro h
      have next : inv (step s d) := h [d] ⟨ds, rfl⟩
      refine ⟨(exactly s d hs).mp next, (ih next).mp ?_⟩
      intro reached hp
      exact h (d :: reached) (List.cons_prefix_cons.mpr ⟨rfl, hp⟩)
    · rintro ⟨hmeets, hrest⟩ reached hp
      have next : inv (step s d) := (exactly s d hs).mpr hmeets
      cases reached with
      | nil => exact hs
      | cons e reached =>
        obtain ⟨rfl, hrun⟩ := List.cons_prefix_cons.mp hp
        exact (ih next).mpr hrest reached hrun

/-- Two conditions that agree where the invariant holds agree on a whole run,
if steps meeting the first one keep the invariant. -/
theorem every_step_iff {safe : σ → δ → Prop} (agree : ∀ s d, inv s → (safe s d ↔ meets s d))
    (keeps : ∀ s d, inv s → safe s d → inv (step s d)) {s : σ} {ds : List δ} (hs : inv s) :
    EveryStep step safe s ds ↔ EveryStep step meets s ds := by
  induction ds generalizing s with
  | nil => rfl
  | cons d ds ih =>
    constructor
    · rintro ⟨hsafe, hrest⟩
      exact ⟨(agree s d hs).mp hsafe, (ih (keeps s d hs hsafe)).mp hrest⟩
    · rintro ⟨hmeets, hrest⟩
      have hsafe := (agree s d hs).mpr hmeets
      exact ⟨hsafe, (ih (keeps s d hs hsafe)).mpr hrest⟩

/-- What a condition gives at each step, of a run that meets it. -/
theorem everyStep_of {safe : σ → δ → Prop} (gives : ∀ s d, inv s → meets s d → safe s d)
    (keeps : ∀ s d, inv s → meets s d → inv (step s d)) {s : σ} {ds : List δ} (hs : inv s)
    (h : EveryStep step meets s ds) : EveryStep step safe s ds := by
  induction ds generalizing s with
  | nil => trivial
  | cons d ds ih => exact ⟨gives s d hs h.1, ih (keeps s d hs h.1) h.2⟩

/-! ## Prefixes -/

/-- When the next input keeps a property of the inputs so far exactly under a
condition, the property holds of all prefixes exactly when every input meets it. -/
theorem every_prefix_iff {P : List δ → Prop} {fits : List δ → δ → Prop} {ds : List δ}
    (start : P [])
    (exactly : ∀ seen d, seen ++ [d] <+: ds → P seen → (P (seen ++ [d]) ↔ fits seen d)) :
    (∀ seen, seen <+: ds → P seen) ↔ ∀ seen d, seen ++ [d] <+: ds → fits seen d := by
  constructor
  · intro h seen d hp
    have before : P seen := h seen ((List.prefix_append seen [d]).trans hp)
    exact (exactly seen d hp before).mp (h (seen ++ [d]) hp)
  · intro h seen
    induction seen using List.reverseRecOn with
    | nil => exact fun _ => start
    | append_singleton seen d ih =>
      intro hp
      have before : P seen := ih ((List.prefix_append seen [d]).trans hp)
      exact (exactly seen d hp before).mpr (h seen d hp)

/-! ## What a run shows -/

section Log
variable {ε : Type*} (step) (entry : σ → δ → ε)

/-- One entry a step, made of the state before it and its input. -/
def log : σ → List δ → List ε
  | _, [] => []
  | s, d :: ds => entry s d :: log (step s d) ds

variable {step entry}

/-- A law between an entry and those before it holds of a whole log when an invariant of the
entries so far and the state gives it at each step. -/
theorem log_law {within : List ε → σ → Prop} {law : List ε → ε → Prop}
    (keeps : ∀ past s d, within past s →
      law past (entry s d) ∧ within (past ++ [entry s d]) (step s d))
    {s : σ} {ds : List δ} {seen : List ε} (h : within seen s) {past rest : List ε} {e : ε}
    (hlog : log step entry s ds = past ++ e :: rest) : law (seen ++ past) e := by
  induction ds generalizing s seen past with
  | nil =>
    have none := congrArg List.length hlog
    simp [log] at none
  | cons d ds ih =>
    obtain ⟨first, next⟩ := keeps seen s d h
    rw [log] at hlog
    cases past with
    | nil =>
      obtain ⟨rfl, -⟩ := List.cons.inj hlog
      rwa [List.append_nil]
    | cons e' past =>
      obtain ⟨rfl, hrest⟩ := List.cons.inj hlog
      have later := ih next hrest
      rwa [List.append_assoc, List.singleton_append] at later

end Log

/-! ## The first that passes -/

/-- What holds from then on holds of the first that passes a test exactly when it holds
of all that pass it. -/
theorem find?_right_iff {α : Type} {test : α → Bool} {right : α → Prop} {xs : List α}
    (h : xs.Pairwise fun x y => right x → right y) :
    (∀ x, xs.find? test = some x → right x) ↔ ∀ x ∈ xs, test x = true → right x := by
  constructor
  · intro first
    induction xs with
    | nil => exact nofun
    | cons x xs ih =>
      obtain ⟨onward, hrest⟩ := List.pairwise_cons.mp h
      intro y hmem hpasses
      cases hx : test x with
      | true =>
        have hright : right x := first x (by rw [List.find?_cons, hx])
        rcases List.mem_cons.mp hmem with rfl | hmem
        · exact hright
        · exact onward y hmem hright
      | false =>
        have hxs : y ∈ xs := by
          rcases List.mem_cons.mp hmem with rfl | hmem
          · rw [hx] at hpasses
            cases hpasses
          · exact hmem
        refine ih hrest (fun z hz => first z ?_) y hxs hpasses
        rw [List.find?_cons, hx]
        exact hz
  · intro all x hx
    exact all x (List.mem_of_find?_eq_some hx) (List.find?_some hx)

end MidnightSdk.Runs
