import MidnightSdk.Library.Interaction

/-!
# Actions on a state

An action asks its surroundings, changes a state, and returns or throws. What it changed before it
throws stays changed.
-/

namespace MidnightSdk.Interaction

variable {Q : Type} {A : Q → Type} {σ E α β : Type}

open Program

/-- The program of an action ends with what is returned or thrown, and the state. -/
def Action (Q : Type) (A : Q → Type) (σ E α : Type) : Type :=
  σ → Program Q A Empty (Except E α × σ)

namespace Action

def bind (act : Action Q A σ E α) (f : α → Action Q A σ E β) : Action Q A σ E β := fun s => do
  match ← act s with
  | (.ok a, s) => f a s
  | (.error e, s) => return (.error e, s)

instance : Monad (Action Q A σ E) where
  pure a := fun s => pure (.ok a, s)
  bind := bind

def throw (e : E) : Action Q A σ E α := fun s => pure (.error e, s)

def get : Action Q A σ E σ := fun s => pure (.ok s, s)

def modify (f : σ → σ) : Action Q A σ E Unit := fun s => pure (.ok (), f s)

def ask (q : Q) : Action Q A σ E (A q) := fun s => do
  let answer ← question q
  return (.ok answer, s)

def ofExcept : Except E α → Action Q A σ E α
  | .ok a => pure a
  | .error e => throw e

/-- What an action throws is handed to a handler, which starts from the state left behind. -/
def catching (act : Action Q A σ E α) (handler : E → Action Q A σ E α) : Action Q A σ E α :=
  fun s => do
    match ← act s with
    | (.ok a, s) => return (.ok a, s)
    | (.error e, s) => handler e s

/-- An exception becomes a result like any other. -/
def settled (act : Action Q A σ E α) : Action Q A σ E (Except E α) := fun s => do
  let (result, s) ← act s
  return (.ok result, s)

end Action

/-- An action was run from a state: the questions and answers, how it ended and the state then. -/
def Ran (act : Action Q A σ E α) (s : σ) (seen : List (Event A)) (result : Except E α) (t : σ) :
    Prop :=
  Run (act s) seen (.ok (result, t))

variable {s t : σ} {seen : List (Event A)} {result : Except E α}

theorem ran_pure {a : α} (h : Ran (pure a : Action Q A σ E α) s seen result t) :
    seen = [] ∧ result = .ok a ∧ t = s := by
  obtain ⟨rfl, same⟩ := run_pure_iff.mp h
  cases same
  exact ⟨rfl, rfl, rfl⟩

theorem ran_throw {e : E} (h : Ran (Action.throw e : Action Q A σ E α) s seen result t) :
    seen = [] ∧ result = .error e ∧ t = s := by
  obtain ⟨rfl, same⟩ := run_pure_iff.mp h
  cases same
  exact ⟨rfl, rfl, rfl⟩

theorem ran_get {read : Except E σ} (h : Ran (Action.get : Action Q A σ E σ) s seen read t) :
    seen = [] ∧ read = .ok s ∧ t = s := by
  obtain ⟨rfl, same⟩ := run_pure_iff.mp h
  cases same
  exact ⟨rfl, rfl, rfl⟩

theorem ran_modify {f : σ → σ} {done : Except E Unit}
    (h : Ran (Action.modify f : Action Q A σ E Unit) s seen done t) :
    seen = [] ∧ done = .ok () ∧ t = f s := by
  obtain ⟨rfl, same⟩ := run_pure_iff.mp h
  cases same
  exact ⟨rfl, rfl, rfl⟩

theorem ran_ask {q : Q} {got : Except E (A q)}
    (h : Ran (Action.ask q : Action Q A σ E (A q)) s seen got t) :
    ∃ answer, seen = [⟨q, answer⟩] ∧ got = .ok answer ∧ t = s := by
  cases h with
  | @ask _ _ answer rest _ h =>
    obtain ⟨rfl, same⟩ := run_pure_iff.mp h
    cases same
    exact ⟨answer, rfl, rfl, rfl⟩

theorem ran_ofExcept {r : Except E α}
    (h : Ran (Action.ofExcept r : Action Q A σ E α) s seen result t) :
    seen = [] ∧ result = r ∧ t = s := by
  cases r with
  | ok a => exact ran_pure h
  | error e => exact ran_throw h

/-- Two actions one after the other: the first throws, or the second starts where it ended. -/
theorem ran_bind {act : Action Q A σ E β} {f : β → Action Q A σ E α}
    (h : Ran (act >>= f) s seen result t) :
    (∃ e, Ran act s seen (.error e) t ∧ result = .error e) ∨
      ∃ b mid before after, seen = before ++ after ∧ Ran act s before (.ok b) mid ∧
        Ran (f b) mid after result t := by
  obtain ⟨before, ⟨middle, mid⟩, after, rfl, first, rest⟩ := run_bind h
  cases middle with
  | ok b => exact .inr ⟨b, mid, before, after, rfl, first, rest⟩
  | error e =>
    obtain ⟨rfl, same⟩ := run_pure_iff.mp rest
    cases same
    rw [List.append_nil]
    exact .inl ⟨e, first, rfl⟩

theorem Ran.bind {act : Action Q A σ E β} {f : β → Action Q A σ E α} {mid : σ} {b : β}
    {before after : List (Event A)} (h : Ran act s before (.ok b) mid)
    (hf : Ran (f b) mid after result t) : Ran (act >>= f) s (before ++ after) result t :=
  Run.bind h hf

theorem ran_pure_bind {b : β} {f : β → Action Q A σ E α}
    (h : Ran (pure b >>= f) s seen result t) : Ran (f b) s seen result t := h

theorem ran_get_bind {f : σ → Action Q A σ E α} (h : Ran (Action.get >>= f) s seen result t) :
    Ran (f s) s seen result t := by
  rcases ran_bind h with ⟨e, h, -⟩ | ⟨_, _, _, _, rfl, h, hrest⟩
  · obtain ⟨-, ok, -⟩ := ran_get h
    cases ok
  · obtain ⟨rfl, ok, rfl⟩ := ran_get h
    cases ok
    exact hrest

theorem ran_modify_bind {g : σ → σ} {f : Unit → Action Q A σ E α}
    (h : Ran (Action.modify g >>= f) s seen result t) : Ran (f ()) (g s) seen result t := by
  rcases ran_bind h with ⟨e, h, -⟩ | ⟨_, _, _, _, rfl, h, hrest⟩
  · obtain ⟨-, ok, -⟩ := ran_modify h
    cases ok
  · obtain ⟨rfl, ok, rfl⟩ := ran_modify h
    exact hrest

theorem ran_ask_bind {q : Q} {f : A q → Action Q A σ E α}
    (h : Ran (Action.ask q >>= f) s seen result t) :
    ∃ answer rest, seen = ⟨q, answer⟩ :: rest ∧ Ran (f answer) s rest result t := by
  rcases ran_bind h with ⟨e, h, -⟩ | ⟨_, _, _, rest, rfl, h, hrest⟩
  · obtain ⟨_, -, ok, -⟩ := ran_ask h
    cases ok
  · obtain ⟨_, rfl, ok, rfl⟩ := ran_ask h
    cases ok
    exact ⟨_, rest, rfl, hrest⟩

theorem ran_settled {act : Action Q A σ E α} {got : Except E (Except E α)}
    (h : Ran act.settled s seen got t) : ∃ result, got = .ok result ∧ Ran act s seen result t := by
  obtain ⟨before, ⟨result, mid⟩, after, rfl, first, rest⟩ := run_bind h
  obtain ⟨rfl, same⟩ := run_pure_iff.mp rest
  cases same
  rw [List.append_nil]
  exact ⟨result, rfl, first⟩

theorem ran_settled_bind {act : Action Q A σ E β} {f : Except E β → Action Q A σ E α}
    (h : Ran (act.settled >>= f) s seen result t) :
    ∃ got mid before after, seen = before ++ after ∧ Ran act s before got mid ∧
      Ran (f got) mid after result t := by
  rcases ran_bind h with ⟨e, h, -⟩ | ⟨_, mid, before, after, rfl, h, hrest⟩
  · obtain ⟨_, ok, -⟩ := ran_settled h
    cases ok
  · obtain ⟨_, ok, hact⟩ := ran_settled h
    cases ok
    exact ⟨_, mid, before, after, rfl, hact, hrest⟩

theorem ran_catching {act : Action Q A σ E α} {handler : E → Action Q A σ E α}
    (h : Ran (act.catching handler) s seen result t) :
    (∃ a, Ran act s seen (.ok a) t ∧ result = .ok a) ∨
      ∃ e mid before after, seen = before ++ after ∧ Ran act s before (.error e) mid ∧
        Ran (handler e) mid after result t := by
  obtain ⟨before, ⟨middle, mid⟩, after, rfl, first, rest⟩ := run_bind h
  cases middle with
  | error e => exact .inr ⟨e, mid, before, after, rfl, first, rest⟩
  | ok a =>
    obtain ⟨rfl, same⟩ := run_pure_iff.mp rest
    cases same
    rw [List.append_nil]
    exact .inl ⟨a, first, rfl⟩

/-- What is returned in the end was computed by both. -/
theorem ran_bind_ok {act : Action Q A σ E β} {f : β → Action Q A σ E α} {a : α}
    (h : Ran (act >>= f) s seen (.ok a) t) :
    ∃ b mid before after, seen = before ++ after ∧ Ran act s before (.ok b) mid ∧
      Ran (f b) mid after (.ok a) t := by
  rcases ran_bind h with ⟨_, -, ok⟩ | parts
  · cases ok
  · exact parts

theorem ran_map {act : Action Q A σ E β} {f : β → α}
    (h : Ran (do let b ← act; return f b) s seen result t) :
    ∃ got, Ran act s seen got t ∧ result = got.map f := by
  rcases ran_bind h with ⟨e, hact, rfl⟩ | ⟨b, mid, before, after, rfl, hact, hend⟩
  · exact ⟨.error e, hact, rfl⟩
  · obtain ⟨rfl, rfl, rfl⟩ := ran_pure hend
    rw [List.append_nil]
    exact ⟨.ok b, hact, rfl⟩

/-- What is made of a result, and what of an exception. -/
def either (f : β → α) (g : E → α) : Except E β → α
  | .ok b => f b
  | .error e => g e

/-- An action whose exceptions all become results. -/
theorem ran_handled {act : Action Q A σ E β} {f : β → α} {g : E → α}
    (h : Ran (Action.catching (do let b ← act; return f b) fun e => return g e) s seen result t) :
    ∃ got, Ran act s seen got t ∧ result = .ok (either f g got) := by
  rcases ran_catching h with ⟨a, hmap, rfl⟩ | ⟨e, mid, before, after, rfl, hmap, hend⟩
  · obtain ⟨got, hact, hgot⟩ := ran_map hmap
    cases got with
    | error e => cases hgot
    | ok b =>
      cases hgot
      exact ⟨.ok b, hact, rfl⟩
  · obtain ⟨got, hact, hgot⟩ := ran_map hmap
    obtain ⟨rfl, rfl, rfl⟩ := ran_pure hend
    rw [List.append_nil]
    cases got with
    | ok b => cases hgot
    | error e' =>
      cases hgot
      exact ⟨.error e, hact, rfl⟩

/-! ## What all runs of an action have in common -/

/-- A relation of a run's start, questions and end that runs one after the other keep. -/
structure Composes (R : σ → List (Event A) → σ → Prop) : Prop where
  nil : ∀ s, R s [] s
  append : ∀ {s mid t : σ} {before after : List (Event A)},
    R s before mid → R mid after t → R s (before ++ after) t

/-- However an action ends, its run is in the relation. -/
def Always (R : σ → List (Event A) → σ → Prop) (act : Action Q A σ E α) : Prop :=
  ∀ {s seen result t}, Ran act s seen result t → R s seen t

namespace Composes

variable {R : σ → List (Event A) → σ → Prop} (closed : Composes R)

include closed

theorem always_pure (a : α) : Always R (pure a : Action Q A σ E α) := by
  intro s seen result t h
  obtain ⟨rfl, -, rfl⟩ := ran_pure h
  exact closed.nil t

theorem always_throw (e : E) : Always R (Action.throw e : Action Q A σ E α) := by
  intro s seen result t h
  obtain ⟨rfl, -, rfl⟩ := ran_throw h
  exact closed.nil t

theorem always_ofExcept (r : Except E α) : Always R (Action.ofExcept r : Action Q A σ E α) := by
  cases r with
  | ok a => exact closed.always_pure a
  | error e => exact closed.always_throw e

theorem always_bind {act : Action Q A σ E β} {f : β → Action Q A σ E α} (hact : Always R act)
    (hf : ∀ b, Always R (f b)) : Always R (act >>= f) := by
  intro s seen result t h
  rcases ran_bind h with ⟨e, h, -⟩ | ⟨b, mid, before, after, rfl, h, hrest⟩
  · exact hact h
  · exact closed.append (hact h) (hf b hrest)

theorem always_catching {act : Action Q A σ E α} {handler : E → Action Q A σ E α}
    (hact : Always R act) (hhandler : ∀ e, Always R (handler e)) :
    Always R (act.catching handler) := by
  intro s seen result t h
  rcases ran_catching h with ⟨a, h, -⟩ | ⟨e, mid, before, after, rfl, h, hrest⟩
  · exact hact h
  · exact closed.append (hact h) (hhandler e hrest)

end Composes

end MidnightSdk.Interaction
