import Mathlib.Logic.Basic

/-!
# Programs that ask

A program asks its surroundings one question after the other and goes on with the
answers, whatever they are. A run is the list of questions and answers up to the
end; what is asked after which answers is known step by step, also of a program
whose question is never answered.
-/

namespace MidnightSdk.Interaction

variable {Q : Type} {A : Q → Type} {E α β : Type}

inductive Program (Q : Type) (A : Q → Type) (E α : Type) : Type where
  | done (a : α)
  | fail (e : E)
  | ask (q : Q) (next : A q → Program Q A E α)

namespace Program

def bind : Program Q A E α → (α → Program Q A E β) → Program Q A E β
  | .done a, f => f a
  | .fail e, _ => .fail e
  | .ask q next, f => .ask q fun answer => (next answer).bind f

instance : Monad (Program Q A E) where
  pure := .done
  bind := bind

def question (q : Q) : Program Q A E (A q) := .ask q .done

/-- An answer that is an exception is thrown. -/
def orThrow : Except E α → Program Q A E α
  | .ok a => .done a
  | .error e => .fail e

end Program

open Program

abbrev Event (A : Q → Type) : Type := (q : Q) × A q

/-- The run of a program to its end. -/
inductive Run : Program Q A E α → List (Event A) → Except E α → Prop
  | done (a : α) : Run (.done a) [] (.ok a)
  | fail (e : E) : Run (.fail e) [] (.error e)
  | ask {q : Q} {next : A q → Program Q A E α} {answer : A q} {rest : List (Event A)}
      {result : Except E α} (h : Run (next answer) rest result) :
      Run (.ask q next) (⟨q, answer⟩ :: rest) result

/-- What a program asks next, after some answers. -/
inductive Asks : Program Q A E α → List (Event A) → Q → Prop
  | now (q : Q) (next : A q → Program Q A E α) : Asks (.ask q next) [] q
  | later {q : Q} {next : A q → Program Q A E α} {answer : A q} {rest : List (Event A)} {q' : Q}
      (h : Asks (next answer) rest q') : Asks (.ask q next) (⟨q, answer⟩ :: rest) q'

/-- Every question of a program is one of these, whatever the answers are. -/
def Within (S : Q → Prop) : Program Q A E α → Prop
  | .done _ => True
  | .fail _ => True
  | .ask q next => S q ∧ ∀ answer, Within S (next answer)

/-! ## Steps one after the other -/

theorem run_pure_iff {a : α} {seen : List (Event A)} {result : Except E α} :
    Run (pure a : Program Q A E α) seen result ↔ seen = [] ∧ result = .ok a := by
  constructor
  · rintro ⟨⟩
    exact ⟨rfl, rfl⟩
  · rintro ⟨rfl, rfl⟩
    exact .done a

theorem not_asks_pure {a : α} {seen : List (Event A)} {q : Q} :
    ¬ Asks (pure a : Program Q A E α) seen q := nofun

/-- What two steps ask is asked by the first, or by the second after a run of the
first. -/
theorem asks_bind {p : Program Q A E α} {f : α → Program Q A E β} {seen : List (Event A)} {q : Q}
    (h : Asks (p >>= f) seen q) :
    Asks p seen q ∨ ∃ before a after, seen = before ++ after ∧ Run p before (.ok a) ∧
      Asks (f a) after q := by
  induction p generalizing seen with
  | done a => exact Or.inr ⟨[], a, seen, rfl, .done a, h⟩
  | fail e => cases h
  | ask first next ih =>
    cases h with
    | now => exact Or.inl (.now _ next)
    | later h =>
      rcases ih _ h with h | ⟨before, a, after, rfl, hrun, hasks⟩
      · exact Or.inl (.later h)
      · exact Or.inr ⟨_ :: before, a, after, rfl, .ask hrun, hasks⟩

/-- Two steps that return are run one after the other. -/
theorem run_bind {p : Program Q A E α} {f : α → Program Q A E β} {seen : List (Event A)} {b : β}
    (h : Run (p >>= f) seen (.ok b)) :
    ∃ before a after, seen = before ++ after ∧ Run p before (.ok a) ∧ Run (f a) after (.ok b) := by
  induction p generalizing seen with
  | done a => exact ⟨[], a, seen, rfl, .done a, h⟩
  | fail e => cases h
  | ask q next ih =>
    cases h with
    | ask h =>
      obtain ⟨before, a, after, rfl, hrun, hrest⟩ := ih _ h
      exact ⟨_ :: before, a, after, rfl, .ask hrun, hrest⟩

theorem Run.bind {p : Program Q A E α} {f : α → Program Q A E β} {before after : List (Event A)}
    {a : α} {result : Except E β} (h : Run p before (.ok a)) (hf : Run (f a) after result) :
    Run (p >>= f) (before ++ after) result := by
  generalize hok : Except.ok a = end' at h
  induction h with
  | done a' =>
    cases hok
    exact hf
  | fail e => cases hok
  | ask h ih => exact .ask (ih hok)

theorem Asks.bind {p : Program Q A E α} {f : α → Program Q A E β} {before after : List (Event A)}
    {a : α} {q : Q} (h : Run p before (.ok a)) (hf : Asks (f a) after q) :
    Asks (p >>= f) (before ++ after) q := by
  generalize hok : Except.ok a = end' at h
  induction h with
  | done a' =>
    cases hok
    exact hf
  | fail e => cases hok
  | ask h ih => exact .later (ih hok)

theorem run_question {q : Q} {seen : List (Event A)} {a : A q}
    (h : Run (question q : Program Q A E (A q)) seen (.ok a)) : seen = [⟨q, a⟩] := by
  cases h with
  | ask h =>
    cases h
    rfl

theorem asks_question {q q' : Q} {seen : List (Event A)}
    (h : Asks (question q : Program Q A E (A q)) seen q') : seen = [] ∧ q' = q := by
  cases h with
  | now => exact ⟨rfl, rfl⟩
  | later h => cases h

theorem run_orThrow {r : Except E α} {seen : List (Event A)} {a : α}
    (h : Run (orThrow r : Program Q A E α) seen (.ok a)) : seen = [] ∧ r = .ok a := by
  cases r with
  | ok b =>
    cases h
    exact ⟨rfl, rfl⟩
  | error e => cases h

/-! ## Runs that may be cut short -/

/-- A run to the end, or up to a question that is never asked. -/
inductive Stretch (p : Program Q A E α) : List (Event A) → Option (Except E α) → Prop
  | cut {seen : List (Event A)} {q : Q} (h : Asks p seen q) : Stretch p seen none
  | ended {seen : List (Event A)} {result : Except E α} (h : Run p seen result) :
      Stretch p seen (some result)

variable {seen : List (Event A)} {ending : Option (Except E α)}

theorem stretch_pure {a : α} (h : Stretch (pure a : Program Q A E α) seen ending) :
    seen = [] ∧ ending = some (.ok a) := by
  cases h with
  | cut h => cases h
  | ended h =>
    obtain ⟨rfl, rfl⟩ := run_pure_iff.mp h
    exact ⟨rfl, rfl⟩

theorem stretch_fail {e : E} (h : Stretch (.fail e : Program Q A E α) seen ending) :
    seen = [] ∧ ending = some (.error e) := by
  cases h with
  | cut h => cases h
  | ended h =>
    cases h
    exact ⟨rfl, rfl⟩

/-- A program that asks is cut short before its question, or goes on with an answer. -/
theorem stretch_question {q : Q} {f : A q → Program Q A E α}
    (h : Stretch (question q >>= f) seen ending) :
    (seen = [] ∧ ending = none) ∨
      ∃ answer rest, seen = ⟨q, answer⟩ :: rest ∧ Stretch (f answer) rest ending := by
  cases h with
  | cut h =>
    cases h with
    | now => exact .inl ⟨rfl, rfl⟩
    | later h => exact .inr ⟨_, _, rfl, .cut h⟩
  | ended h =>
    cases h with
    | ask h => exact .inr ⟨_, _, rfl, .ended h⟩

/-! ## Questions of one kind -/

variable {S : Q → Prop}

theorem within_pure (a : α) : Within S (pure a : Program Q A E α) := trivial

theorem Within.bind {p : Program Q A E α} {f : α → Program Q A E β} (h : Within S p)
    (hf : ∀ a, Within S (f a)) : Within S (p >>= f) := by
  induction p with
  | done a => exact hf a
  | fail e => trivial
  | ask q next ih => exact ⟨h.1, fun answer => ih answer (h.2 answer)⟩

theorem within_question {q : Q} (h : S q) : Within S (question q : Program Q A E (A q)) :=
  ⟨h, fun _ => trivial⟩

theorem within_orThrow (r : Except E α) : Within S (orThrow r : Program Q A E α) := by
  cases r <;> trivial

theorem Within.asks {p : Program Q A E α} {seen : List (Event A)} {q : Q} (h : Within S p)
    (hasks : Asks p seen q) : S q := by
  induction hasks with
  | now q next => exact h.1
  | later hasks ih => exact ih (h.2 _)

theorem Within.run {p : Program Q A E α} {seen : List (Event A)} {result : Except E α}
    (h : Within S p) (hrun : Run p seen result) : ∀ event ∈ seen, S event.1 := by
  induction hrun with
  | done a => exact nofun
  | fail e => exact nofun
  | ask hrun ih => exact List.forall_mem_cons.mpr ⟨h.1, ih (h.2 _)⟩

theorem Within.stretch {p : Program Q A E α} (h : Within S p) (hstretch : Stretch p seen ending) :
    ∀ event ∈ seen, S event.1 := by
  cases hstretch with
  | ended hrun => exact h.run hrun
  | cut hasks =>
    induction hasks with
    | now => exact nofun
    | later _ ih => exact List.forall_mem_cons.mpr ⟨h.1, ih (h.2 _)⟩

/-! ## Values returned -/

/-- Whatever the answers are, a value that is returned has a property. -/
def Returns (R : α → Prop) : Program Q A E α → Prop
  | .done a => R a
  | .fail _ => True
  | .ask _ next => ∀ answer, Returns R (next answer)

theorem Returns.run {R : α → Prop} {p : Program Q A E α} {seen : List (Event A)} {a : α}
    (h : Returns R p) (hrun : Run p seen (.ok a)) : R a := by
  generalize hok : Except.ok a = result at hrun
  induction hrun with
  | done b =>
    cases hok
    exact h
  | fail e => cases hok
  | ask hrun ih => exact ih (h _) hok

theorem Returns.stretch {R : α → Prop} {p : Program Q A E α} {a : α} (h : Returns R p)
    (hstretch : Stretch p seen (some (.ok a))) : R a := by
  cases hstretch with
  | ended hrun => exact h.run hrun

theorem returns_bind {R : β → Prop} (p : Program Q A E α) {f : α → Program Q A E β}
    (h : ∀ a, Returns R (f a)) : Returns R (p >>= f) := by
  induction p with
  | done a => exact h a
  | fail e => trivial
  | ask q next ih => exact fun answer => ih answer

theorem Returns.bind {R : α → Prop} {S : β → Prop} {p : Program Q A E α}
    {f : α → Program Q A E β} (h : Returns R p) (hf : ∀ a, R a → Returns S (f a)) :
    Returns S (p >>= f) := by
  induction p with
  | done a => exact hf a h
  | fail e => trivial
  | ask q next ih => exact fun answer => ih answer (h answer)

/-! ## Answers that do not change -/

/-- What a program asks and how it ends, where a question has the same answer each
time. -/
def outcome (answer : (q : Q) → A q) : Program Q A E α → List Q × Except E α
  | .done a => ([], .ok a)
  | .fail e => ([], .error e)
  | .ask q next => (q :: (outcome answer (next (answer q))).1, (outcome answer (next (answer q))).2)

theorem outcome_bind {answer : (q : Q) → A q} {p : Program Q A E α} {asked : List Q} {a : α}
    (h : outcome answer p = (asked, .ok a)) (f : α → Program Q A E β) :
    outcome answer (p >>= f) = (asked ++ (outcome answer (f a)).1, (outcome answer (f a)).2) := by
  induction p generalizing asked with
  | done b =>
    cases h
    rfl
  | fail e => cases h
  | ask q next ih =>
    obtain ⟨rfl, hrest⟩ := Prod.mk.inj h
    change (q :: (outcome answer (next (answer q) >>= f)).1,
      (outcome answer (next (answer q) >>= f)).2) = _
    rw [ih (answer q) (Prod.ext rfl hrest)]
    rfl

theorem run_outcome (answer : (q : Q) → A q) (p : Program Q A E α) :
    Run p ((outcome answer p).1.map fun q => ⟨q, answer q⟩) (outcome answer p).2 := by
  induction p with
  | done a => exact .done a
  | fail e => exact .fail e
  | ask q next ih => exact .ask (ih (answer q))

end MidnightSdk.Interaction
