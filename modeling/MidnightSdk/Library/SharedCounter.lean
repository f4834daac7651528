import MidnightSdk.Library.Runs

/-!
# Workers at a shared counter

Each worker draws the next number, answers it and draws again, until it draws
one beyond the last. A schedule says who moves next, and with which answer if
the move is an answer; drawing and handing in are atomic. The counter wraps.
-/

namespace MidnightSdk.SharedCounter

open Runs

inductive Worker where
  | idle
  | busy (n : UInt32)
  | left
  deriving DecidableEq, Repr

/-- `done` is in the order of the answers. -/
structure Pool (ι α : Type) where
  next : UInt32
  workers : ι → Worker
  done : List (UInt32 × α)

variable {ι α : Type} [DecidableEq ι]

def Pool.start (first : UInt32) : Pool ι α := ⟨first, fun _ => .idle, []⟩

def Pool.set (p : Pool ι α) (i : ι) (w : Worker) : ι → Worker :=
  fun j => if j = i then w else p.workers j

/-- The next move of a worker. The answer is used if the worker has a number. -/
def Pool.move (last : UInt32) (p : Pool ι α) (m : ι × α) : Pool ι α :=
  match p.workers m.1 with
  | .idle =>
    { p with
      next := p.next + 1
      workers := p.set m.1 (if p.next > last then .left else .busy p.next) }
  | .busy n => { p with workers := p.set m.1 .idle, done := p.done ++ [(n, m.2)] }
  | .left => p

def Pool.Finished (p : Pool ι α) : Prop := ∀ i, p.workers i = .left

instance {n : Nat} (p : Pool (Fin n) α) : Decidable p.Finished :=
  inferInstanceAs (Decidable (∀ _, _ = _))

/-- Every number up to the last is answered, with somebody, or still to be drawn;
answers are of one kind and to such numbers. -/
structure Pool.Covers (first last : UInt32) (P : α → Prop) (p : Pool ι α) : Prop where
  answered : ∀ r ∈ p.done, r.1 ≤ last ∧ P r.2
  drawn : ∀ i n, p.workers i = .busy n → n ≤ last
  covered : ∀ n, first ≤ n → n ≤ last → (∃ a, (n, a) ∈ p.done) ∨
    (∃ i, p.workers i = .busy n) ∨ (p.next ≤ n ∧ ∀ i, p.workers i ≠ .left)

theorem Pool.set_self (p : Pool ι α) (i : ι) (w : Worker) : p.set i w i = w := if_pos rfl

theorem Pool.set_other (p : Pool ι α) {i j : ι} (w : Worker) (h : j ≠ i) :
    p.set i w j = p.workers j := if_neg h

omit [DecidableEq ι] in
theorem Pool.covers_start (first last : UInt32) (P : α → Prop) :
    (Pool.start first : Pool ι α).Covers first last P :=
  ⟨nofun, nofun, fun _ hn _ => .inr (.inr ⟨hn, nofun⟩)⟩

/-- One worker draws a number that is not beyond the last. -/
theorem Pool.covers_draw {first last : UInt32} {P : α → Prop} {p : Pool ι α}
    (h : p.Covers first last P) {i : ι} (hidle : p.workers i = .idle) (hnext : p.next ≤ last) :
    Pool.Covers first last P
      { p with next := p.next + 1, workers := p.set i (.busy p.next) } := by
  constructor
  · exact h.answered
  · intro j n hj
    by_cases hji : j = i
    · subst hji
      exact Worker.busy.inj ((p.set_self j _).symm.trans hj) ▸ hnext
    · exact h.drawn j n ((p.set_other _ hji).symm.trans hj)
  · intro n hfirst hlast
    rcases h.covered n hfirst hlast with hdone | ⟨j, hj⟩ | ⟨hahead, hnone⟩
    · exact .inl hdone
    · have other : j ≠ i := by
        rintro rfl
        exact nomatch hidle.symm.trans hj
      exact .inr (.inl ⟨j, (p.set_other _ other).trans hj⟩)
    · by_cases hn : p.next = n
      · subst hn
        exact .inr (.inl ⟨i, p.set_self i _⟩)
      · refine .inr (.inr ⟨?_, ?_⟩)
        · have below := UInt32.le_iff_toNat_le.mp hahead
          have apart : p.next.toNat ≠ n.toNat := fun same => hn (UInt32.toNat_inj.mp same)
          have range := n.toNat_lt
          rw [UInt32.le_iff_toNat_le, UInt32.toNat_add]
          change (p.next.toNat + 1) % 2 ^ 32 ≤ n.toNat
          omega
        · intro j hj
          by_cases hji : j = i
          · subst hji
            exact nomatch (p.set_self j _).symm.trans hj
          · exact hnone j ((p.set_other _ hji).symm.trans hj)

/-- One worker draws a number beyond the last and leaves. -/
theorem Pool.covers_leave {first last : UInt32} {P : α → Prop} {p : Pool ι α}
    (h : p.Covers first last P) {i : ι} (hidle : p.workers i = .idle) (hnext : p.next > last) :
    Pool.Covers first last P { p with next := p.next + 1, workers := p.set i .left } := by
  have others (j : ι) (n : UInt32) : p.set i .left j = .busy n ↔ p.workers j = .busy n := by
    by_cases hji : j = i
    · subst hji
      rw [set_self, hidle]
      exact ⟨nofun, nofun⟩
    · rw [set_other p _ hji]
  constructor
  · exact h.answered
  · exact fun j n hj => h.drawn j n ((others j n).mp hj)
  · intro n hfirst hlast
    rcases h.covered n hfirst hlast with hdone | ⟨j, hj⟩ | ⟨hahead, -⟩
    · exact .inl hdone
    · exact .inr (.inl ⟨j, (others j n).mpr hj⟩)
    · exact absurd (UInt32.le_trans hahead hlast) (UInt32.not_le.mpr hnext)

/-- One worker hands in its answer. -/
theorem Pool.covers_answer {first last : UInt32} {P : α → Prop} {p : Pool ι α}
    (h : p.Covers first last P) {i : ι} {n : UInt32} (hbusy : p.workers i = .busy n) {a : α}
    (ha : P a) :
    Pool.Covers first last P { p with workers := p.set i .idle, done := p.done ++ [(n, a)] } := by
  constructor
  · intro r hr
    rcases List.mem_append.mp hr with hr | hr
    · exact h.answered r hr
    · rw [List.mem_singleton.mp hr]
      exact ⟨h.drawn i n hbusy, ha⟩
  · intro j m hj
    by_cases hji : j = i
    · subst hji
      exact nomatch (p.set_self j _).symm.trans hj
    · exact h.drawn j m ((p.set_other _ hji).symm.trans hj)
  · intro m hfirst hlast
    rcases h.covered m hfirst hlast with ⟨b, hb⟩ | ⟨j, hj⟩ | ⟨hahead, hnone⟩
    · exact .inl ⟨b, List.mem_append_left _ hb⟩
    · by_cases hji : j = i
      · subst hji
        obtain rfl := Worker.busy.inj (hbusy.symm.trans hj)
        exact .inl ⟨a, List.mem_append_right _ (List.mem_singleton_self _)⟩
      · exact .inr (.inl ⟨j, (p.set_other _ hji).trans hj⟩)
    · refine .inr (.inr ⟨hahead, ?_⟩)
      intro j hj
      by_cases hji : j = i
      · subst hji
        exact nomatch (p.set_self j _).symm.trans hj
      · exact hnone j ((p.set_other _ hji).symm.trans hj)

theorem Pool.covers_move {first last : UInt32} {P : α → Prop} (p : Pool ι α) (m : ι × α)
    (h : p.Covers first last P) (hm : P m.2) : (p.move last m).Covers first last P := by
  unfold Pool.move
  cases hworker : p.workers m.1 with
  | idle =>
    by_cases hnext : p.next > last
    · simp only [hnext, if_true]
      exact covers_leave h hworker hnext
    · simp only [hnext, if_false]
      exact covers_draw h hworker (UInt32.not_lt.mp hnext)
  | busy n => exact covers_answer h hworker hm
  | left => exact h

/-- **When all have left, every number is answered**, in whatever order they moved. -/
theorem Pool.finished_covers [Nonempty ι] {first last : UInt32} {P : α → Prop} {schedule : List (ι × α)}
    (hanswers : ∀ m ∈ schedule, P m.2)
    (hfinished : (run (Pool.move last) (Pool.start first) schedule).Finished) :
    (∀ r ∈ (run (Pool.move last) (Pool.start first) schedule).done, r.1 ≤ last ∧ P r.2) ∧
      ∀ n, first ≤ n → n ≤ last →
        ∃ a, (n, a) ∈ (run (Pool.move last) (Pool.start first) schedule).done := by
  have covers : (run (Pool.move last) (Pool.start first) schedule).Covers first last P :=
    every_state Pool.covers_move (Pool.covers_start first last P) (everyStep_of_forall hanswers)
      schedule List.prefix_rfl
  refine ⟨covers.answered, ?_⟩
  intro n hfirst hlast
  rcases covers.covered n hfirst hlast with hdone | ⟨i, hi⟩ | ⟨-, hnone⟩
  · exact hdone
  · exact nomatch (hfinished i).symm.trans hi
  · obtain ⟨i⟩ := ‹Nonempty ι›
    exact absurd (hfinished i) (hnone i)

end MidnightSdk.SharedCounter
