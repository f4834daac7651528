import Mathlib.Data.List.Perm.Basic

/-!
# Pieces of the C++ standard library

The exceptions a function can throw, and the algorithms whose result the
standard leaves open: each is a record holding one admissible choice together
with the guarantee the standard gives, so a theorem about every such record
holds for every implementation and every random draw.
-/

namespace MidnightSdk.Cpp

/-- `typeError id` is a JSON library type error, which carries its number. -/
inductive Exception where
  | runtimeError (what : String)
  | overflowError (what : String)
  | lengthError (what : String)
  | invalidArgument (what : String)
  | outOfRange (what : String)
  | typeError (id : Nat)
  deriving DecidableEq, Repr

/-- `e.what()`; the texts of the JSON library's type errors are given. -/
def Exception.what (typeErrorText : Nat → String) : Exception → String
  | .runtimeError what | .overflowError what | .lengthError what | .invalidArgument what
  | .outOfRange what => what
  | .typeError id => typeErrorText id

abbrev Throws := Except Exception

theorem ok_bind {ε α β : Type} (a : α) (f : α → Except ε β) : (Except.ok a >>= f) = f a := rfl

/-- A sequence of steps returns exactly when each of them does. -/
theorem bind_eq_ok {ε α β : Type} {x : Except ε α} {f : α → Except ε β} {b : β} :
    (x >>= f) = .ok b ↔ ∃ a, x = .ok a ∧ f a = .ok b := by
  cases x with
  | error e => simp [bind, Except.bind]
  | ok a => simp [bind, Except.bind]

/-- What is returned, if anything, has a property. -/
def IfReturns {α : Type} (R : α → Prop) (x : Throws α) : Prop := ∀ a, x = .ok a → R a

theorem ifReturns_pure {α : Type} {R : α → Prop} {a : α} (h : R a) :
    IfReturns R (pure a : Throws α) := by
  intro b hb
  cases hb
  exact h

theorem ifReturns_bind {α β : Type} {R : β → Prop} {x : Throws α} {f : α → Throws β}
    (h : ∀ a, IfReturns R (f a)) : IfReturns R (x >>= f) := by
  intro b hb
  obtain ⟨a, -, hf⟩ := bind_eq_ok.mp hb
  exact h a b hf

/-- Something is returned, and it has a property. -/
def Yields {α : Type} (R : α → Prop) (x : Throws α) : Prop := ∃ a, x = .ok a ∧ R a

theorem yields_pure {α : Type} {R : α → Prop} {a : α} : Yields R (pure a : Throws α) ↔ R a := by
  constructor
  · rintro ⟨b, hb, h⟩
    cases hb
    exact h
  · exact fun h => ⟨a, rfl, h⟩

theorem yields_bind {α β : Type} {R : β → Prop} {x : Throws α} {f : α → Throws β} :
    Yields R (x >>= f) ↔ ∃ a, x = .ok a ∧ Yields R (f a) := by
  constructor
  · rintro ⟨b, hb, h⟩
    obtain ⟨a, ha, hf⟩ := bind_eq_ok.mp hb
    exact ⟨a, ha, b, hf, h⟩
  · rintro ⟨a, ha, b, hf, h⟩
    exact ⟨b, bind_eq_ok.mpr ⟨a, ha, hf⟩, h⟩

/-- Two steps with the same results, whatever their errors, continue alike. -/
theorem toOption_bind_return {α β : Type} {x y : Throws α} (h : x.toOption = y.toOption)
    (f : α → β) :
    (x >>= fun a => return f a).toOption = (y >>= fun a => return f a).toOption := by
  cases x with
  | error e =>
    cases y with
    | error e' => rfl
    | ok b => cases h
  | ok a =>
    cases y with
    | error e' => cases h
    | ok b =>
      cases h
      rfl

/-- Reading each element and then going on with it is reading them all first. -/
theorem foldlM_read {α β σ : Type} (f : σ → β → σ) (read : α → Throws β) (xs : List α) (s : σ) :
    xs.foldlM (fun s x => return f s (← read x)) s =
      (fun bs => bs.foldl f s) <$> xs.mapM read := by
  induction xs generalizing s with
  | nil => rfl
  | cons x xs ih =>
    rw [List.foldlM_cons, List.mapM_cons, bind_assoc, map_bind]
    apply bind_congr
    intro b
    rw [pure_bind, ih (f s b), map_bind, map_eq_pure_bind]
    rfl

theorem isEmpty_of_mapM {α β : Type} {read : α → Throws β} {xs : List α} {ys : List β}
    (h : xs.mapM read = .ok ys) : ys.isEmpty = xs.isEmpty := by
  cases xs with
  | nil =>
    cases h
    rfl
  | cons x xs =>
    rw [List.mapM_cons] at h
    obtain ⟨y, -, h⟩ := bind_eq_ok.mp h
    obtain ⟨ys, -, h⟩ := bind_eq_ok.mp h
    cases h
    rfl

theorem mapM_reads {α β : Type} {read : α → Throws β} {xs : List α} :
    (∃ ys, xs.mapM read = .ok ys) ↔ ∀ x ∈ xs, ∃ y, read x = .ok y := by
  induction xs with
  | nil => exact ⟨fun _ => nofun, fun _ => ⟨[], rfl⟩⟩
  | cons x xs ih =>
    rw [List.mapM_cons, List.forall_mem_cons, ← ih]
    constructor
    · rintro ⟨ys, h⟩
      obtain ⟨y, hy, h⟩ := bind_eq_ok.mp h
      obtain ⟨rest, hrest, -⟩ := bind_eq_ok.mp h
      exact ⟨⟨y, hy⟩, rest, hrest⟩
    · rintro ⟨⟨y, hy⟩, rest, hrest⟩
      exact ⟨y :: rest, bind_eq_ok.mpr ⟨y, hy, bind_eq_ok.mpr ⟨rest, hrest, rfl⟩⟩⟩

/-- `std::to_string` writes different numbers differently. -/
theorem repr_inj {m n : Nat} : m.repr = n.repr ↔ m = n := by
  refine ⟨fun h => ?_, fun h => h ▸ rfl⟩
  have digits := congrArg String.toList h
  simp only [Nat.toList_repr] at digits
  rw [← @Nat.ofDigitChars_ten_toDigits m, digits, Nat.ofDigitChars_ten_toDigits]

/-- `std::array<uint8_t, n>` -/
abbrev Bytes (n : Nat) : Type := { bytes : List UInt8 // bytes.length = n }

/-- The bytes of an ASCII string literal. -/
def literal (text : String) : List UInt8 := text.toList.map fun c => UInt8.ofNat c.toNat

/-- A text as its bytes: a byte is the character of its code. -/
def bytesOf (text : List Char) : List UInt8 := text.map fun c => UInt8.ofNat c.toNat

def textOf (bytes : List UInt8) : List Char := bytes.map fun b => Char.ofNat b.toNat

theorem toNat_ofNat_byte (b : UInt8) : (Char.ofNat b.toNat).toNat = b.toNat := by
  have range := b.toNat_lt
  have valid : b.toNat.isValidChar := .inl (by omega)
  rw [Char.ofNat, dif_pos valid]
  rfl

theorem bytesOf_textOf (bytes : List UInt8) : bytesOf (textOf bytes) = bytes := by
  induction bytes with
  | nil => rfl
  | cons b bytes ih =>
    have whole : bytesOf (textOf (b :: bytes)) =
        UInt8.ofNat (Char.ofNat b.toNat).toNat :: bytesOf (textOf bytes) := rfl
    rw [whole, ih, toNat_ofNat_byte, UInt8.ofNat_toNat]

/-- `std::isspace` -/
def isSpace (c : UInt8) : Bool := c == 32 || (9 ≤ c && c ≤ 13)

/-- What `stream >> word` reads one after the other. -/
def words (text : List UInt8) : List (List UInt8) :=
  (text.splitOnP isSpace).filter fun w => !w.isEmpty

/-- `std::string::rfind` of a character. -/
def rfind (c : UInt8) (text : List UInt8) : Option Nat :=
  (text.reverse.idxOf? c).map fun i => text.length - 1 - i

theorem rfind_append {c : UInt8} {p q : List UInt8} (h : c ∉ q) :
    rfind c (p ++ c :: q) = some p.length := by
  have behind : q.reverse.findIdx? (· == c) = none := by
    rw [List.findIdx?_eq_none_iff]
    intro x hx
    rw [beq_eq_false_iff_ne]
    rintro rfl
    exact h (List.mem_reverse.mp hx)
  rw [rfind, List.idxOf?, List.reverse_append, List.reverse_cons, List.append_assoc,
    List.singleton_append, List.findIdx?_append, behind, List.findIdx?_cons]
  simp

/-- The place found is the last one. -/
theorem rfind_eq_some {c : UInt8} {text : List UInt8} {pos : Nat} :
    rfind c text = some pos ↔ ∃ p q, text = p ++ c :: q ∧ c ∉ q ∧ p.length = pos := by
  constructor
  · intro h
    have found : c ∈ text := by
      by_contra hnone
      have never : text.reverse.idxOf? c = none := by
        rw [List.idxOf?, List.findIdx?_eq_none_iff]
        intro x hx
        rw [beq_eq_false_iff_ne]
        rintro rfl
        exact hnone (List.mem_reverse.mp hx)
      rw [rfind, never] at h
      cases h
    obtain ⟨q, p, hsplit, hlast⟩ := List.eq_append_cons_of_mem (List.mem_reverse.mpr found)
    have text_eq : text = p.reverse ++ c :: q.reverse := by
      rw [← List.reverse_reverse text, hsplit]
      simp
    have behind : c ∉ q.reverse := fun hq => hlast (List.mem_reverse.mp hq)
    rw [text_eq, rfind_append behind, Option.some.injEq] at h
    exact ⟨p.reverse, q.reverse, text_eq, behind, h⟩
  · rintro ⟨p, q, rfl, hlast, rfl⟩
    exact rfind_append hlast

/-- What holds of the 256 bytes one after the other holds of every byte. -/
theorem forall_byte {P : UInt8 → Prop} (h : ∀ n < 256, P (UInt8.ofNat n)) (b : UInt8) : P b := by
  have found := h b.toNat b.toNat_lt
  rwa [UInt8.ofNat_toNat] at found

/-- `std::shuffle` with some state of its generator. -/
structure Shuffle (α : Type) where
  run : List α → List α
  perm : ∀ l, (run l).Perm l

/-- A shuffle giving one list a chosen order. -/
def Shuffle.answering {α : Type} [DecidableEq α] {l m : List α} (h : m.Perm l) : Shuffle α where
  run k := if k = l then m else k
  perm k := by
    by_cases hk : k = l
    · simpa [hk] using h
    · simp [hk]

/-- What holds of one list under every shuffle holds of all its orders. -/
theorem Shuffle.forall_run_iff {α : Type} [DecidableEq α] {P : List α → Prop} (l : List α) :
    (∀ shuffle : Shuffle α, P (shuffle.run l)) ↔ ∀ m, m.Perm l → P m := by
  constructor
  · intro h m hm
    simpa [Shuffle.answering] using h (Shuffle.answering hm)
  · exact fun h shuffle => h _ (shuffle.perm l)

theorem Shuffle.exists_run_iff {α : Type} [DecidableEq α] {P : List α → Prop} (l : List α) :
    (∃ shuffle : Shuffle α, P (shuffle.run l)) ↔ ∃ m, m.Perm l ∧ P m := by
  constructor
  · rintro ⟨shuffle, h⟩
    exact ⟨_, shuffle.perm l, h⟩
  · rintro ⟨m, hm, h⟩
    exact ⟨Shuffle.answering hm, by simpa [Shuffle.answering] using h⟩

/-- A comparison usable for sorting: strict, with "not greater" transitive. -/
structure StrictWeak {α : Type} (less : α → α → Bool) : Prop where
  asymm : ∀ a b, less a b = true → less b a = false
  trans : ∀ a b c, less b a = false → less c b = false → less c a = false

/-- `std::sort`: it need not be stable, so equal elements come in any order. -/
structure Sorter (α : Type) where
  run : (α → α → Bool) → List α → List α
  perm : ∀ less l, (run less l).Perm l
  sorted : ∀ less l, StrictWeak less → (run less l).Pairwise fun a b => less b a = false

/-- One admissible sorter. -/
def Sorter.merge (α : Type) : Sorter α where
  run less l := l.mergeSort fun a b => !less b a
  perm less l := List.mergeSort_perm l _
  sorted less l h := by
    have total (a b : α) : (!less b a || !less a b) = true := by
      cases hab : less a b
      · simp
      · simp [h.asymm a b hab]
    have hs : (l.mergeSort fun a b => !less b a).Pairwise fun a b => !less b a := by
      refine List.pairwise_mergeSort ?_ total l
      intro a b c hab hbc
      simp only [Bool.not_eq_true'] at hab hbc ⊢
      exact h.trans a b c hab hbc
    simpa using hs

theorem Sorter.merge_of_sorted {α : Type} {less : α → α → Bool} {l : List α}
    (h : l.Pairwise fun a b => less b a = false) : (Sorter.merge α).run less l = l := by
  apply List.mergeSort_of_pairwise
  simpa using h

end MidnightSdk.Cpp
