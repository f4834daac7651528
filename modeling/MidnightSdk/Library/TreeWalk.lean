import MidnightSdk.Library.FileTree

/-!
# Ways through a tree

A way is gone name by name, staying, going up, or going into an entry. Where there are only
directories and files it leads where its names alone say; and a way from a directory ends
inside it only with names left over once each step up has taken back the one in front of it.
-/

namespace MidnightSdk.FileTree

inductive Step (Name : Type) where
  | stay
  | up
  | into (name : Name)
  deriving DecidableEq, Repr

variable {Name Content : Type}

def Step.follow (p : List Name) : Step Name → List Name
  | stay => p
  | up => p.dropLast
  | into n => p ++ [n]

def follow (p : List Name) (steps : List (Step Name)) : List Name := steps.foldl Step.follow p

theorem follow_append (p : List Name) (steps later : List (Step Name)) :
    follow p (steps ++ later) = follow (follow p steps) later := List.foldl_append

/-! ## What is left of a way -/

/-- How many steps up are left, and the names left behind them. -/
structure Rest (Name : Type) where
  ups : Nat
  names : List Name

/-- A step up takes back the name in front of it. -/
def Rest.add (rest : Rest Name) : Step Name → Rest Name
  | .stay => rest
  | .up => if rest.names.isEmpty then ⟨rest.ups + 1, []⟩ else ⟨rest.ups, rest.names.dropLast⟩
  | .into n => ⟨rest.ups, rest.names ++ [n]⟩

def restOf (steps : List (Step Name)) : Rest Name := steps.foldl Rest.add ⟨0, []⟩

/-- The steps that are left go up from the start, and then along the names. -/
theorem follow_eq (p : List Name) (steps : List (Step Name)) :
    follow p steps = p.take (p.length - (restOf steps).ups) ++ (restOf steps).names := by
  have from_rest (rest : Rest Name) :
      follow (p.take (p.length - rest.ups) ++ rest.names) steps =
        p.take (p.length - (steps.foldl Rest.add rest).ups) ++
          (steps.foldl Rest.add rest).names := by
    induction steps generalizing rest with
    | nil => rfl
    | cons s steps ih =>
      have step : Step.follow (p.take (p.length - rest.ups) ++ rest.names) s =
          p.take (p.length - (rest.add s).ups) ++ (rest.add s).names := by
        cases s with
        | stay => rfl
        | into n => exact List.append_assoc _ _ _
        | up =>
          obtain ⟨ups, names⟩ := rest
          rcases List.eq_nil_or_concat names with rfl | ⟨names, n, rfl⟩
          · have shorter : p.length - (ups + 1) = p.length - ups - 1 := by omega
            have most : p.length - ups ≤ p.length := Nat.sub_le _ _
            simp [Step.follow, Rest.add, List.dropLast_eq_take, shorter, List.take_take, most]
          · simp [Step.follow, Rest.add, List.dropLast_append_of_ne_nil]
      change follow (Step.follow _ s) steps = _
      rw [step, ih, List.foldl_cons]
  have whole := from_rest ⟨0, []⟩
  rwa [Nat.sub_zero, List.take_length, List.append_nil] at whole

/-- **When a way ends inside its start**: the names that are left go on, behind the names
of the start that they first come back along. -/
theorem follow_inside_iff {p : List Name} {steps : List (Step Name)} :
    (∃ rest, rest ≠ [] ∧ follow p steps = p ++ rest) ↔
      ∃ rest, rest ≠ [] ∧
        (restOf steps).names = p.drop (p.length - (restOf steps).ups) ++ rest := by
  apply exists_congr
  intro rest
  have inside : p ++ rest = p.take (p.length - (restOf steps).ups) ++
      (p.drop (p.length - (restOf steps).ups) ++ rest) := by
    rw [← List.append_assoc, List.take_append_drop]
  rw [follow_eq, inside, List.append_right_inj]

namespace Tree

/-! ## Going a way -/

/-- Every step leaves from a directory and finds something. -/
def walk (t : Tree Name Content) : List Name → List (Step Name) → Option (List Name)
  | p, [] => some p
  | p, s :: steps =>
    if isDirectory (t.entry p) && (t.entry (s.follow p)).isSome then walk t (s.follow p) steps
    else none

variable [DecidableEq Name]

/-- What a step goes into is made if it is missing. -/
def makeEntry (t : Tree Name Content) (p : List Name) : Step Name → Option (Tree Name Content)
  | .stay => some t
  | .up => some t
  | .into n => t.createDirectories (p ++ [n])

/-- Every step leaves from a directory, and the entries that are missing are made. -/
def makeWay : Tree Name Content → List Name → List (Step Name) → Option (Tree Name Content)
  | t, _, [] => some t
  | t, p, s :: steps =>
    if isDirectory (t.entry p) then
      (t.makeEntry p s).bind fun t => makeWay t (s.follow p) steps
    else none

variable {t t' : Tree Name Content}

omit [DecidableEq Name] in
theorem walk_eq_follow {p q : List Name} {steps : List (Step Name)}
    (h : t.walk p steps = some q) : q = follow p steps := by
  induction steps generalizing p with
  | nil => exact (Option.some.inj h).symm
  | cons s steps ih =>
    rw [walk] at h
    split at h
    · exact ih h
    · cases h

omit [DecidableEq Name] in
/-- A file is gone into with the last step. -/
theorem last_of_walk_file {p q : List Name} {steps : List (Step Name)} {c : Content}
    (h : t.walk p steps = some q) (hsteps : steps ≠ []) (file : t.entry q = some (.file c)) :
    ∃ r n, q = r ++ [n] ∧ steps.getLast? = some (.into n) := by
  induction steps generalizing p with
  | nil => exact absurd rfl hsteps
  | cons s steps ih =>
    rw [walk] at h
    split at h
    · rename_i found
      rw [Bool.and_eq_true, isDirectory_iff] at found
      by_cases last : steps = []
      · subst last
        obtain rfl := Option.some.inj h
        cases s with
        | into n => exact ⟨p, n, rfl, rfl⟩
        | stay =>
          rw [Step.follow, found.1] at file
          cases file
        | up =>
          rw [Step.follow, t.directory_of_prefix found.1 (List.dropLast_prefix p)] at file
          cases file
      · obtain ⟨r, n, hq, hlast⟩ := ih h last
        refine ⟨r, n, hq, ?_⟩
        rw [List.getLast?_cons, hlast]
        rfl
    · cases h

/-- Only directories appear, where there was nothing. -/
theorem makeEntry_cases {p : List Name} {s : Step Name} (h : t.makeEntry p s = some t')
    (q : List Name) :
    t'.entry q = t.entry q ∨ (t.entry q = none ∧ t'.entry q = some .directory) := by
  cases s with
  | into n =>
    rcases createDirectories_cases h q with same | ⟨-, free, dir⟩
    · exact .inl same
    · exact .inr ⟨free, dir⟩
  | _ =>
    obtain rfl := Option.some.inj h
    exact .inl rfl

theorem directory_of_makeEntry {p : List Name} {s : Step Name} (h : t.makeEntry p s = some t')
    (dir : t.entry p = some .directory) : t'.entry (s.follow p) = some .directory := by
  cases s with
  | stay =>
    obtain rfl := Option.some.inj h
    exact dir
  | up =>
    obtain rfl := Option.some.inj h
    exact t.directory_of_prefix dir (List.dropLast_prefix p)
  | into n => exact directory_of_createDirectories h

theorem makeWay_cons {p : List Name} {s : Step Name} {steps : List (Step Name)} :
    t.makeWay p (s :: steps) = some t' ↔ t.entry p = some .directory ∧
      ∃ made, t.makeEntry p s = some made ∧ made.makeWay (s.follow p) steps = some t' := by
  rw [makeWay, ← isDirectory_iff]
  split
  · simp [Option.bind_eq_some_iff, *]
  · simp [*]

theorem makeWay_cases {p : List Name} {steps : List (Step Name)}
    (h : t.makeWay p steps = some t') (q : List Name) :
    t'.entry q = t.entry q ∨ (t.entry q = none ∧ t'.entry q = some .directory) := by
  induction steps generalizing t p with
  | nil =>
    obtain rfl := Option.some.inj h
    exact .inl rfl
  | cons s steps ih =>
    obtain ⟨-, made, hmade, hrest⟩ := makeWay_cons.mp h
    rcases makeEntry_cases hmade q with same | ⟨free, dir⟩
    · rw [← same]
      exact ih hrest
    · rcases ih hrest with later | ⟨none, -⟩
      · exact .inr ⟨free, later.trans dir⟩
      · rw [dir] at none
        cases none

/-- A way that was made ends in a directory. -/
theorem directory_of_makeWay {p : List Name} {steps : List (Step Name)}
    (h : t.makeWay p steps = some t') (dir : t.entry p = some .directory) :
    t'.entry (follow p steps) = some .directory := by
  induction steps generalizing t p with
  | nil =>
    obtain rfl := Option.some.inj h
    exact dir
  | cons s steps ih =>
    obtain ⟨-, made, hmade, hrest⟩ := makeWay_cons.mp h
    exact ih hrest (directory_of_makeEntry hmade dir)

/-! ## Trees that differ in files of one directory -/

/-- Files of the directory were written, over files or where there was nothing. -/
def WrittenIn (d : List Name) (t t' : Tree Name Content) : Prop :=
  ∀ q, t'.entry q = t.entry q ∨
    ∃ n c, q = d ++ [n] ∧ t'.entry q = some (.file c) ∧ t.entry q ≠ some .directory

theorem writtenIn_of_writeFile {d : List Name} {n : Name} {c : Content}
    (h : t.writeFile (d ++ [n]) c = some t') : WrittenIn d t t' := by
  intro q
  by_cases here : q = d ++ [n]
  · rw [entry_writeFile h, if_pos here, here]
    exact .inr ⟨n, c, rfl, rfl, not_directory_of_writeFile h⟩
  · exact .inl ((entry_writeFile h q).trans (if_neg here))

omit [DecidableEq Name] in
theorem WrittenIn.refl (d : List Name) (t : Tree Name Content) : WrittenIn d t t :=
  fun _ => .inl rfl

omit [DecidableEq Name] in
theorem WrittenIn.directory_iff {d : List Name} (h : WrittenIn d t t') (q : List Name) :
    t'.entry q = some .directory ↔ t.entry q = some .directory := by
  rcases h q with same | ⟨n, c, -, file, other⟩
  · rw [same]
  · rw [file]
    exact iff_of_false nofun other

omit [DecidableEq Name] in
theorem WrittenIn.isSome {d : List Name} (h : WrittenIn d t t') {q : List Name}
    (found : (t.entry q).isSome = true) : (t'.entry q).isSome = true := by
  rcases h q with same | ⟨n, c, -, file, -⟩
  · rwa [same]
  · rw [file]
    rfl

omit [DecidableEq Name] in
theorem WrittenIn.trans {d : List Name} {t'' : Tree Name Content} (h : WrittenIn d t t')
    (h' : WrittenIn d t' t'') : WrittenIn d t t'' := by
  intro q
  rcases h' q with same | ⟨n, c, here, file, other⟩
  · rw [same]
    exact h q
  · exact .inr ⟨n, c, here, file, mt (h.directory_iff q).mpr other⟩

omit [DecidableEq Name] in
/-- A way that could be gone still can. -/
theorem WrittenIn.walk {d p q : List Name} {steps : List (Step Name)} (h : WrittenIn d t t')
    (found : t.walk p steps = some q) : t'.walk p steps = some q := by
  induction steps generalizing p with
  | nil => exact found
  | cons s steps ih =>
    rw [Tree.walk] at found ⊢
    split at found
    · rename_i goes
      rw [Bool.and_eq_true, isDirectory_iff] at goes
      have goes' : isDirectory (t'.entry p) && (t'.entry (s.follow p)).isSome := by
        rw [Bool.and_eq_true, isDirectory_iff]
        exact ⟨(h.directory_iff p).mpr goes.1, h.isSome goes.2⟩
      rw [if_pos goes']
      exact ih found
    · cases found

omit [DecidableEq Name] in
/-- A way that can be gone only now leads to one of the files. -/
theorem WrittenIn.walk_cases {d p q : List Name} {steps : List (Step Name)} (h : WrittenIn d t t')
    (found : t'.walk p steps = some q) : t.walk p steps = some q ∨ ∃ n, q = d ++ [n] := by
  induction steps generalizing p with
  | nil => exact .inl found
  | cons s steps ih =>
    rw [Tree.walk] at found ⊢
    split at found
    · rename_i goes
      rw [Bool.and_eq_true, isDirectory_iff] at goes
      have dir := (h.directory_iff p).mp goes.1
      rcases h (s.follow p) with same | ⟨n, c, here, file, -⟩
      · rw [same] at goes
        rw [if_pos (by rw [Bool.and_eq_true, isDirectory_iff]; exact ⟨dir, goes.2⟩)]
        exact ih found
      · -- nothing can be gone into behind a file
        cases steps with
        | nil =>
          obtain rfl := Option.some.inj found
          exact .inr ⟨n, here⟩
        | cons s' steps =>
          rw [Tree.walk, file] at found
          cases found
    · cases found

end Tree

/-! ## Files written into one directory -/

/-- What is found after files were written into a directory, one after the other. -/
def written [DecidableEq Name] (d : List Name) (files : List (Name × Content))
    (entry : List Name → Option (Entry Content)) : List Name → Option (Entry Content) :=
  files.foldl (fun entry f q => if q = d ++ [f.1] then some (.file f.2) else entry q) entry

/-- The last file of its name. -/
def Survives (files : List (Name × Content)) (f : Name × Content) : Prop :=
  ∃ front later, files = front ++ f :: later ∧ ∀ g ∈ later, g.1 ≠ f.1

theorem exists_survivor {files : List (Name × Content)} {f : Name × Content} (h : f ∈ files) :
    ∃ g, Survives files g ∧ g.1 = f.1 := by
  induction files using List.reverseRecOn with
  | nil => cases h
  | append_singleton files g ih =>
    by_cases same : g.1 = f.1
    · exact ⟨g, ⟨files, [], rfl, by simp⟩, same⟩
    · rcases List.mem_append.mp h with earlier | last
      · obtain ⟨e, ⟨front, later, rfl, others⟩, name⟩ := ih earlier
        refine ⟨e, ⟨front, later ++ [g], by simp, ?_⟩, name⟩
        intro x hx
        rcases List.mem_append.mp hx with hx | hx
        · exact others x hx
        · rw [List.mem_singleton.mp hx, name]
          exact same
      · exact absurd (List.mem_singleton.mp last ▸ rfl) same

section Written
variable [DecidableEq Name] {d : List Name} {entry : List Name → Option (Entry Content)}

theorem written_append (files later : List (Name × Content)) :
    written d (files ++ later) entry = written d later (written d files entry) :=
  List.foldl_append

theorem written_of_not_mem {files : List (Name × Content)} {n : Name}
    (h : ∀ f ∈ files, f.1 ≠ n) : written d files entry (d ++ [n]) = entry (d ++ [n]) := by
  induction files generalizing entry with
  | nil => rfl
  | cons f files ih =>
    obtain ⟨here, later⟩ := List.forall_mem_cons.mp h
    have other : d ++ [n] ≠ d ++ [f.1] := by simpa using Ne.symm here
    rw [written, List.foldl_cons]
    change written d files _ _ = _
    rw [ih later, if_neg other]

theorem written_of_survives {files : List (Name × Content)} {f : Name × Content}
    (h : Survives files f) : written d files entry (d ++ [f.1]) = some (.file f.2) := by
  obtain ⟨front, later, rfl, last⟩ := h
  rw [written_append, written, List.foldl_cons]
  change written d later _ _ = _
  rw [written_of_not_mem last, if_pos rfl]

theorem written_elsewhere (files : List (Name × Content)) {q : List Name}
    (h : ∀ n, q ≠ d ++ [n]) : written d files entry q = entry q := by
  induction files generalizing entry with
  | nil => rfl
  | cons f files ih =>
    rw [written, List.foldl_cons]
    change written d files _ _ = _
    rw [ih, if_neg (h f.1)]

/-- **The contents that are left** are those of the last files of their names. -/
theorem exists_written_iff {files : List (Name × Content)} {c : Content} :
    (∃ f ∈ files, written d files entry (d ++ [f.1]) = some (.file c)) ↔
      ∃ f, Survives files f ∧ f.2 = c := by
  constructor
  · rintro ⟨f, hf, left⟩
    obtain ⟨g, survives, same⟩ := exists_survivor hf
    rw [← same, written_of_survives survives] at left
    cases left
    exact ⟨g, survives, rfl⟩
  · rintro ⟨f, survives, rfl⟩
    refine ⟨f, ?_, written_of_survives survives⟩
    obtain ⟨front, later, rfl, -⟩ := survives
    simp

end Written

end MidnightSdk.FileTree
