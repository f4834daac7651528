import Mathlib.Data.List.Dedup
import Mathlib.Data.List.Infix
import Mathlib.Tactic.Common

/-!
# Trees of files and directories

A path is the list of its names. Copying a directory into another one adds to what
is there: nothing is removed, and a file that meets a directory of its name goes
into that directory.
-/

namespace MidnightSdk.FileTree

inductive Entry (Content : Type) where
  | file (content : Content)
  | directory
  deriving DecidableEq, Repr

def isFile {Content : Type} : Option (Entry Content) → Bool
  | some (.file _) => true
  | _ => false

def isDirectory {Content : Type} : Option (Entry Content) → Bool
  | some .directory => true
  | _ => false

theorem isDirectory_iff {Content : Type} {e : Option (Entry Content)} :
    isDirectory e = true ↔ e = some .directory := by
  rcases e with - | - | - <;> simp [isDirectory]

theorem isFile_iff {Content : Type} {e : Option (Entry Content)} :
    isFile e = true ↔ ∃ c, e = some (.file c) := by
  rcases e with - | c | - <;> simp [isFile]

/-- Where a file goes that meets a directory of its name: into it. -/
def inside {Name : Type} (r : List Name) : List Name := r ++ r.getLast?.toList

/-- A directory laid over another one, by the paths inside them. -/
def overlay {Name Content : Type} [DecidableEq Name]
    (source target : List Name → Option (Entry Content)) (r : List Name) : Option (Entry Content) :=
  match source r with
  | some (.file c) => if isDirectory (target r) then some .directory else some (.file c)
  | some .directory => some .directory
  | none =>
    if r = inside r.dropLast ∧ isDirectory (target r.dropLast) = true then
      match source r.dropLast with
      | some (.file c) => some (.file c)
      | _ => target r
    else target r

section Overlay
variable {Name Content : Type} [DecidableEq Name]
  {source target : List Name → Option (Entry Content)} {r : List Name}

theorem overlay_file {c : Content} (h : source r = some (.file c)) :
    overlay source target r =
      if isDirectory (target r) then some .directory else some (.file c) := by
  rw [overlay, h]

/-- What is found in an overlay comes from the source, or was there, or was put inside. -/
theorem overlay_cases : overlay source target r = target r ∨ source r ≠ none ∨
    (r = inside r.dropLast ∧ isDirectory (target r.dropLast) = true ∧
      ∃ c, source r.dropLast = some (.file c) ∧ overlay source target r = some (.file c)) := by
  cases found : source r with
  | some e => exact .inr (.inl nofun)
  | none =>
    by_cases put : r = inside r.dropLast ∧ isDirectory (target r.dropLast) = true
    · cases above : source r.dropLast with
      | none => exact .inl (by simp [overlay, found, above])
      | some e =>
        cases e with
        | directory => exact .inl (by simp [overlay, found, above])
        | file c => exact .inr (.inr ⟨put.1, put.2, c, rfl, by simp only [overlay, found, above, if_pos put]⟩)
    · exact .inl (by simp only [overlay, found, if_neg put])

end Overlay

/-- Finitely many paths lead to an entry, and every one of them through directories. -/
structure Tree (Name Content : Type) where
  entry : List Name → Option (Entry Content)
  paths : List (List Name)
  complete : ∀ p, entry p ≠ none → p ∈ paths
  root : entry [] = some .directory
  closed : ∀ p n, entry (p ++ [n]) ≠ none → entry p = some .directory

variable {Name Content : Type}

namespace Tree

variable (t : Tree Name Content)

/-- Only below a directory there is something. -/
theorem entry_below {p : List Name} (h : t.entry p ≠ some .directory) {r : List Name}
    (hr : r ≠ []) : t.entry (p ++ r) = none := by
  induction r using List.reverseRecOn with
  | nil => exact absurd rfl hr
  | append_singleton r n ih =>
    by_contra found
    rw [← List.append_assoc] at found
    have dir := t.closed _ _ found
    by_cases empty : r = []
    · rw [empty, List.append_nil] at dir
      exact h dir
    · rw [ih empty] at dir
      cases dir

theorem directory_of_prefix {p q : List Name} (dir : t.entry p = some .directory) (h : q <+: p) :
    t.entry q = some .directory := by
  obtain ⟨r, rfl⟩ := h
  by_contra other
  by_cases empty : r = []
  · rw [empty, List.append_nil] at dir
    exact other dir
  · rw [t.entry_below other empty] at dir
    cases dir

variable [DecidableEq Name]

/-- Nothing but the root. -/
def empty : Tree Name Content where
  entry p := if p = [] then some .directory else none
  paths := [[]]
  complete p found := by
    by_cases root : p = []
    · rw [root]
      exact List.mem_cons_self
    · exact absurd (if_neg root) found
  root := rfl
  closed p n found := absurd (if_neg (by simp)) found

omit [DecidableEq Name] in
theorem entry_empty {p : List Name} (h : p ≠ []) :
    (Tree.empty : Tree Name Content).entry p = none := if_neg h

/-! ## Making directories -/

/-- The directory and all above it; a file in the way is an error. -/
def createDirectories (p : List Name) : Option (Tree Name Content) :=
  if blocked : ∃ q ∈ p.inits, isFile (t.entry q) then none
  else some
    { entry := fun q => if q <+: p ∧ t.entry q = none then some .directory else t.entry q
      paths := p.inits ++ t.paths
      complete := by
        intro q hq
        by_cases new : q <+: p ∧ t.entry q = none
        · exact List.mem_append_left _ ((List.mem_inits _ _).mpr new.1)
        · rw [if_neg new] at hq
          exact List.mem_append_right _ (t.complete q hq)
      root := by
        rw [if_neg]
        · exact t.root
        · rw [t.root]
          nofun
      closed := by
        intro q n hq
        by_cases new : q ++ [n] <+: p ∧ t.entry (q ++ [n]) = none
        · have above : q <+: p := (List.prefix_append q [n]).trans new.1
          cases h : t.entry q with
          | none => simp [above]
          | some e =>
            cases e with
            | directory => simp
            | file c => exact absurd ⟨q, (List.mem_inits _ _).mpr above, by rw [h]; rfl⟩ blocked
        · rw [if_neg new] at hq
          have dir := t.closed q n hq
          rw [dir, if_neg]
          rintro ⟨-, none⟩
          cases none }

variable {t} {t' : Tree Name Content}

theorem entry_createDirectories {p : List Name} (h : t.createDirectories p = some t')
    (q : List Name) :
    t'.entry q = if q <+: p ∧ t.entry q = none then some .directory else t.entry q := by
  unfold createDirectories at h
  split at h
  · cases h
  · cases h
    rfl

/-- Only directories appear, and only above the path. -/
theorem createDirectories_cases {p : List Name} (h : t.createDirectories p = some t')
    (q : List Name) :
    t'.entry q = t.entry q ∨ (q <+: p ∧ t.entry q = none ∧ t'.entry q = some .directory) := by
  rw [entry_createDirectories h]
  split
  · rename_i new
    exact .inr ⟨new.1, new.2, rfl⟩
  · exact .inl rfl

theorem directory_of_createDirectories {p : List Name} (h : t.createDirectories p = some t') :
    t'.entry p = some .directory := by
  have unblocked : ¬ isFile (t.entry p) = true := by
    intro file
    rw [createDirectories, dif_pos ⟨p, (List.mem_inits _ _).mpr List.prefix_rfl, file⟩] at h
    cases h
  rw [entry_createDirectories h]
  rcases found : t.entry p with - | c | -
  · simp
  · rw [found] at unblocked
    exact absurd rfl unblocked
  · simp

/-! ## Writing a file -/

variable (t)

/-- The directory around the file must be there, and no directory in its place. -/
def writeFile (p : List Name) (c : Content) : Option (Tree Name Content) :=
  if fits : p ≠ [] ∧ isDirectory (t.entry p.dropLast) = true ∧ ¬ isDirectory (t.entry p) = true then
    some
      { entry := fun q => if q = p then some (.file c) else t.entry q
        paths := p :: t.paths
        complete := by
          intro q hq
          by_cases here : q = p
          · exact here ▸ List.mem_cons_self
          · rw [if_neg here] at hq
            exact List.mem_cons_of_mem _ (t.complete q hq)
        root := by
          rw [if_neg (Ne.symm fits.1)]
          exact t.root
        closed := by
          intro q n hq
          have around := isDirectory_iff.mp fits.2.1
          by_cases here : q ++ [n] = p
          · have parent : q = p.dropLast := by rw [← here, List.dropLast_concat]
            have other : q ≠ p := by
              rw [← here]
              simp
            rw [if_neg other, parent]
            exact around
          · rw [if_neg here] at hq
            have dir := t.closed q n hq
            have other : q ≠ p := by
              rintro rfl
              exact fits.2.2 (isDirectory_iff.mpr dir)
            rw [if_neg other]
            exact dir }
  else none

/-- `std::filesystem::copy_file`, replacing what is there. A file is not copied onto itself. -/
def copyFile (source target : List Name) : Option (Tree Name Content) :=
  match t.entry source with
  | some (.file c) => if source = target then none else t.writeFile target c
  | _ => none

variable {t}

theorem entry_writeFile {p : List Name} {c : Content} (h : t.writeFile p c = some t')
    (q : List Name) : t'.entry q = if q = p then some (.file c) else t.entry q := by
  unfold writeFile at h
  split at h
  · cases h
    rfl
  · cases h

theorem not_directory_of_writeFile {p : List Name} {c : Content} (h : t.writeFile p c = some t') :
    t.entry p ≠ some .directory := by
  unfold writeFile at h
  split at h
  · rename_i fits
    exact fun dir => fits.2.2 (isDirectory_iff.mpr dir)
  · cases h

theorem copyFile_eq_some {source target : List Name} : t.copyFile source target = some t' ↔
    ∃ c, t.entry source = some (.file c) ∧ source ≠ target ∧ t.writeFile target c = some t' := by
  rw [copyFile]
  rcases t.entry source with - | c | -
  · simp
  · by_cases same : source = target <;> simp [same]
  · simp

/-! ## Removing and renaming -/

variable (t)

/-- `std::filesystem::remove` of what is there: a file, or a directory with nothing in it. -/
def remove (p : List Name) : Option (Tree Name Content) :=
  if free : p ≠ [] ∧ t.entry p ≠ none ∧ ∀ q ∈ t.paths, q.dropLast = p → t.entry q = none then
    some
      { entry := fun q => if q = p then none else t.entry q
        paths := t.paths
        complete := by
          intro q hq
          by_cases here : q = p
          · exact absurd (if_pos here) hq
          · rw [if_neg here] at hq
            exact t.complete q hq
        root := by
          rw [if_neg (Ne.symm free.1)]
          exact t.root
        closed := by
          intro q n hq
          by_cases gone : q ++ [n] = p
          · exact absurd (if_pos gone) hq
          · rw [if_neg gone] at hq
            have other : q ≠ p := by
              rintro rfl
              exact hq (free.2.2 _ (t.complete _ hq) List.dropLast_concat)
            rw [if_neg other]
            exact t.closed q n hq }
  else none

/-- `std::filesystem::rename` of a file, to where no directory is. -/
def rename (p q : List Name) : Option (Tree Name Content) :=
  match t.entry p with
  | some (.file c) => if p = q then some t else (t.writeFile q c).bind (·.remove p)
  | _ => none

/-- The file a path leads to. -/
def file? (p : List Name) : Option Content :=
  match t.entry p with
  | some (.file c) => some c
  | _ => none

/-- What a directory holds, each name once. -/
def names (p : List Name) : List Name :=
  (t.paths.filterMap fun q =>
    if q.dropLast = p ∧ (t.entry q).isSome then q.getLast? else none).dedup

variable {t}

theorem entry_remove {p : List Name} (h : t.remove p = some t') (q : List Name) :
    t'.entry q = if q = p then none else t.entry q := by
  unfold remove at h
  split at h
  · cases h
    rfl
  · cases h

/-- A file can always be removed. -/
theorem exists_remove {p : List Name} {c : Content} (h : t.entry p = some (.file c)) :
    ∃ t', t.remove p = some t' := by
  have below : p ≠ [] ∧ t.entry p ≠ none ∧ ∀ q ∈ t.paths, q.dropLast = p → t.entry q = none := by
    refine ⟨?_, by rw [h]; nofun, ?_⟩
    · rintro rfl
      rw [t.root] at h
      cases h
    · rintro q - rfl
      by_contra found
      rcases List.eq_nil_or_concat q with rfl | ⟨r, n, rfl⟩
      · rw [List.dropLast_nil, t.root] at h
        cases h
      · rw [List.concat_eq_append] at found h
        rw [List.dropLast_concat, t.closed r n found] at h
        cases h
  exact ⟨_, dif_pos below⟩

theorem exists_writeFile {p : List Name} (hne : p ≠ []) (around : t.entry p.dropLast = some .directory)
    (h : t.entry p ≠ some .directory) (c : Content) : ∃ t', t.writeFile p c = some t' :=
  ⟨_, dif_pos ⟨hne, isDirectory_iff.mpr around, fun dir => h (isDirectory_iff.mp dir)⟩⟩

theorem exists_overwrite {p : List Name} {d : Content} (h : t.entry p = some (.file d))
    (c : Content) : ∃ t', t.writeFile p c = some t' := by
  obtain ⟨r, n, rfl⟩ : ∃ (r : List Name) (n : Name), p = r.concat n := by
    apply (List.eq_nil_or_concat p).resolve_left
    rintro rfl
    rw [t.root] at h
    cases h
  rw [List.concat_eq_append] at h ⊢
  have around : t.entry (r ++ [n]).dropLast = some .directory := by
    rw [List.dropLast_concat]
    apply t.closed r n
    rw [h]
    nofun
  apply exists_writeFile (by simp) around
  rw [h]
  nofun

/-- A file moves to another place of some directory, where no directory is. -/
theorem exists_rename {p q : List Name} {c : Content} (hp : t.entry p = some (.file c))
    (other : p ≠ q) (hne : q ≠ []) (around : t.entry q.dropLast = some .directory)
    (hq : t.entry q ≠ some .directory) :
    ∃ t', t.rename p q = some t' ∧ ∀ r, t'.entry r =
      if r = p then none else if r = q then some (.file c) else t.entry r := by
  obtain ⟨written, hwritten⟩ := exists_writeFile hne around hq c
  have still : written.entry p = some (.file c) := by
    rw [entry_writeFile hwritten, if_neg other, hp]
  obtain ⟨t', ht'⟩ := exists_remove still
  refine ⟨t', ?_, ?_⟩
  · rw [rename, hp]
    simp only [if_neg other, hwritten, Option.bind_some, ht']
  · intro r
    rw [entry_remove ht', entry_writeFile hwritten]

theorem mem_names {p : List Name} {n : Name} : n ∈ t.names p ↔ t.entry (p ++ [n]) ≠ none := by
  rw [names, List.mem_dedup, List.mem_filterMap]
  constructor
  · rintro ⟨q, -, hq⟩
    by_cases here : q.dropLast = p ∧ (t.entry q).isSome
    · rw [if_pos here] at hq
      rw [← here.1, List.dropLast_append_getLast? n hq]
      exact Option.isSome_iff_ne_none.mp here.2
    · rw [if_neg here] at hq
      cases hq
  · intro found
    refine ⟨p ++ [n], t.complete _ found, ?_⟩
    rw [if_pos ⟨List.dropLast_concat, Option.isSome_iff_ne_none.mpr found⟩, List.getLast?_concat]

omit [DecidableEq Name] in
theorem file?_eq_some {p : List Name} {c : Content} :
    t.file? p = some c ↔ t.entry p = some (.file c) := by
  rw [file?]
  rcases t.entry p with - | d | - <;> simp

theorem file?_remove {p : List Name} (h : t.remove p = some t') (q : List Name) :
    t'.file? q = if q = p then none else t.file? q := by
  rw [file?, file?, entry_remove h]
  by_cases here : q = p
  · rw [if_pos here, if_pos here]
  · rw [if_neg here, if_neg here]

theorem file?_writeFile {p : List Name} {c : Content} (h : t.writeFile p c = some t')
    (q : List Name) : t'.file? q = if q = p then some c else t.file? q := by
  rw [file?, file?, entry_writeFile h]
  by_cases here : q = p
  · rw [if_pos here, if_pos here]
  · rw [if_neg here, if_neg here]

theorem file?_createDirectories {p : List Name} (h : t.createDirectories p = some t')
    (q : List Name) : t'.file? q = t.file? q := by
  rcases createDirectories_cases h q with same | ⟨-, none, dir⟩
  · rw [file?, file?, same]
  · rw [file?, file?, none, dir]

theorem file?_rename {p q : List Name} {c : Content} (hp : t.entry p = some (.file c))
    (other : p ≠ q) (h : t.rename p q = some t') : t'.file? q = some c := by
  rw [rename, hp] at h
  simp only [if_neg other] at h
  obtain ⟨written, hwritten, hremoved⟩ := Option.bind_eq_some_iff.mp h
  rw [file?_remove hremoved, if_neg (Ne.symm other), file?_writeFile hwritten, if_pos rfl]

theorem names_nodup (p : List Name) : (t.names p).Nodup := List.nodup_dedup _

/-! ## Copying a directory -/

variable (t)

/-- Whether the entry at `p`, inside `source`, can go to its place inside `target`. -/
def fits (source target p : List Name) : Bool :=
  let r := p.drop source.length
  match t.entry p with
  | none => true
  | some .directory => !isFile (t.entry (target ++ r))
  | some (.file _) =>
    !isDirectory (t.entry (target ++ r)) ||
      (!isDirectory (t.entry (target ++ inside r)) && decide (p ≠ target ++ inside r))

/-- Why a recursive copy fails: one of the two is no directory, the copy would go
into itself, or an entry does not fit. -/
def Blocked (source target : List Name) : Prop :=
  isDirectory (t.entry source) = false ∨ isDirectory (t.entry target) = false ∨
    source <+: target ∨ ∃ p ∈ t.paths, source <+: p ∧ t.fits source target p = false

instance (source target : List Name) : Decidable (t.Blocked source target) :=
  inferInstanceAs (Decidable (_ ∨ _ ∨ _ ∨ _))

variable {t}

end Tree

end MidnightSdk.FileTree
