import MidnightSdk.Library.Overlay
import MidnightSdk.Production.StateBackend

/-!
# What comes out of a snapshot

Both copies lay the source over what is there. The files of a source arrive as they
are exactly when nothing else was in the snapshot's entry or at the destination.
-/

namespace MidnightSdk.Production.LocalStateBackend

open FileTree Ledger

/-! ## One copy -/

section Copy
variable {disk disk' : Disk} {source target : Option Path}

section Directory
variable {s d : Path} {disk₂ : Disk}
  (made : ((disk.createDirectories d.dropLast).getD disk).createDirectories d = some disk₂)
include made

end Directory

end Copy

/-! ## What lies below a path -/

/-- The empty path has nothing below it. -/
def below (disk : Disk) (p : Option Path) : View String (List UInt8) := fun r =>
  p.bind fun p => disk.entry (p ++ r)

section Merge
variable {disk disk' : Disk} {source target : Option Path}

end Merge

/-! ## Export and import -/

def fetchPath (platform : Platform) (source : SourceConfig) : Option Path :=
  locate platform (stripRedbPrefix source.fetchCache)

def statePath (platform : Platform) (source : SourceConfig) : Option Path :=
  locate platform source.ledgerStateDb

section Export
variable {platform} {disk disk' : Disk} {source : SourceConfig} {dir : Path} {manifest : Json}

end Export

/-- The destination's caches hold the files of the source's, and no others. -/
def Restored (platform : Platform) (disk disk' : Disk) (source destination : SourceConfig) : Prop :=
  SameFiles (below disk' (fetchPath platform destination)) (below disk (fetchPath platform source)) ∧
    SameFiles (below disk' (statePath platform destination)) (below disk (statePath platform source))

/-- Before the export nothing was in the entries of the snapshot beside the files of the
source or in their way, and before the import nothing at the destination. -/
structure Fresh (platform : Platform) (disk disk' : Disk) (source : SourceConfig)
    (snapshotDir : Option Path) (destination : SourceConfig) : Prop where
  fetchEntry : Clean (below disk (fetchPath platform source))
    (below disk (some (child platform snapshotDir "fetch_cache")))
  stateEntry : Clean (below disk (statePath platform source))
    (below disk (some (child platform snapshotDir "ledger_state_db")))
  fetchDestination : Clean (below disk (fetchPath platform source))
    (below disk' (fetchPath platform destination))
  stateDestination : Clean (below disk (statePath platform source))
    (below disk' (statePath platform destination))

/-- A file in the ledger state, and no fetch cache. -/
def sampleDisk : Disk :=
  (((Tree.empty.createDirectories ["l"]).getD .empty).writeFile ["l", "x"] [1]).getD .empty

end MidnightSdk.Production.LocalStateBackend
