import MidnightSdk.Blockchain.WalletManager

/-!
# Runs of the wallet store

What a run of saves and removals leaves in the store directory is a shelf: for each
alias when it was first saved and, after a save of a seed, that seed.
-/

namespace MidnightSdk.Blockchain.WalletManager

open Cpp FileTree

/-! ## The temporary file -/

section Temporary
variable {storeDir : Path} {a b : Name}

theorem dropLast_aliasFilePath : (aliasFilePath storeDir a).dropLast = storeDir :=
  List.dropLast_concat

theorem aliasFilePath_inj : aliasFilePath storeDir a = aliasFilePath storeDir b ↔ a = b := by
  constructor
  · intro same
    have names := List.append_cancel_left same
    exact List.append_cancel_right (List.cons.inj names).1
  · rintro rfl
    rfl

theorem tempPath_aliasFilePath (ticks : Int) : tempPath (aliasFilePath storeDir a) ticks =
    storeDir ++ [a ++ jsonExtension ++ (".tmp.".toList ++ (toString ticks).toList)] := by
  rw [tempPath, aliasFilePath, List.dropLast_concat, List.getLastD_concat, List.append_assoc]

theorem not_mem_toString (ticks : Int) : 'n' ∉ (toString ticks).toList := by
  have digits (k : Nat) : 'n' ∉ k.repr.toList := by
    intro found
    rw [Nat.toList_repr] at found
    have digit := Nat.isDigit_of_mem_toDigits (by decide) (by decide) found
    exact absurd digit (by decide)
  cases ticks with
  | ofNat k => exact digits k
  | negSucc k =>
    change 'n' ∉ ("-" ++ (k + 1).repr).toList
    rw [String.toList_append, List.mem_append, not_or]
    exact ⟨by decide, digits (k + 1)⟩

/-- No alias is kept in a file of such a name. -/
theorem tempPath_ne (ticks : Int) :
    tempPath (aliasFilePath storeDir a) ticks ≠ aliasFilePath storeDir b := by
  intro same
  rw [tempPath_aliasFilePath] at same
  have names := (List.cons.inj (List.append_cancel_left same)).1
  have free : 'n' ∉ ".tmp.".toList ++ (toString ticks).toList := by
    rw [List.mem_append, not_or]
    exact ⟨by decide, not_mem_toString ticks⟩
  have last := congrArg List.getLast? names
  rw [List.getLast?_append_of_ne_nil (a ++ jsonExtension) (by simp),
    List.getLast?_append_of_ne_nil b (by decide)] at last
  exact free (List.mem_of_getLast? last)

end Temporary

/-! ## What a save does to the disk -/

section Save
variable {Text : Type} {format : JsonFormat Text} {m : Moment} {disk : Disk Text} {storeDir : Path}
  {walletAlias : Name} {payload : JsonTree}

/-- What becomes of a disk on which a payload was to be stored: the files that are
there, and where directories may still be. -/
inductive Stored (format : JsonFormat Text) (disk : Disk Text) (wallet temp : Path)
    (payload : JsonTree) : Disk Text × Throws (Reported Unit) → Prop
  | done {disk' : Disk Text} {text : Text} (dumped : format.dump payload = .ok text)
      (entry : ∀ q, disk'.entry q =
        if q = wallet then some (.file text) else if q = temp then none else disk.entry q) :
      Stored format disk wallet temp payload (disk', .ok (.ok ()))
  | refused {disk' : Disk Text} {error : List Char} (blocked : disk.entry temp = some .directory)
      (files : ∀ q, disk'.file? q = disk.file? q)
      (entry : ∀ q, q ≠ temp → disk'.entry q = disk.entry q) :
      Stored format disk wallet temp payload (disk', .ok (.error error))
  | thrown {disk' : Disk Text} {e : Exception} (unwritable : format.dump payload = .error e)
      (entry : ∀ q, q ≠ temp → disk'.entry q = disk.entry q) :
      Stored format disk wallet temp payload (disk', .error e)

/-- Removing what is no file leaves the files. -/
theorem file?_removeAnyway {path : Path} (h : disk.file? path = none) (q : Path) :
    (removeAnyway disk path).file? q = disk.file? q := by
  rw [removeAnyway]
  cases removed : disk.remove path with
  | none => rfl
  | some disk' =>
    rw [Option.getD_some, Tree.file?_remove removed]
    by_cases here : q = path
    · rw [if_pos here, here, h]
    · rw [if_neg here]

theorem entry_removeAnyway {path q : Path} (h : q ≠ path) :
    (removeAnyway disk path).entry q = disk.entry q := by
  rw [removeAnyway]
  cases removed : disk.remove path with
  | none => rfl
  | some disk' => rw [Option.getD_some, Tree.entry_remove removed, if_neg h]

theorem dropLast_ne {path : Path} (h : path ≠ []) : path.dropLast ≠ path := by
  intro same
  have size := congrArg List.length same
  rw [List.length_dropLast] at size
  exact h (List.length_eq_zero_iff.mp (by omega))

/-- Where no directory is, the place can be made free. -/
theorem exists_replaced {path : Path} (free : disk.entry path ≠ some .directory) :
    ∃ cleared, (if (disk.entry path).isSome then disk.remove path else some disk) = some cleared ∧
      ∀ q, cleared.entry q = if q = path then none else disk.entry q := by
  cases found : disk.entry path with
  | none =>
    refine ⟨disk, rfl, ?_⟩
    intro q
    split
    · rename_i here
      rw [here, found]
    · rfl
  | some e =>
    cases e with
    | directory => exact absurd found free
    | file old =>
      obtain ⟨cleared, hcleared⟩ := Tree.exists_remove found
      exact ⟨cleared, hcleared, Tree.entry_remove hcleared⟩

/-- Only a directory can keep the temporary file from being opened. -/
theorem directory_of_unopened {temp : Path} {blank : Text} (named : temp ≠ [])
    (dir : disk.entry temp.dropLast = some .directory)
    (unopened : disk.writeFile temp blank = none) : disk.entry temp = some .directory := by
  by_contra notdir
  obtain ⟨opened, written⟩ := Tree.exists_writeFile named dir notdir blank
  rw [unopened] at written
  cases written

/-- A temporary file beside the wallet is moved into its place. -/
theorem exists_moved {wallet temp : Path} {text : Text} (apart : temp ≠ wallet)
    (named : wallet ≠ []) (dir : disk.entry wallet.dropLast = some .directory)
    (free : disk.entry wallet ≠ some .directory) (written : disk.entry temp = some (.file text)) :
    ∃ cleared moved,
      (if (disk.entry wallet).isSome then disk.remove wallet else some disk) = some cleared ∧
      cleared.rename temp wallet = some moved ∧ ∀ q, moved.entry q =
        if q = temp then none else if q = wallet then some (.file text) else disk.entry q := by
  obtain ⟨cleared, hcleared, entryCleared⟩ := exists_replaced free
  have tempCleared : cleared.entry temp = some (.file text) := by
    rw [entryCleared, if_neg apart, written]
  have dirCleared : cleared.entry wallet.dropLast = some .directory := by
    rw [entryCleared, if_neg (dropLast_ne named), dir]
  have freeCleared : cleared.entry wallet ≠ some .directory := by
    rw [entryCleared, if_pos rfl]
    intro same
    cases same
  obtain ⟨moved, hmoved, entryMoved⟩ :=
    Tree.exists_rename tempCleared apart named dirCleared freeCleared
  refine ⟨cleared, moved, hcleared, hmoved, ?_⟩
  intro q
  rw [entryMoved, entryCleared]
  split
  · rfl
  · split <;> rfl

theorem writeWalletJson_stored (dir : disk.entry storeDir = some .directory)
    (free : disk.entry (aliasFilePath storeDir walletAlias) ≠ some .directory) :
    Stored format disk (aliasFilePath storeDir walletAlias)
      (tempPath (aliasFilePath storeDir walletAlias) m.ticks) payload
      (writeWalletJson format m disk (aliasFilePath storeDir walletAlias) payload) := by
  have apart := @tempPath_ne storeDir walletAlias walletAlias m.ticks
  have around : (tempPath (aliasFilePath storeDir walletAlias) m.ticks).dropLast = storeDir := by
    rw [tempPath_aliasFilePath, List.dropLast_concat]
  have named : tempPath (aliasFilePath storeDir walletAlias) m.ticks ≠ [] := by
    rw [tempPath_aliasFilePath]
    simp
  have walletAround := @dropLast_aliasFilePath storeDir walletAlias
  have walletNamed : aliasFilePath storeDir walletAlias ≠ [] := by simp [aliasFilePath]
  rw [writeWalletJson]
  generalize tempPath (aliasFilePath storeDir walletAlias) m.ticks = temp at *
  generalize aliasFilePath storeDir walletAlias = wallet at *
  dsimp only
  cases hopened : disk.writeFile temp format.blank with
  | none =>
    have blocked := directory_of_unopened named (around ▸ dir) hopened
    have nofile : disk.file? temp = none := by
      rw [Tree.file?, blocked]
    exact .refused blocked (file?_removeAnyway nofile) fun q hq => entry_removeAnyway hq
  | some opened =>
    have entryOpened := Tree.entry_writeFile hopened
    cases hdump : format.dump payload with
    | error e =>
      refine .thrown hdump ?_
      intro q hq
      rw [entryOpened, if_neg hq]
    | ok text =>
      have outside : storeDir ≠ temp := by
        rw [← around]
        exact dropLast_ne named
      have dirOpened : opened.entry temp.dropLast = some .directory := by
        rw [around, entryOpened, if_neg outside, dir]
      have fileOpened : opened.entry temp ≠ some .directory := by
        rw [entryOpened, if_pos rfl]
        intro same
        cases same
      obtain ⟨written, hwritten⟩ := Tree.exists_writeFile named dirOpened fileOpened text
      have entryWritten (q : Path) :
          written.entry q = if q = temp then some (.file text) else disk.entry q := by
        rw [Tree.entry_writeFile hwritten, entryOpened]
        split <;> rfl
      have dirWritten : written.entry wallet.dropLast = some .directory := by
        rw [walletAround, entryWritten, if_neg outside, dir]
      have freeWritten : written.entry wallet ≠ some .directory := by
        rwa [entryWritten, if_neg (Ne.symm apart)]
      obtain ⟨cleared, moved, hcleared, hmoved, entryMoved⟩ := exists_moved apart walletNamed
        dirWritten freeWritten ((entryWritten temp).trans (if_pos rfl))
      simp only [hwritten, Option.getD_some, hcleared, hmoved]
      refine .done hdump ?_
      intro q
      rw [entryMoved, entryWritten]
      by_cases atWallet : q = wallet
      · have notTemp : q ≠ temp := atWallet ▸ Ne.symm apart
        simp only [if_pos atWallet, if_neg notTemp]
      · simp only [if_neg atWallet]
        split <;> rfl

/-- What can be written is stored, unless a directory is where the temporary file goes. -/
theorem writeWalletJson_done {text : Text} (dir : disk.entry storeDir = some .directory)
    (free : disk.entry (aliasFilePath storeDir walletAlias) ≠ some .directory)
    (temp : disk.entry (tempPath (aliasFilePath storeDir walletAlias) m.ticks) ≠ some .directory)
    (dumped : format.dump payload = .ok text) :
    ∃ disk', writeWalletJson format m disk (aliasFilePath storeDir walletAlias) payload =
      (disk', .ok (.ok ())) := by
  have stored := @writeWalletJson_stored _ format m disk storeDir walletAlias payload dir free
  generalize writeWalletJson format m disk _ payload = result at stored
  cases stored with
  | done _ _ => exact ⟨_, rfl⟩
  | refused blocked _ _ => exact absurd blocked temp
  | thrown unwritable _ =>
    rw [dumped] at unwritable
    cases unwritable

/-- What one call does: only files of the store directory change, none when the call
reports a failure, and of the wallets only the one it is about. -/
structure Effect (disk : Disk Text) (storeDir : Path) (walletAlias : Name)
    (left : Option Text → Prop) (result : Disk Text × Throws (Reported Unit)) : Prop where
  outside : ∀ q, q.dropLast ≠ storeDir → result.1.file? q = disk.file? q
  refused : ∀ error, result.2 = .ok (.error error) → ∀ q, result.1.file? q = disk.file? q
  others : ∀ b, b ≠ walletAlias ∨ result.2 ≠ .ok (.ok ()) →
    result.1.file? (aliasFilePath storeDir b) = disk.file? (aliasFilePath storeDir b)
  directories : ∀ b, disk.entry (aliasFilePath storeDir b) ≠ some .directory →
    result.1.entry (aliasFilePath storeDir b) ≠ some .directory
  done : result.2 = .ok (.ok ()) → left (result.1.file? (aliasFilePath storeDir walletAlias))

/-- A call that leaves the files as they are, and makes no directory in a wallet's place. -/
theorem Effect.same {left : Option Text → Prop} {disk' : Disk Text}
    {answer : Throws (Reported Unit)} (files : ∀ q, disk'.file? q = disk.file? q)
    (directories : ∀ b, disk'.entry (aliasFilePath storeDir b) =
      disk.entry (aliasFilePath storeDir b)) (failed : answer ≠ .ok (.ok ())) :
    Effect disk storeDir walletAlias left (disk', answer) where
  outside q _ := files q
  refused _ _ := files
  others _ _ := files _
  directories b h := by rwa [directories b]
  done h := absurd h failed

/-- Making the store directory makes none in a wallet's place. -/
theorem entry_createDirectories_wallet {disk' : Disk Text}
    (h : disk.createDirectories storeDir = some disk') (b : Name) :
    disk'.entry (aliasFilePath storeDir b) = disk.entry (aliasFilePath storeDir b) := by
  rcases Tree.createDirectories_cases h (aliasFilePath storeDir b) with same | ⟨above, -, -⟩
  · exact same
  · have size := above.length_le
    rw [aliasFilePath, List.length_append, List.length_singleton] at size
    omega

/-- The same from an earlier disk with the same files. -/
theorem Effect.after {left : Option Text → Prop} {made : Disk Text}
    {result : Disk Text × Throws (Reported Unit)} (h : Effect made storeDir walletAlias left result)
    (hmade : disk.createDirectories storeDir = some made) :
    Effect disk storeDir walletAlias left result where
  outside q hq := (h.outside q hq).trans (Tree.file?_createDirectories hmade q)
  refused error herror q := (h.refused error herror q).trans (Tree.file?_createDirectories hmade q)
  others b hb := (h.others b hb).trans (Tree.file?_createDirectories hmade _)
  directories b hb := h.directories b (by rwa [entry_createDirectories_wallet hmade])
  done := h.done

theorem file?_congr {disk disk' : Disk Text} {q : Path} (h : disk'.entry q = disk.entry q) :
    disk'.file? q = disk.file? q := by
  rw [Tree.file?, Tree.file?, h]

theorem Stored.effect {result : Disk Text × Throws (Reported Unit)} {ticks : Int}
    (h : Stored format disk (aliasFilePath storeDir walletAlias)
      (tempPath (aliasFilePath storeDir walletAlias) ticks) payload result) :
    Effect disk storeDir walletAlias
      (fun left => ∃ text, format.dump payload = .ok text ∧ left = some text) result := by
  have notTemp (b : Name) : aliasFilePath storeDir b ≠
      tempPath (aliasFilePath storeDir walletAlias) ticks := Ne.symm (tempPath_ne ticks)
  have tempAround : (tempPath (aliasFilePath storeDir walletAlias) ticks).dropLast = storeDir := by
    rw [tempPath_aliasFilePath, List.dropLast_concat]
  generalize tempPath (aliasFilePath storeDir walletAlias) ticks = temp at h notTemp tempAround
  have outsideTemp {q : Path} (hq : q.dropLast ≠ storeDir) : q ≠ temp := by
    rintro rfl
    exact hq tempAround
  cases h with
  | @done disk' text dumped entry =>
    have at_wallet : disk'.entry (aliasFilePath storeDir walletAlias) = some (.file text) := by
      rw [entry, if_pos rfl]
    have elsewhere {q : Path} (hwallet : q ≠ aliasFilePath storeDir walletAlias) (htemp : q ≠ temp) :
        disk'.entry q = disk.entry q := by
      rw [entry, if_neg hwallet, if_neg htemp]
    refine ⟨?_, nofun, ?_, ?_, ?_⟩
    · intro q hq
      have hwallet : q ≠ aliasFilePath storeDir walletAlias := by
        rintro rfl
        exact hq dropLast_aliasFilePath
      exact file?_congr (elsewhere hwallet (outsideTemp hq))
    · rintro b (other | failed)
      · exact file?_congr (elsewhere (fun same => other (aliasFilePath_inj.mp same)) (notTemp b))
      · exact absurd rfl failed
    · intro b hb
      by_cases here : b = walletAlias
      · rw [here, at_wallet]
        nofun
      · rw [elsewhere (fun same => here (aliasFilePath_inj.mp same)) (notTemp b)]
        exact hb
    · intro _
      exact ⟨text, dumped, Tree.file?_eq_some.mpr at_wallet⟩
  | refused _ files entry =>
    exact .same files (fun b => entry _ (notTemp b)) nofun
  | thrown _ entry =>
    refine ⟨?_, nofun, ?_, ?_, nofun⟩
    · intro q hq
      exact file?_congr (entry q (outsideTemp hq))
    · intro b _
      exact file?_congr (entry _ (notTemp b))
    · intro b hb
      rwa [entry _ (notTemp b)]

theorem saveWallet_effect {fields : Reported (List (String × JsonTree))}
    (free : disk.entry (aliasFilePath storeDir walletAlias) ≠ some .directory) :
    Effect disk storeDir walletAlias
      (fun left => ∃ createdAt fs text, fields = .ok fs ∧
        createdAtOf format m disk (aliasFilePath storeDir walletAlias) = .ok createdAt ∧
        format.dump (.ofFields (fs ++ [("createdAt", .string createdAt),
          ("updatedAt", .string m.updatedAt)])) = .ok text ∧ left = some text)
      (saveWallet format m disk storeDir walletAlias fields) := by
  rw [saveWallet]
  cases hmade : disk.createDirectories storeDir with
  | none => exact .same (fun _ => rfl) (fun _ => rfl) nofun
  | some made =>
    have files := Tree.file?_createDirectories hmade
    have wallets := entry_createDirectories_wallet hmade
    have createdSame : createdAtOf format m made (aliasFilePath storeDir walletAlias) =
        createdAtOf format m disk (aliasFilePath storeDir walletAlias) := by
      simp only [createdAtOf, readWalletJson, wallets]
    simp only [createdSame]
    cases hcreated : createdAtOf format m disk (aliasFilePath storeDir walletAlias) with
    | error e => exact .same files wallets nofun
    | ok createdAt =>
      cases fields with
      | error e => exact .same files wallets nofun
      | ok fs =>
        have effect := (@writeWalletJson_stored _ format m made storeDir walletAlias
          (.ofFields (fs ++ [("createdAt", .string createdAt), ("updatedAt", .string m.updatedAt)]))
          (Tree.directory_of_createDirectories hmade) (by rwa [wallets])).effect.after hmade
        refine { effect with done := ?_ }
        intro succeeded
        obtain ⟨text, dumped, kept⟩ := effect.done succeeded
        exact ⟨createdAt, fs, text, rfl, rfl, dumped, kept⟩

end Save

/-! ## Listing -/

section Listing
variable {Text : Type} {disk : Disk Text} {storeDir : Path}

theorem aliasOf_eq_some {name walletAlias : Name} :
    aliasOf disk storeDir name = some walletAlias ↔ isValidAlias walletAlias = true ∧
      name = walletAlias ++ jsonExtension ∧
      (disk.file? (aliasFilePath storeDir walletAlias)).isSome := by
  rw [aliasOf]
  constructor
  · intro h
    split at h
    · cases h
    · rename_i file
      dsimp only at h
      split at h
      · cases h
      · rename_i json
        split at h
        · rename_i valid
          cases h
          have whole := splitName_append name
          rw [not_not.mp json] at whole
          refine ⟨valid, whole.symm, ?_⟩
          obtain ⟨text, found⟩ := isFile_iff.mp (by simpa using file)
          rw [aliasFilePath, whole, Tree.file?_eq_some.mpr found]
          rfl
        · cases h
  · rintro ⟨valid, rfl, file⟩
    obtain ⟨text, found⟩ := Option.isSome_iff_exists.mp file
    have named : walletAlias ≠ [] := by
      rintro rfl
      cases valid
    have isfile : isFile (disk.entry (storeDir ++ [walletAlias ++ jsonExtension])) = true :=
      isFile_iff.mpr ⟨text, Tree.file?_eq_some.mp found⟩
    simp [isfile, splitName_json named, valid]

theorem mem_listAliases (order : Shuffle Name) (sorter : Sorter Name) {walletAlias : Name} :
    walletAlias ∈ listAliases order sorter disk storeDir ↔ isValidAlias walletAlias = true ∧
      (disk.file? (aliasFilePath storeDir walletAlias)).isSome := by
  have there (h : (disk.file? (aliasFilePath storeDir walletAlias)).isSome) :
      disk.entry (storeDir ++ [walletAlias ++ jsonExtension]) ≠ none := by
    intro absent
    rw [Tree.file?, aliasFilePath, absent] at h
    cases h
  rw [listAliases]
  split
  · rename_i nodir
    refine iff_of_false List.not_mem_nil ?_
    rintro ⟨-, file⟩
    rw [disk.closed _ _ (there file)] at nodir
    cases nodir
  · rw [(sorter.perm _ _).mem_iff, List.mem_filterMap]
    constructor
    · rintro ⟨name, -, found⟩
      obtain ⟨valid, -, file⟩ := aliasOf_eq_some.mp found
      exact ⟨valid, file⟩
    · rintro ⟨valid, file⟩
      refine ⟨walletAlias ++ jsonExtension, ?_, aliasOf_eq_some.mpr ⟨valid, rfl, file⟩⟩
      exact (order.perm _).mem_iff.mpr (Tree.mem_names.mpr (there file))

/-- The listing has every alias once, in order. -/
theorem listAliases_sorted (order : Shuffle Name) (sorter : Sorter Name) :
    (listAliases order sorter disk storeDir).Pairwise (· < ·) := by
  rw [listAliases]
  split
  · exact .nil
  · have strict : StrictWeak fun a b : Name => decide (a < b) := by
      refine ⟨?_, ?_⟩
      · intro a b h
        exact decide_eq_false (lt_asymm (of_decide_eq_true h))
      · intro a b c hba hcb
        have ab := not_lt.mp (of_decide_eq_false hba)
        have bc := not_lt.mp (of_decide_eq_false hcb)
        exact decide_eq_false (not_lt.mpr (ab.trans bc))
    have distinct :
        ((order.run (disk.names storeDir)).filterMap (aliasOf disk storeDir)).Nodup := by
      refine List.Nodup.filterMap ?_ ((order.perm _).nodup_iff.mpr (Tree.names_nodup storeDir))
      intro name name' b hb hb'
      rw [(aliasOf_eq_some.mp hb).2.1, (aliasOf_eq_some.mp hb').2.1]
    have sorted := sorter.sorted _ ((order.run (disk.names storeDir)).filterMap
      (aliasOf disk storeDir)) strict
    have once := (sorter.perm (fun a b : Name => decide (a < b)) _).nodup_iff.mpr distinct
    refine (sorted.and once).imp ?_
    rintro a b ⟨notAfter, other⟩
    exact lt_of_le_of_ne (not_lt.mp (of_decide_eq_false notAfter)) other

end Listing

/-! ## Runs -/

inductive Call where
  | saveSeedHex (walletAlias : Name) (seedHex network : List Char)
  | saveEncrypted (walletAlias : Name) (encryptedState : List Char)
  | removeWallet (walletAlias : Name)

def Call.walletAlias : Call → Name
  | saveSeedHex walletAlias _ _ => walletAlias
  | saveEncrypted walletAlias _ => walletAlias
  | removeWallet walletAlias => walletAlias

/-- What is kept of a wallet: when it was first saved, and the seed of the last save,
if that was a save of a seed. -/
structure Kept where
  createdAt : List Char
  seed : Option (List Char)

abbrev Shelf : Type := Name → Option Kept

def Shelf.empty : Shelf := fun _ => none

def Shelf.save (shelf : Shelf) (walletAlias : Name) (now : List Char) (seed : Option (List Char)) :
    Shelf :=
  Function.update shelf walletAlias
    (some { createdAt := ((shelf walletAlias).map Kept.createdAt).getD now, seed })

/-- The shelf after a call that succeeded. -/
def Call.shelved (m : Moment) (shelf : Shelf) : Call → Shelf
  | saveSeedHex walletAlias seedHex _ =>
    shelf.save walletAlias m.createdAt (some ((Util.stripHexPrefix seedHex).map Char.toLower))
  | saveEncrypted walletAlias _ => shelf.save walletAlias m.createdAt none
  | removeWallet walletAlias => Function.update shelf walletAlias none

section Runs
variable {Text : Type} (format : JsonFormat Text) (ssl : OpenSsl) (passphrase : List Char)
  (storeDir : Path)

def Call.run (m : Moment) (disk : Disk Text) : Call → Disk Text × Throws (Reported Unit)
  | saveSeedHex walletAlias seedHex network =>
    WalletManager.saveSeedHex format ssl passphrase m disk storeDir walletAlias seedHex network
  | saveEncrypted walletAlias encryptedState =>
    WalletManager.saveEncrypted format m disk storeDir walletAlias encryptedState
  | removeWallet walletAlias => WalletManager.removeWallet m disk storeDir walletAlias

/-- A call on the disk, beside what it means for the shelf. -/
def Call.step (state : Disk Text × Shelf) (call : Moment × Call) : Disk Text × Shelf :=
  match call.2.run format ssl passphrase storeDir call.1 state.1 with
  | (disk, .ok (.ok ())) => (disk, call.2.shelved call.1 state.2)
  | (disk, _) => (disk, state.2)

def afterCalls (disk : Disk Text) (calls : List (Moment × Call)) : Disk Text × Shelf :=
  calls.foldl (Call.step format ssl passphrase storeDir) (disk, Shelf.empty)

/-- A payload tells what is kept of its wallet. -/
structure Records (payload : JsonTree) (kept : Kept) : Prop where
  createdAt : payload.valueString "createdAt" [] = .ok kept.createdAt
  dated : kept.createdAt ≠ []
  readable : ∀ seed, kept.seed = some seed →
    ∃ storedAlias network updatedAt,
      (∀ default, payload.valueString "alias" default = .ok storedAlias) ∧
      payload.valueString "network" [] = .ok network ∧
      payload.valueString "updatedAt" [] = .ok updatedAt ∧
      storedSeedHex ssl passphrase payload = .ok (.ok seed) ∧ normalizeSeedHex seed = some seed

/-- A file is there for what is kept, and for nothing else. -/
def FileKeeps (file : Option Text) (kept : Option Kept) : Prop :=
  match file, kept with
  | none, none => True
  | some text, some kept =>
    ∃ payload, format.parse text = some payload ∧ Records ssl passphrase payload kept
  | _, _ => False

/-- The disk keeps what is on the shelf. -/
structure Keeps (state : Disk Text × Shelf) : Prop where
  valid : ∀ b, state.2 b ≠ none → isValidAlias b = true
  directories : ∀ b, isValidAlias b = true →
    state.1.entry (aliasFilePath storeDir b) ≠ some .directory
  wallets : ∀ b, isValidAlias b = true →
    FileKeeps format ssl passphrase (state.1.file? (aliasFilePath storeDir b)) (state.2 b)

variable {format ssl passphrase storeDir} {state : Disk Text × Shelf} {m : Moment}

/-- A file that is kept tells when it was first saved; without one the clock does. -/
theorem Keeps.createdAtOf (h : Keeps format ssl passphrase storeDir state) {b : Name}
    (hb : isValidAlias b = true) :
    WalletManager.createdAtOf format m state.1 (aliasFilePath storeDir b) =
      .ok (((state.2 b).map Kept.createdAt).getD m.createdAt) := by
  have wallet := h.wallets b hb
  have free := h.directories b hb
  rw [Tree.file?] at wallet
  rw [WalletManager.createdAtOf, readWalletJson]
  cases hentry : state.1.entry (aliasFilePath storeDir b) with
  | none =>
    rw [hentry] at wallet
    cases hshelf : state.2 b with
    | none => rfl
    | some kept =>
      rw [hshelf] at wallet
      cases wallet
  | some e =>
    cases e with
    | directory => exact absurd hentry free
    | file text =>
      rw [hentry] at wallet
      cases hshelf : state.2 b with
      | none =>
        rw [hshelf] at wallet
        cases wallet
      | some kept =>
        rw [hshelf] at wallet
        obtain ⟨payload, parsed, records⟩ := wallet
        have dated : kept.createdAt.isEmpty = false := by
          rw [← Bool.not_eq_true, List.isEmpty_iff]
          exact records.dated
        simp only [parsed, records.createdAt, ok_bind, dated, Bool.false_eq_true, if_false]
        rfl

theorem Keeps.dated (h : Keeps format ssl passphrase storeDir state) {b : Name}
    (hb : isValidAlias b = true) : ((state.2 b).map Kept.createdAt).getD m.createdAt ≠ [] := by
  have wallet := h.wallets b hb
  cases hshelf : state.2 b with
  | none => exact m.createdAt.2
  | some kept =>
    rw [hshelf] at wallet
    cases hfile : state.1.file? (aliasFilePath storeDir b) with
    | none =>
      rw [hfile] at wallet
      cases wallet
    | some text =>
      rw [hfile] at wallet
      obtain ⟨payload, -, records⟩ := wallet
      exact records.dated

section Payloads
open JsonTree
variable {createdAt updatedAt : List Char}

theorem records_seed {walletAlias seedHex network normalized : List Char} {seedCipher : JsonTree}
    (long : 16 ≤ passphrase.length) (dated : createdAt ≠ [])
    (hseed : normalizeSeedHex seedHex = some normalized)
    (hsealed : encryptSeedHex ssl m normalized passphrase = .ok seedCipher) :
    Records ssl passphrase (.ofFields ([("version", .integer 2), ("alias", .string walletAlias),
      ("network", .string network), ("seedCipher", seedCipher)] ++
      [("createdAt", .string createdAt), ("updatedAt", .string updatedAt)]))
      { createdAt, seed := some normalized } where
  createdAt := valueString_ofFields (by simp) rfl []
  dated := dated
  readable seed h := by
    cases h
    obtain ⟨seedBytes, decoded, -, written, again⟩ := exists_seed hseed
    obtain ⟨seedBytes', decoded', opened⟩ := decryptSeedHex_encryptSeedHex hsealed
    obtain rfl : seedBytes = seedBytes' := Option.some.inj (decoded.symm.trans decoded')
    refine ⟨walletAlias, network, updatedAt,
      fun default => valueString_ofFields (by simp) rfl default,
      valueString_ofFields (by simp) rfl [], valueString_ofFields (by simp) rfl [], ?_, again⟩
    rw [storedSeedHex, find?_ofFields (by simp)]
    change (if passphrase.length < 16 then _ else decryptSeedHex ssl seedCipher passphrase) = _
    rw [if_neg (by omega), opened, written]

theorem records_encrypted {walletAlias encryptedState : List Char} (dated : createdAt ≠ []) :
    Records ssl passphrase (.ofFields ([("version", .integer 3), ("alias", .string walletAlias),
      ("encryptedState", .string encryptedState)] ++
      [("createdAt", .string createdAt), ("updatedAt", .string updatedAt)]))
      { createdAt, seed := none } where
  createdAt := valueString_ofFields (by simp) rfl []
  dated := dated
  readable _ h := nomatch h

end Payloads

/-- A wallet that is saved is kept as it was saved. -/
theorem saveSeedHex_effect (long : 16 ≤ passphrase.length)
    (h : Keeps format ssl passphrase storeDir state) (walletAlias seedHex network : List Char) :
    Effect state.1 storeDir walletAlias (fun left => isValidAlias walletAlias = true ∧
        FileKeeps format ssl passphrase left
          ((Call.saveSeedHex walletAlias seedHex network).shelved m state.2 walletAlias))
      (saveSeedHex format ssl passphrase m state.1 storeDir walletAlias seedHex network) := by
  rw [saveSeedHex]
  cases valid : isValidAlias walletAlias with
  | false => exact .same (fun _ => rfl) (fun _ => rfl) nofun
  | true =>
    cases hseed : normalizeSeedHex seedHex with
    | none => exact .same (fun _ => rfl) (fun _ => rfl) nofun
    | some normalized =>
      simp only [Bool.not_true, Bool.false_eq_true, if_false, if_neg (Nat.not_lt.mpr long)]
      have effect := @saveWallet_effect _ format m state.1 storeDir walletAlias (do
        let seedCipher ← encryptSeedHex ssl m normalized passphrase
        return [("version", .integer 2), ("alias", .string walletAlias),
          ("network", .string network), ("seedCipher", seedCipher)]) (h.directories _ valid)
      refine { effect with done := fun succeeded => ⟨trivial, ?_⟩ }
      obtain ⟨createdAt, fs, text, hfs, hcreated, dumped, left⟩ := effect.done succeeded
      obtain ⟨seedCipher, hsealed, hfs⟩ := bind_eq_ok.mp hfs
      cases hfs
      rw [h.createdAtOf valid] at hcreated
      cases hcreated
      rw [left, Call.shelved, Shelf.save, Function.update_self,
        ← (normalizeSeedHex_eq_some.mp hseed).2.2]
      refine ⟨_, format.parse_dump ?_ dumped, records_seed long (h.dated valid) hseed hsealed⟩
      apply JsonTree.Plain.ofFields
      simp only [List.mem_append, List.mem_cons, List.not_mem_nil, or_false, or_imp, forall_and,
        forall_eq]
      exact ⟨⟨.integer (by decide) (by decide), .string _, .string _, plain_encryptSeedHex hsealed⟩,
        .string _, .string _⟩

theorem saveEncrypted_effect (h : Keeps format ssl passphrase storeDir state)
    (walletAlias encryptedState : List Char) :
    Effect state.1 storeDir walletAlias (fun left => isValidAlias walletAlias = true ∧
        FileKeeps format ssl passphrase left
          ((Call.saveEncrypted walletAlias encryptedState).shelved m state.2 walletAlias))
      (saveEncrypted format m state.1 storeDir walletAlias encryptedState) := by
  rw [saveEncrypted]
  cases valid : isValidAlias walletAlias with
  | false => exact .same (fun _ => rfl) (fun _ => rfl) nofun
  | true =>
    simp only [Bool.not_true, Bool.false_eq_true, if_false]
    have effect := @saveWallet_effect _ format m state.1 storeDir walletAlias
      (.ok [("version", .integer 3), ("alias", .string walletAlias),
        ("encryptedState", .string encryptedState)]) (h.directories _ valid)
    refine { effect with done := fun succeeded => ⟨trivial, ?_⟩ }
    obtain ⟨createdAt, fs, text, hfs, hcreated, dumped, left⟩ := effect.done succeeded
    cases hfs
    rw [h.createdAtOf valid] at hcreated
    cases hcreated
    rw [left, Call.shelved, Shelf.save, Function.update_self]
    refine ⟨_, format.parse_dump ?_ dumped, records_encrypted (h.dated valid)⟩
    apply JsonTree.Plain.ofFields
    simp only [List.mem_append, List.mem_cons, List.not_mem_nil, or_false, or_imp, forall_and,
      forall_eq]
    exact ⟨⟨.integer (by decide) (by decide), .string _, .string _⟩, .string _, .string _⟩

theorem removeWallet_effect (walletAlias : Name) :
    Effect state.1 storeDir walletAlias (fun left => isValidAlias walletAlias = true ∧
        FileKeeps format ssl passphrase left
          ((Call.removeWallet walletAlias).shelved m state.2 walletAlias))
      (removeWallet m state.1 storeDir walletAlias) := by
  rw [removeWallet]
  cases valid : isValidAlias walletAlias with
  | false => exact .same (fun _ => rfl) (fun _ => rfl) nofun
  | true =>
    simp only [Bool.not_true, Bool.false_eq_true, if_false]
    cases removed : state.1.remove (aliasFilePath storeDir walletAlias) with
    | none =>
      dsimp only
      split
      · exact .same (fun _ => rfl) (fun _ => rfl) nofun
      · exact .same (fun _ => rfl) (fun _ => rfl) nofun
    | some disk' =>
      have files := Tree.file?_remove removed
      have entries := Tree.entry_remove removed
      refine ⟨?_, nofun, ?_, ?_, ?_⟩
      · intro q hq
        have other : q ≠ aliasFilePath storeDir walletAlias := by
          rintro rfl
          exact hq dropLast_aliasFilePath
        exact (files q).trans (if_neg other)
      · rintro b (other | failed)
        · exact (files _).trans (if_neg fun same => other (aliasFilePath_inj.mp same))
        · exact absurd rfl failed
      · intro b hb
        rw [entries]
        split
        · nofun
        · exact hb
      · intro _
        rw [files, if_pos rfl, Call.shelved, Function.update_self]
        exact ⟨trivial, trivial⟩

theorem Call.effect (long : 16 ≤ passphrase.length) (h : Keeps format ssl passphrase storeDir state)
    (call : Call) :
    Effect state.1 storeDir call.walletAlias (fun left => isValidAlias call.walletAlias = true ∧
        FileKeeps format ssl passphrase left (call.shelved m state.2 call.walletAlias))
      (call.run format ssl passphrase storeDir m state.1) := by
  cases call with
  | saveSeedHex walletAlias seedHex network =>
    exact saveSeedHex_effect long h walletAlias seedHex network
  | saveEncrypted walletAlias encryptedState =>
    exact saveEncrypted_effect h walletAlias encryptedState
  | removeWallet walletAlias => exact removeWallet_effect walletAlias

theorem Call.shelved_of_ne (call : Call) (shelf : Shelf) {b : Name} (h : b ≠ call.walletAlias) :
    call.shelved m shelf b = shelf b := by
  cases call <;> exact Function.update_of_ne h _ _

theorem Call.step_done {call : Moment × Call} {disk' : Disk Text}
    (h : call.2.run format ssl passphrase storeDir call.1 state.1 = (disk', .ok (.ok ()))) :
    Call.step format ssl passphrase storeDir state call =
      (disk', call.2.shelved call.1 state.2) := by
  rw [Call.step, h]

theorem Call.step_failed {call : Moment × Call} {disk' : Disk Text}
    {answer : Throws (Reported Unit)}
    (h : call.2.run format ssl passphrase storeDir call.1 state.1 = (disk', answer))
    (failed : answer ≠ .ok (.ok ())) :
    Call.step format ssl passphrase storeDir state call = (disk', state.2) := by
  rw [Call.step, h]
  rcases answer with e | (error | done)
  · rfl
  · rfl
  · exact absurd rfl failed

theorem Call.step_fst (call : Moment × Call) :
    (Call.step format ssl passphrase storeDir state call).1 =
      (call.2.run format ssl passphrase storeDir call.1 state.1).1 := by
  rw [Call.step]
  split
  · rename_i hrun
    rw [hrun]
  · rename_i hrun
    rw [hrun]

/-- Every call keeps the disk and the shelf together. -/
theorem Keeps.step (long : 16 ≤ passphrase.length) (h : Keeps format ssl passphrase storeDir state)
    (call : Moment × Call) :
    Keeps format ssl passphrase storeDir (Call.step format ssl passphrase storeDir state call) := by
  have effect := @Call.effect _ format ssl passphrase storeDir state call.1 long h call.2
  cases hrun : call.2.run format ssl passphrase storeDir call.1 state.1 with
  | mk disk' answer =>
    rw [hrun] at effect
    by_cases succeeded : answer = .ok (.ok ())
    · obtain ⟨valid, kept⟩ := effect.done succeeded
      rw [Call.step_done (succeeded ▸ hrun)]
      refine ⟨?_, fun b hb => effect.directories b (h.directories b hb), ?_⟩
      · intro b hb
        by_cases here : b = call.2.walletAlias
        · rw [here, valid]
        · dsimp only at hb
          rw [Call.shelved_of_ne call.2 state.2 here] at hb
          exact h.valid b hb
      · intro b hb
        by_cases here : b = call.2.walletAlias
        · rw [here]
          exact kept
        · dsimp only
          rw [Call.shelved_of_ne call.2 state.2 here, effect.others b (.inl here)]
          exact h.wallets b hb
    · rw [Call.step_failed hrun succeeded]
      refine ⟨h.valid, fun b hb => effect.directories b (h.directories b hb), ?_⟩
      intro b hb
      rw [effect.others b (.inr succeeded)]
      exact h.wallets b hb

/-- Nothing is kept where no wallet is. -/
theorem Keeps.start {disk : Disk Text}
    (fresh : ∀ b, isValidAlias b = true → disk.entry (aliasFilePath storeDir b) = none) :
    Keeps format ssl passphrase storeDir (disk, Shelf.empty) where
  valid _ h := absurd rfl h
  directories b hb := by
    rw [fresh b hb]
    nofun
  wallets b hb := by
    rw [Tree.file?, fresh b hb]
    trivial

theorem Keeps.afterCalls (long : 16 ≤ passphrase.length) {disk : Disk Text}
    (fresh : ∀ b, isValidAlias b = true → disk.entry (aliasFilePath storeDir b) = none)
    (calls : List (Moment × Call)) :
    Keeps format ssl passphrase storeDir
      (WalletManager.afterCalls format ssl passphrase storeDir disk calls) := by
  rw [WalletManager.afterCalls]
  have start : Keeps format ssl passphrase storeDir (disk, Shelf.empty) := .start fresh
  generalize (disk, Shelf.empty) = state at start
  induction calls generalizing state with
  | nil => exact start
  | cons call calls ih => exact ih _ (start.step long call)

/-- Files elsewhere are never touched. -/
theorem file?_afterCalls (long : 16 ≤ passphrase.length) {disk : Disk Text}
    (fresh : ∀ b, isValidAlias b = true → disk.entry (aliasFilePath storeDir b) = none)
    (calls : List (Moment × Call)) {q : Path} (hq : q.dropLast ≠ storeDir) :
    (WalletManager.afterCalls format ssl passphrase storeDir disk calls).1.file? q =
      disk.file? q := by
  rw [WalletManager.afterCalls]
  have start : Keeps format ssl passphrase storeDir (disk, Shelf.empty) := .start fresh
  change _ = (disk, Shelf.empty).1.file? q
  generalize (disk, Shelf.empty) = state at start
  induction calls generalizing state with
  | nil => rfl
  | cons call calls ih =>
    rw [List.foldl_cons, ih _ (start.step long call)]
    have effect := @Call.effect _ format ssl passphrase storeDir state call.1 long start call.2
    rw [← effect.outside q hq, Call.step_fst]

/-- The file of a wallet that is kept. -/
theorem Keeps.payload (h : Keeps format ssl passphrase storeDir state) {b : Name} {kept : Kept}
    (hkept : state.2 b = some kept) (message : List Char) :
    ∃ payload, readWalletJson format message state.1 (aliasFilePath storeDir b) = .ok payload ∧
      Records ssl passphrase payload kept := by
  have wallet := h.wallets b (h.valid b (by rw [hkept]; nofun))
  rw [hkept] at wallet
  cases hfile : state.1.file? (aliasFilePath storeDir b) with
  | none =>
    rw [hfile] at wallet
    cases wallet
  | some text =>
    rw [hfile] at wallet
    obtain ⟨payload, parsed, records⟩ := wallet
    refine ⟨payload, ?_, records⟩
    rw [readWalletJson, Tree.file?_eq_some.mp hfile]
    simp only [parsed]

/-- A seed that is kept is what is loaded. -/
theorem Keeps.loadSeedHex (h : Keeps format ssl passphrase storeDir state) {b : Name} {kept : Kept}
    {seed : List Char} (hkept : state.2 b = some kept) (hseed : kept.seed = some seed)
    (message : List Char) :
    WalletManager.loadSeedHex format ssl passphrase message state.1 storeDir b =
      .ok (.ok seed) := by
  obtain ⟨payload, read, records⟩ := h.payload hkept message
  obtain ⟨storedAlias, network, updatedAt, halias, hnetwork, hupdated, stored, again⟩ :=
    records.readable seed hseed
  have valid := h.valid b (by rw [hkept]; nofun)
  simp only [WalletManager.loadSeedHex, loadWallet, valid, Bool.not_true, Bool.false_eq_true,
    if_false, read, halias, hnetwork, records.createdAt, hupdated, stored, again, ok_bind]
  rfl

/-- **The store keeps its shelf.** Whatever was called: the listing is what is on the
shelf, a seed there is loaded, the file tells when the wallet was first saved, files
elsewhere are as they were, and one more call that reports a failure changes no file. -/
theorem afterCalls_keeps (long : 16 ≤ passphrase.length) {disk : Disk Text}
    (fresh : ∀ b, isValidAlias b = true → disk.entry (aliasFilePath storeDir b) = none)
    (order : Shuffle Name) (sorter : Sorter Name) (calls : List (Moment × Call)) :
    let (disk', shelf) := WalletManager.afterCalls format ssl passphrase storeDir disk calls
    ((listAliases order sorter disk' storeDir).Pairwise (· < ·) ∧
      ∀ b, b ∈ listAliases order sorter disk' storeDir ↔ shelf b ≠ none) ∧
    (∀ b kept seed message, shelf b = some kept → kept.seed = some seed →
      WalletManager.loadSeedHex format ssl passphrase message disk' storeDir b =
        .ok (.ok seed)) ∧
    (∀ b kept message, shelf b = some kept → ∃ payload,
      readWalletJson format message disk' (aliasFilePath storeDir b) = .ok payload ∧
      payload.valueString "createdAt" [] = .ok kept.createdAt) ∧
    (∀ q, q.dropLast ≠ storeDir → disk'.file? q = disk.file? q) ∧
    ∀ (m : Moment) (call : Call) (after : Disk Text) (error : List Char),
      call.run format ssl passphrase storeDir m disk' = (after, .ok (.error error)) →
      ∀ q, after.file? q = disk'.file? q := by
  have keeps := @Keeps.afterCalls _ format ssl passphrase storeDir long disk fresh calls
  have elsewhere := @file?_afterCalls _ format ssl passphrase storeDir long disk fresh calls
  generalize WalletManager.afterCalls format ssl passphrase storeDir disk calls = state at *
  obtain ⟨disk', shelf⟩ := state
  refine ⟨⟨listAliases_sorted order sorter, ?_⟩, ?_, ?_, fun q => elsewhere, ?_⟩
  · intro b
    rw [mem_listAliases order sorter]
    constructor
    · rintro ⟨valid, file⟩ absent
      have wallet := keeps.wallets b valid
      dsimp only at wallet
      obtain ⟨text, found⟩ := Option.isSome_iff_exists.mp file
      rw [absent, found] at wallet
      cases wallet
    · intro kept
      have valid := keeps.valid b kept
      refine ⟨valid, ?_⟩
      by_contra nofile
      have wallet := keeps.wallets b valid
      obtain ⟨k, hk⟩ := Option.ne_none_iff_exists'.mp kept
      dsimp only at wallet
      rw [Option.not_isSome_iff_eq_none.mp nofile, hk] at wallet
      cases wallet
  · intro b kept seed message hkept hseed
    exact keeps.loadSeedHex hkept hseed message
  · intro b kept message hkept
    obtain ⟨payload, read, records⟩ := keeps.payload hkept message
    exact ⟨payload, read, records.createdAt⟩
  · intro m call after error hrun q
    have effect := Call.effect (m := m) long keeps call
    rw [hrun] at effect
    exact effect.refused error rfl q

end Runs

/-- A library that seals nothing. -/
def unsealed : OpenSsl where
  pbkdf2 _ _ := some []
  encrypt _ _ plaintext := some (plaintext, ⟨List.replicate 16 0, List.length_replicate⟩)
  decrypt _ _ ciphertext _ := some ciphertext
  encrypt_length h := by
    cases h
    rfl
  decrypt_encrypt h := by
    cases h
    rfl

def noon : Moment where
  createdAt := ⟨"2026-01-01T12:00:00Z".toList, by decide⟩
  updatedAt := ⟨"2026-01-01T12:00:00Z".toList, by decide⟩
  ticks := 12
  salt := some ⟨List.replicate 16 0, List.length_replicate⟩
  nonce := some ⟨List.replicate 12 0, List.length_replicate⟩
  message := []

def aliceSaved : List (Moment × Call) :=
  [(noon, .saveSeedHex "alice-01".toList (['0', 'X'] ++ List.replicate 64 'A') "preprod".toList)]

def aliceStore : Disk (Option JsonTree) × Shelf :=
  afterCalls JsonFormat.values unsealed (List.replicate 16 'p') ["wallets".toList] Tree.empty
    aliceSaved

theorem aliceStore_keeps :
    "alice-01".toList ∈
        listAliases ⟨id, fun _ => .refl _⟩ (Sorter.merge Name) aliceStore.1 ["wallets".toList] ∧
      loadSeedHex JsonFormat.values unsealed (List.replicate 16 'p') [] aliceStore.1
        ["wallets".toList] "alice-01".toList = .ok (.ok (List.replicate 64 'a')) := by
  have fresh : ∀ b, isValidAlias b = true → (Tree.empty : Disk (Option JsonTree)).entry
      (aliasFilePath ["wallets".toList] b) = none := by
    intro b _
    exact Tree.entry_empty (by simp [aliasFilePath])
  obtain ⟨⟨-, listed⟩, loaded, -⟩ := @afterCalls_keeps _ JsonFormat.values unsealed
    (List.replicate 16 'p') ["wallets".toList] (by decide) Tree.empty fresh ⟨id, fun _ => .refl _⟩
    (Sorter.merge Name) aliceSaved
  have kept : (aliceStore.2 "alice-01".toList).map Kept.seed = some (some (List.replicate 64 'a')) := by
    decide
  obtain ⟨k, hk, hseed⟩ := Option.map_eq_some_iff.mp kept
  refine ⟨(listed _).mpr ?_, loaded _ k _ [] hk hseed⟩
  intro absent
  cases hk.symm.trans absent

end MidnightSdk.Blockchain.WalletManager
