import Mathlib.Data.List.TakeWhile
import MidnightSdk.Library.JsonTree
import MidnightSdk.Library.TreeWalk
import MidnightSdk.Production.Confirmation
import MidnightSdk.Util.Hex

/-!
# The artifact manager

What a build has produced is written into a directory of its own, below the network,
the wallet, the operation and an identifier. Each of these is cleaned character by
character, so that one or two dots are left as they are; and files are copied under
their own names, whatever has been written before.
-/

namespace MidnightSdk.Production

open Cpp FileTree Ledger

structure ArtifactConfig where
  rootDir : String := "midnight-artifacts"
  network : String := "preview"
  walletId : String := "default"
  enabled : Bool := true

namespace ArtifactManager

abbrev Name : Type := List Char
abbrev Files : Type := Tree Name (List UInt8)

/-- What is found outside: where relative paths begin, the answer of `timestamp_id`, the text
of a JSON value indented by two, and the texts of exceptions. -/
structure Host where
  workingDirectory : List Name
  timestamp : List Char
  dump : JsonTree → Throws (List UInt8)
  filesystemError : String
  what : Exception → String

/-! ## Paths -/

/-- `dir / name` -/
def child (dir name : List Char) : List Char :=
  if dir.isEmpty || dir.getLast? == some '/' then dir ++ name else dir ++ '/' :: name

/-- `path::filename` -/
def filename (path : List Char) : Name := (path.reverse.takeWhile (· != '/')).reverse

def toStep (name : Name) : Step Name :=
  if name.isEmpty || name == ['.'] then .stay else if name == ['.', '.'] then .up else .into name

def stepsOf (path : List Char) : List (Step Name) := (path.splitOn '/').map toStep

/-- Where the steps of a path begin. -/
def start (host : Host) (path : List Char) : List Name :=
  if path.head? = some '/' then [] else host.workingDirectory

/-- Where a path leads. -/
def place (host : Host) (path : List Char) : List Name := follow (start host path) (stepsOf path)

/-- What a path leads to, if it exists. -/
def locate (host : Host) (disk : Files) (path : List Char) : Option (List Name) :=
  if path.isEmpty then none else disk.walk (start host path) (stepsOf path)

/-! ## Saving -/

def sanitizePathComponent (value : List Char) : List Char :=
  let value := value.map fun ch =>
    if ch.isAlphanum || ch == '-' || ch == '_' || ch == '.' then ch else '_'
  if value.isEmpty then "unknown".toList else value

/-- The components below the root. -/
def components (host : Host) (config : ArtifactConfig) (operation : String) (id : List Char) :
    List Name :=
  [sanitizePathComponent config.network.toList, sanitizePathComponent config.walletId.toList,
    sanitizePathComponent operation.toList,
    sanitizePathComponent (if id.isEmpty then host.timestamp else id)]

def operationDir (host : Host) (config : ArtifactConfig) (operation : String) (id : List Char) :
    List Char :=
  (components host config operation id).foldl child config.rootDir.toList

def createOperationDir (host : Host) (config : ArtifactConfig) (operation : String)
    (id : List Char) (disk : Files) : Throws (List Char × Files) :=
  let dir := operationDir host config operation id
  match disk.makeWay (start host dir) (stepsOf dir) with
  | none => .error (.runtimeError host.filesystemError)
  | some disk => .ok (dir, disk)

def buildId (host : Host) (build : BuildResult) : List Char :=
  if !build.transactionHash.toList.isEmpty then Util.stripHexPrefix build.transactionHash.toList
  else host.timestamp

def metadata (operation : String) (build : BuildResult) : JsonTree :=
  .ofFields [
    ("operation", .string operation.toList),
    ("success", .boolean build.success),
    ("transaction_hash", .string build.transactionHash.toList),
    ("contract_address", .string build.contractAddress.toList),
    ("output_file", .string build.outputFile.toList),
    ("intent_path", .string build.intentPath.toList),
    ("private_state_path", .string build.privateStatePath.toList),
    ("zswap_state_path", .string build.zswapStatePath.toList),
    ("onchain_state_path", .string build.onchainStatePath.toList),
    ("result_path", .string build.resultPath.toList),
    ("command", .string build.command.toList),
    ("error", .string build.error.toList)]

/-- A file that is written, or one that is copied if it exists. -/
inductive Item where
  | text (name : Name) (content : List UInt8)
  | copy (source : List Char)

/-- A part that is left out when it is empty. -/
def unlessEmpty (name : String) (content : List UInt8) : List (Name × List UInt8) :=
  if content.isEmpty then [] else [(name.toList, content)]

/-- What is written, beginning with the text of the metadata. -/
def texts (build : BuildResult) (json : List UInt8) : List (Name × List UInt8) :=
  [("metadata.json".toList, json)] ++
    unlessEmpty "transaction.mn" build.transactionBytes ++
    unlessEmpty "transaction.hex" (bytesOf build.transactionHex.toList) ++
    unlessEmpty "ledger.log" (bytesOf build.log.toList) ++
    unlessEmpty "ledger-output.json" (bytesOf build.rawOutput.toList)

def sourcePaths (build : BuildResult) : List (List Char) :=
  [build.outputFile.toList, build.intentPath.toList, build.privateStatePath.toList,
    build.zswapStatePath.toList, build.onchainStatePath.toList, build.resultPath.toList]

/-- The body of `save_build_result` behind the metadata, in order. -/
def items (build : BuildResult) (json : List UInt8) : List Item :=
  (texts build json).map (fun f => .text f.1 f.2) ++ (sourcePaths build).map .copy

/-- `write_text_file`, `write_binary_file` and `copy_if_exists`, with what is listed. -/
def saveItem (host : Host) (dir : List Char) (disk : Files) :
    Item → Throws (Files × List (List Char))
  | .text name content =>
    let path := child dir name
    match disk.writeFile (place host path) content with
    | none => .error (.runtimeError
        (String.ofList ("Could not open artifact file: ".toList ++ path)))
    | some disk => .ok (disk, [path])
  | .copy source =>
    match locate host disk source with
    | none => .ok (disk, [])
    | some found =>
      let copied := child dir (filename source)
      match disk.copyFile found (place host copied) with
      | none => .error (.runtimeError host.filesystemError)
      | some disk => .ok (disk, [copied])

/-- One item after the other; an exception ends it, and leaves what was done. -/
def saveItems (host : Host) (dir : List Char) :
    List Item → Files → List (List Char) → Option Exception × Files × List (List Char)
  | [], disk, files => (none, disk, files)
  | item :: items, disk, files =>
    match saveItem host dir disk item with
    | .error e => (some e, disk, files)
    | .ok (disk, saved) => saveItems host dir items disk (files ++ saved)

def failure (host : Host) (e : Exception) : SdkError :=
  ⟨.artifactError, "Could not save transaction artifacts", host.what e⟩

/-- `save_build_result`, and the files afterwards. -/
def saveBuildResult (host : Host) (config : ArtifactConfig) (operation : String)
    (build : BuildResult) (disk : Files) : ArtifactSaveResult × Files :=
  if !config.enabled then ({ success := true }, disk)
  else
    match createOperationDir host config operation (buildId host build) disk with
    | .error e => ({ error := failure host e }, disk)
    | .ok (dir, disk) =>
      let directory := String.ofList dir
      match host.dump (metadata operation build) with
      | .error e => ({ directory, error := failure host e }, disk)
      | .ok json =>
        match saveItems host dir (items build json) disk [] with
        | (some e, disk, files) =>
          ({ directory, files := files.map String.ofList, error := failure host e }, disk)
        | (none, disk, files) =>
          ({ success := true, directory, files := files.map String.ofList }, disk)

/-! ## Where paths lead -/

theorem filename_spec (path : List Char) : '/' ∉ filename path ∧
    (path = filename path ∨ ∃ dir, path = dir ++ '/' :: filename path) := by
  have free : '/' ∉ filename path := by
    rw [filename, List.mem_reverse]
    intro mem
    have off := List.mem_takeWhile_imp mem
    simp at off
  have split := congrArg List.reverse
    (@List.takeWhile_append_dropWhile _ (· != '/') path.reverse)
  rw [List.reverse_append, List.reverse_reverse] at split
  refine ⟨free, ?_⟩
  cases behind : path.reverse.dropWhile (· != '/') with
  | nil =>
    rw [behind] at split
    exact .inl split.symm
  | cons c rest =>
    have slash : c = '/' := by
      have first := List.head?_dropWhile_not (· != '/') path.reverse
      rw [behind] at first
      simpa using first
    rw [behind, slash, List.reverse_cons, List.append_assoc] at split
    exact .inr ⟨rest.reverse, split.symm⟩

theorem stepsOf_append (dir : List Char) {name : Name} (h : '/' ∉ name) :
    stepsOf (dir ++ '/' :: name) = stepsOf dir ++ [toStep name] := by
  rw [stepsOf, List.splitOn_append_cons_self, List.splitOn_eq_singleton h, List.map_append]
  rfl

theorem stepsOf_name {name : Name} (h : '/' ∉ name) : stepsOf name = [toStep name] := by
  rw [stepsOf, List.splitOn_eq_singleton h]
  rfl

theorem start_append (host : Host) {dir : List Char} (h : dir ≠ []) (behind : List Char) :
    start host (dir ++ behind) = start host dir := by
  rw [start, start, List.head?_append_of_ne_nil _ h]

/-- A name behind a path is one step more. -/
theorem place_child (host : Host) (dir : List Char) {name : Name} (h : '/' ∉ name) :
    place host (child dir name) = (toStep name).follow (place host dir) := by
  rcases List.eq_nil_or_concat dir with rfl | ⟨front, c, rfl⟩
  · have outside : name.head? ≠ some '/' := fun first => h (List.mem_of_mem_head? first)
    have here : place host [] = host.workingDirectory := rfl
    have same : child [] name = name := rfl
    rw [here, same, place, start, if_neg outside, stepsOf_name h]
    rfl
  · rw [List.concat_eq_append]
    by_cases slash : c = '/'
    · subst slash
      have same : child (front ++ ['/']) name = front ++ '/' :: name := by simp [child]
      have begins : start host (front ++ '/' :: name) = start host (front ++ ['/']) := by
        have whole : front ++ '/' :: name = (front ++ ['/']) ++ name := by simp
        rw [whole]
        exact start_append host (by simp) name
      rw [same, place, place, begins, stepsOf_append front h,
        stepsOf_append front List.not_mem_nil, follow_append, follow_append]
      rfl
    · have same : child (front ++ [c]) name = (front ++ [c]) ++ '/' :: name := by
        simp [child, slash]
      rw [same, place, place, start_append host (by simp), stepsOf_append _ h, follow_append]
      rfl

theorem place_foldl_child (host : Host) (dir : List Char) {names : List Name}
    (h : ∀ name ∈ names, '/' ∉ name) :
    place host (names.foldl child dir) = follow (place host dir) (names.map toStep) := by
  induction names generalizing dir with
  | nil => rfl
  | cons name names ih =>
    obtain ⟨here, later⟩ := List.forall_mem_cons.mp h
    rw [List.foldl_cons, ih _ later, place_child host dir here]
    rfl

theorem not_mem_sanitizePathComponent (value : List Char) : '/' ∉ sanitizePathComponent value := by
  rw [sanitizePathComponent]
  split
  · decide
  · intro mem
    obtain ⟨ch, -, same⟩ := List.mem_map.mp mem
    split at same
    · rename_i kept
      rw [same] at kept
      exact absurd kept (by decide)
    · exact absurd same (by decide)

theorem not_mem_components (host : Host) (config : ArtifactConfig) (operation : String)
    (id : List Char) : ∀ name ∈ components host config operation id, '/' ∉ name := by
  simp only [components, List.forall_mem_cons, not_mem_sanitizePathComponent, not_false_eq_true,
    true_and]
  exact List.forall_mem_nil _

theorem place_operationDir (host : Host) (config : ArtifactConfig) (operation : String)
    (id : List Char) :
    place host (operationDir host config operation id) =
      follow (place host config.rootDir.toList)
        ((components host config operation id).map toStep) :=
  place_foldl_child host _ (not_mem_components host config operation id)

/-- The name of a file is the last step of its path. -/
theorem getLast?_stepsOf (path : List Char) :
    (stepsOf path).getLast? = some (toStep (filename path)) := by
  obtain ⟨free, whole | ⟨dir, whole⟩⟩ := filename_spec path
  · have same : stepsOf path = stepsOf (filename path) := congrArg stepsOf whole
    rw [same, stepsOf_name free]
    rfl
  · generalize filename path = name at free whole
    rw [whole, stepsOf_append dir free, List.getLast?_concat]

theorem eq_of_toStep {name n : Name} (h : toStep name = .into n) : name = n := by
  rw [toStep] at h
  split at h
  · cases h
  · split at h
    · cases h
    · cases h
      rfl

theorem locate_eq_some {host : Host} {disk : Files} {path : List Char} {found : List Name} :
    locate host disk path = some found ↔
      path ≠ [] ∧ disk.walk (start host path) (stepsOf path) = some found := by
  rw [locate]
  cases path <;> simp

theorem stepsOf_ne_nil (path : List Char) : stepsOf path ≠ [] := by
  rw [stepsOf, Ne, List.map_eq_nil_iff]
  exact List.splitOn_ne_nil _ _

/-- A file that exists is called what its path ends with. -/
theorem filename_of_locate {host : Host} {disk : Files} {path : List Char} {found : List Name}
    {content : List UInt8} (h : locate host disk path = some found)
    (file : disk.entry found = some (.file content)) :
    toStep (filename path) = .into (filename path) ∧
      ∃ around, found = around ++ [filename path] := by
  obtain ⟨around, n, whole, last⟩ := 
    Tree.last_of_walk_file (locate_eq_some.mp h).2 (stepsOf_ne_nil path) file
  rw [getLast?_stepsOf] at last
  have step := Option.some.inj last
  obtain rfl := eq_of_toStep step
  exact ⟨step, around, whole⟩

/-! ## What is saved -/

/-- A named source, if it exists and is a file. -/
def source (host : Host) (disk : Files) (path : List Char) : Option (Name × List UInt8) := do
  let found ← locate host disk path
  let content ← disk.file? found
  return (filename path, content)

def artifact (host : Host) (disk : Files) : Item → List (Name × List UInt8)
  | .text name content => [(name, content)]
  | .copy path => (source host disk path).toList

/-- The artifacts of a build, in the order in which they are saved. -/
def artifacts (host : Host) (build : BuildResult) (json : List UInt8) (disk : Files) :
    List (Name × List UInt8) :=
  (items build json).flatMap (artifact host disk)

/-- The names that the manager gives are names. -/
def Item.Plain : Item → Prop
  | .text name _ => toStep name = .into name ∧ '/' ∉ name
  | .copy _ => True

/-- Files were listed, and written one after the other. -/
structure Saved (host : Host) (dir : List Char) (disk disk' : Files)
    (files : List (List Char)) (saved : List (Name × List UInt8)) : Prop where
  listed : files = saved.map fun f => child dir f.1
  entry : disk'.entry = written (place host dir) saved disk.entry
  writtenIn : Tree.WrittenIn (place host dir) disk disk'

section Run
variable {host : Host} {dir : List Char} {opened disk disk' : Files} {files : List (List Char)}

theorem saved_of_writeFile {name : Name} {content : List UInt8} (plain : toStep name = .into name)
    (free : '/' ∉ name)
    (h : disk.writeFile (place host (child dir name)) content = some disk') :
    Saved host dir disk disk' [child dir name] [(name, content)] := by
  rw [place_child host dir free, plain] at h
  exact ⟨rfl, funext (Tree.entry_writeFile h), Tree.writtenIn_of_writeFile h⟩

/-- A copy that succeeds comes from outside, so it is of what was there at first. -/
theorem saved_of_copy {path : List Char} (since : Tree.WrittenIn (place host dir) opened disk)
    (h : saveItem host dir disk (.copy path) = .ok (disk', files)) :
    Saved host dir disk disk' files (artifact host opened (.copy path)) := by
  rw [saveItem] at h
  cases here : locate host disk path with
  | none =>
    rw [here] at h
    obtain ⟨rfl, rfl⟩ := Prod.mk.inj (Except.ok.inj h)
    have before : locate host opened path = none := by
      by_contra found
      obtain ⟨q, hq⟩ := Option.ne_none_iff_exists'.mp found
      obtain ⟨some_text, goes⟩ := locate_eq_some.mp hq
      rw [locate_eq_some.mpr ⟨some_text, since.walk goes⟩] at here
      cases here
    have none : artifact host opened (.copy path) = [] := by
      rw [artifact, source, before]
      rfl
    rw [none]
    exact ⟨rfl, rfl, .refl _ _⟩
  | some found =>
    rw [here] at h
    dsimp only at h
    split at h
    · cases h
    · rename_i hcopied
      obtain ⟨rfl, rfl⟩ := Prod.mk.inj (Except.ok.inj h)
      obtain ⟨content, file, apart, hwritten⟩ := Tree.copyFile_eq_some.mp hcopied
      obtain ⟨plain, around, whole⟩ := filename_of_locate here file
      have free := (filename_spec path).1
      rw [place_child host dir free, plain] at apart
      -- a file of the directory would be copied onto itself
      have outside : ∀ n, found ≠ place host dir ++ [n] := by
        rintro n inside
        rw [inside] at whole
        obtain ⟨-, name⟩ := List.append_inj' whole rfl
        exact apart (inside.trans (by rw [List.singleton_inj.mp name]; rfl))
      obtain ⟨some_text, goes⟩ := locate_eq_some.mp here
      have before : locate host opened path = some found := by
        rcases since.walk_cases goes with goes | ⟨n, inside⟩
        · exact locate_eq_some.mpr ⟨some_text, goes⟩
        · exact absurd inside (outside n)
      have original : opened.file? found = some content := by
        rw [Tree.file?_eq_some]
        rcases since found with same | ⟨n, c, inside, -⟩
        · rw [← same, file]
        · exact absurd inside (outside n)
      have one : artifact host opened (.copy path) = [(filename path, content)] := by
        rw [artifact, source, before]
        simp [original]
      rw [one]
      exact saved_of_writeFile plain free hwritten

theorem saved_of_saveItem {item : Item} (plain : item.Plain)
    (since : Tree.WrittenIn (place host dir) opened disk)
    (h : saveItem host dir disk item = .ok (disk', files)) :
    Saved host dir disk disk' files (artifact host opened item) := by
  cases item with
  | text name content =>
    rw [saveItem] at h
    split at h
    · cases h
    · rename_i hwritten
      obtain ⟨rfl, rfl⟩ := Prod.mk.inj (Except.ok.inj h)
      exact saved_of_writeFile plain.1 plain.2 hwritten
  | copy path => exact saved_of_copy since h

theorem saved_of_saveItems {items : List Item} (plain : ∀ item ∈ items, item.Plain)
    (since : Tree.WrittenIn (place host dir) opened disk) {earlier : List (List Char)}
    (h : saveItems host dir items disk earlier = (none, disk', files)) :
    ∃ later, files = earlier ++ later ∧
      Saved host dir disk disk' later (items.flatMap (artifact host opened)) := by
  induction items generalizing disk earlier with
  | nil =>
    obtain ⟨-, same⟩ := Prod.mk.inj h
    obtain ⟨rfl, rfl⟩ := Prod.mk.inj same
    exact ⟨[], (List.append_nil _).symm, rfl, rfl, .refl _ _⟩
  | cons item items ih =>
    obtain ⟨here, later⟩ := List.forall_mem_cons.mp plain
    rw [saveItems] at h
    split at h
    · cases (Prod.mk.inj h).1
    · rename_i after saved hitem
      have first := saved_of_saveItem here since hitem
      obtain ⟨rest, rfl, others⟩ := ih later (since.trans first.writtenIn) h
      refine ⟨saved ++ rest, List.append_assoc _ _ _, ?_, ?_,
        first.writtenIn.trans others.writtenIn⟩
      · rw [List.flatMap_cons, List.map_append, ← first.listed, ← others.listed]
      · rw [List.flatMap_cons, written_append, ← first.entry, others.entry]

end Run

theorem plain_of_mem_texts {build : BuildResult} {json : List UInt8} {f : Name × List UInt8}
    (h : f ∈ texts build json) : toStep f.1 = .into f.1 ∧ '/' ∉ f.1 := by
  have given : ["metadata.json", "transaction.mn", "transaction.hex", "ledger.log",
      "ledger-output.json"].Forall fun name =>
        toStep name.toList = .into name.toList ∧ '/' ∉ name.toList := by decide
  obtain ⟨json, mn, hex, log, output⟩ := given
  have part {name : String} {content : List UInt8}
      (hname : toStep name.toList = .into name.toList ∧ '/' ∉ name.toList)
      (hf : f ∈ unlessEmpty name content) : toStep f.1 = .into f.1 ∧ '/' ∉ f.1 := by
    rw [unlessEmpty] at hf
    split at hf
    · cases hf
    · rw [List.mem_singleton.mp hf]
      exact hname
  simp only [texts, List.mem_append, List.mem_singleton] at h
  obtain (((rfl | h) | h) | h) | h := h
  · exact json
  · exact part mn h
  · exact part hex h
  · exact part log h
  · exact part output h

theorem plain_of_mem_items {build : BuildResult} {json : List UInt8} :
    ∀ item ∈ items build json, item.Plain := by
  intro item hitem
  rcases List.mem_append.mp hitem with h | h
  · obtain ⟨f, hf, rfl⟩ := List.mem_map.mp h
    exact plain_of_mem_texts hf
  · obtain ⟨path, -, rfl⟩ := List.mem_map.mp h
    trivial

theorem plain_of_mem_artifact {host : Host} {disk : Files} {item : Item} (plain : item.Plain)
    {f : Name × List UInt8} (h : f ∈ artifact host disk item) :
    toStep f.1 = .into f.1 ∧ '/' ∉ f.1 := by
  cases item with
  | text name content =>
    rw [List.mem_singleton.mp h]
    exact plain
  | copy path =>
    obtain ⟨found, here, hfound⟩ := Option.bind_eq_some_iff.mp (Option.mem_toList.mp h)
    obtain ⟨content, file, made⟩ := Option.bind_eq_some_iff.mp hfound
    obtain rfl := Option.some.inj made
    exact ⟨(filename_of_locate here (Tree.file?_eq_some.mp file)).1, (filename_spec path).1⟩

theorem place_artifact {host : Host} {build : BuildResult} {json : List UInt8} {disk : Files}
    {f : Name × List UInt8} (h : f ∈ artifacts host build json disk) (dir : List Char) :
    place host (child dir f.1) = place host dir ++ [f.1] := by
  obtain ⟨item, hitem, hf⟩ := List.mem_flatMap.mp h
  obtain ⟨plain, free⟩ := plain_of_mem_artifact (plain_of_mem_items item hitem) hf
  rw [place_child host dir free, plain]
  rfl

/-! ## When the promise is kept -/

/-- What is promised of a call that succeeds: a directory properly below the root, files in
it, and among them every artifact as it is. -/
def SaveLaw (host : Host) (config : ArtifactConfig) (operation : String) (build : BuildResult)
    (disk : Files) : Prop :=
  let result := (saveBuildResult host config operation build disk).1
  let after := (saveBuildResult host config operation build disk).2
  (∃ rest, rest ≠ [] ∧
    place host result.directory.toList = place host config.rootDir.toList ++ rest) ∧
  (∀ file ∈ result.files, ∃ name,
    place host file.toList = place host result.directory.toList ++ [name]) ∧
  ∀ json, host.dump (metadata operation build) = .ok json →
    ∀ a ∈ artifacts host build json disk,
      ∃ file ∈ result.files, after.file? (place host file.toList) = some a.2

/-- Once each `..` has taken back the component in front of it, the components that are left
go on, behind the last names of the root if there is a `..` left for each of these. -/
def Descends (root components : List Name) : Prop :=
  ∃ rest, rest ≠ [] ∧ (restOf (components.map toStep)).names =
    root.drop (root.length - (restOf (components.map toStep)).ups) ++ rest

/-- Every artifact has the content of one that no later artifact of its name replaces. -/
def Lasting (host : Host) (config : ArtifactConfig) (operation : String) (build : BuildResult)
    (disk : Files) : Prop :=
  ∀ dir opened json,
    createOperationDir host config operation (buildId host build) disk = .ok (dir, opened) →
    host.dump (metadata operation build) = .ok json →
    ∀ a ∈ artifacts host build json disk,
      ∃ f, Survives (artifacts host build json opened) f ∧ f.2 = a.2

section Call
variable {host : Host} {config : ArtifactConfig} {operation : String} {build : BuildResult}
  {disk : Files}

theorem createOperationDir_eq_ok {id dir : List Char} {opened : Files} :
    createOperationDir host config operation id disk = .ok (dir, opened) ↔
      operationDir host config operation id = dir ∧
        disk.makeWay (start host (operationDir host config operation id))
          (stepsOf (operationDir host config operation id)) = some opened := by
  unfold createOperationDir
  dsimp only
  cases disk.makeWay (start host (operationDir host config operation id))
      (stepsOf (operationDir host config operation id)) with
  | none => exact iff_of_false (by intro h; cases h) (by rintro ⟨-, h⟩; cases h)
  | some made =>
    dsimp only
    rw [Except.ok.injEq, Prod.mk.injEq, Option.some.injEq]

/-- What a call has done that succeeds. -/
theorem saved_of_success (enabled : config.enabled = true)
    (success : (saveBuildResult host config operation build disk).1.success = true) :
    ∃ dir opened json files,
      createOperationDir host config operation (buildId host build) disk = .ok (dir, opened) ∧
      host.dump (metadata operation build) = .ok json ∧
      (saveBuildResult host config operation build disk).1.directory = String.ofList dir ∧
      (saveBuildResult host config operation build disk).1.files = files.map String.ofList ∧
      Saved host dir opened (saveBuildResult host config operation build disk).2 files
        (artifacts host build json opened) := by
  have goes : ¬(!config.enabled) = true := by simp [enabled]
  cases made : createOperationDir host config operation (buildId host build) disk with
  | error e =>
    simp only [saveBuildResult, if_neg goes, made] at success
    cases success
  | ok opening =>
    obtain ⟨dir, opened⟩ := opening
    cases dumped : host.dump (metadata operation build) with
    | error e =>
      simp only [saveBuildResult, if_neg goes, made, dumped] at success
      cases success
    | ok json =>
      cases run : saveItems host dir (items build json) opened [] with
      | mk thrown rest =>
        obtain ⟨after, files⟩ := rest
        cases thrown with
        | some e =>
          simp only [saveBuildResult, if_neg goes, made, dumped, run] at success
          cases success
        | none =>
          obtain ⟨later, same, saved⟩ := saved_of_saveItems plain_of_mem_items (.refl _ _) run
          rw [List.nil_append] at same
          subst same
          have outcome : saveBuildResult host config operation build disk =
              ({ success := true, directory := String.ofList dir,
                 files := files.map String.ofList }, after) := by
            simp only [saveBuildResult, if_neg goes, made, dumped, run]
          rw [outcome]
          exact ⟨dir, opened, json, files, rfl, rfl, rfl, rfl, saved⟩

/-- A path that exists leads to its place. -/
theorem place_of_locate {path : List Char} {found : List Name}
    (h : locate host disk path = some found) : found = place host path :=
  Tree.walk_eq_follow (locate_eq_some.mp h).2

theorem directory_of_createOperationDir {id dir : List Char} {opened : Files}
    (h : createOperationDir host config operation id disk = .ok (dir, opened)) :
    opened.entry (place host dir) = some .directory := by
  obtain ⟨rfl, made⟩ := createOperationDir_eq_ok.mp h
  refine Tree.directory_of_makeWay made ?_
  -- the first step leaves from a directory
  cases steps : stepsOf (operationDir host config operation id) with
  | nil => exact absurd steps (stepsOf_ne_nil _)
  | cons s steps' =>
    rw [steps] at made
    exact (Tree.makeWay_cons.mp made).1

/-- **What a successful call changes**: its directory is there, and elsewhere there are only
new directories. -/
theorem entry_of_success (enabled : config.enabled = true)
    (success : (saveBuildResult host config operation build disk).1.success = true) :
    let result := (saveBuildResult host config operation build disk).1
    let after := (saveBuildResult host config operation build disk).2
    after.entry (place host result.directory.toList) = some .directory ∧
      ∀ q, (∀ name, q ≠ place host result.directory.toList ++ [name]) →
        after.entry q = disk.entry q ∨
          (disk.entry q = none ∧ after.entry q = some .directory) := by
  obtain ⟨dir, opened, json, files, made, -, hdir, -, saved⟩ := saved_of_success enabled success
  dsimp only
  rw [hdir, String.toList_ofList]
  constructor
  · exact (saved.writtenIn.directory_iff _).mpr (directory_of_createOperationDir made)
  · intro q outside
    rw [saved.entry, written_elsewhere _ outside]
    exact Tree.makeWay_cases (createOperationDir_eq_ok.mp made).2 q

/-- The listed files are where the artifacts were written. -/
theorem place_of_listed {dir : List Char} {opened after : Files} {json : List UInt8}
    {files : List (List Char)}
    (saved : Saved host dir opened after files (artifacts host build json opened)) :
    (files.map String.ofList).map (fun file => place host file.toList) =
      (artifacts host build json opened).map fun f => place host dir ++ [f.1] := by
  rw [saved.listed, List.map_map, List.map_map]
  apply List.map_congr_left
  intro f hf
  rw [Function.comp_apply, Function.comp_apply, String.toList_ofList]
  exact place_artifact hf dir

/-- **When a saved build is kept as promised**: its components descend from the root, and its
artifacts last. -/
theorem saveLaw_iff (host : Host) (config : ArtifactConfig) (operation : String)
    (build : BuildResult) (disk : Files) (enabled : config.enabled = true)
    (success : (saveBuildResult host config operation build disk).1.success = true) :
    SaveLaw host config operation build disk ↔
      Descends (place host config.rootDir.toList)
          (components host config operation (buildId host build)) ∧
        Lasting host config operation build disk := by
  obtain ⟨dir, opened, json, files, made, dumped, hdir, hfiles, saved⟩ :=
    saved_of_success enabled success
  obtain ⟨rfl, -⟩ := createOperationDir_eq_ok.mp made
  have places := place_of_listed saved
  rw [← hfiles] at places
  have below : (∃ rest, rest ≠ [] ∧ place host
      (saveBuildResult host config operation build disk).1.directory.toList =
        place host config.rootDir.toList ++ rest) ↔
      Descends (place host config.rootDir.toList)
        (components host config operation (buildId host build)) := by
    rw [hdir, String.toList_ofList, place_operationDir]
    exact follow_inside_iff
  have inside (file : String)
      (hfile : file ∈ (saveBuildResult host config operation build disk).1.files) :
      ∃ name, place host file.toList = place host
        (saveBuildResult host config operation build disk).1.directory.toList ++ [name] := by
    have listed := List.mem_map_of_mem (f := fun file : String => place host file.toList) hfile
    rw [places] at listed
    obtain ⟨f, -, same⟩ := List.mem_map.mp listed
    rw [hdir, String.toList_ofList]
    exact ⟨f.1, same.symm⟩
  -- what the listed files hold is what the last artifacts of their names held
  have left (c : List UInt8) :
      (∃ file ∈ (saveBuildResult host config operation build disk).1.files,
        (saveBuildResult host config operation build disk).2.file? (place host file.toList) =
          some c) ↔
      ∃ f, Survives (artifacts host build json opened) f ∧ f.2 = c := by
    have last := @exists_written_iff _ _ _ (place host (operationDir host config operation
      (buildId host build))) opened.entry (artifacts host build json opened) c
    rw [← last, ← saved.entry]
    simp only [Tree.file?_eq_some]
    have both := congrArg (fun places => ∃ q ∈ places,
      (saveBuildResult host config operation build disk).2.entry q = some (.file c)) places
    simpa only [List.mem_map, exists_exists_and_eq_and, eq_iff_iff] using both
  constructor
  · rintro ⟨descends, -, kept⟩
    refine ⟨below.mp descends, ?_⟩
    intro dir' opened' json' made' dumped' a ha
    obtain ⟨-, rfl⟩ := Prod.mk.inj (Except.ok.inj (made.symm.trans made'))
    obtain rfl := Except.ok.inj (dumped.symm.trans dumped')
    exact (left a.2).mp (kept json dumped a ha)
  · rintro ⟨descends, lasting⟩
    refine ⟨below.mpr descends, inside, ?_⟩
    intro json' dumped' a ha
    obtain rfl := Except.ok.inj (dumped.symm.trans dumped')
    exact (left a.2).mpr (lasting _ opened json made dumped a ha)

end Call

/-! ## Dots, and a file called like the metadata -/

/-- A member as it is written when nothing in it needs an escape. -/
def plainMember : List Char × JsonTree → Option (List Char)
  | (key, .string text) =>
    if text.all fun c => 32 ≤ c.toNat && c.toNat ≤ 126 && c != '"' && c != '\\' then
      some ("  \"".toList ++ key ++ "\": \"".toList ++ text ++ ['"'])
    else none
  | (key, .boolean b) =>
    some ("  \"".toList ++ key ++ "\": ".toList ++ (if b then "true" else "false").toList)
  | _ => none

/-- `dump(2)` of an object with such members. -/
def plainDump (j : JsonTree) : Throws (List UInt8) :=
  match j.items.mapM plainMember with
  | some lines =>
    .ok (bytesOf ("\x7b\n".toList ++ ",\n".toList.intercalate lines ++ "\n\x7d".toList))
  | none => .error (.typeError 316)

def sampleHost : Host where
  workingDirectory := []
  timestamp := "20240101T000000000Z".toList
  dump := plainDump
  filesystemError := "filesystem error"
  what _ := "filesystem error"

def sampleConfig : ArtifactConfig := { rootDir := "/art" }

/-- One file beside the root. -/
def sampleDisk : Files :=
  (((Tree.empty : Files).createDirectories ["out".toList]).bind
    (·.writeFile ["out".toList, "metadata.json".toList] [1])).getD Tree.empty

def dotsBuild : BuildResult := { transactionHash := ".." }

def namesakeBuild : BuildResult :=
  { transactionHash := "0xab", outputFile := "/out/metadata.json" }

/-- Two names of two dots lead back to the root; and a file with the name of the metadata takes
their place. -/
theorem not_saveLaw_sample :
    ((saveBuildResult sampleHost sampleConfig ".." dotsBuild Tree.empty).1.success = true ∧
      ¬SaveLaw sampleHost sampleConfig ".." dotsBuild Tree.empty) ∧
    (saveBuildResult sampleHost sampleConfig "transfer" namesakeBuild sampleDisk).1.success = true ∧
      ¬SaveLaw sampleHost sampleConfig "transfer" namesakeBuild sampleDisk := by
  refine ⟨⟨by decide +kernel, ?_⟩, by decide +kernel, ?_⟩
  · rintro ⟨⟨rest, hne, below⟩, -⟩
    have here : place sampleHost
        (saveBuildResult sampleHost sampleConfig ".." dotsBuild Tree.empty).1.directory.toList =
          place sampleHost sampleConfig.rootDir.toList := by
      decide +kernel
    rw [here] at below
    exact hne (List.self_eq_append_right.mp below)
  · rintro ⟨-, -, kept⟩
    have held : ∀ file ∈
        (saveBuildResult sampleHost sampleConfig "transfer" namesakeBuild sampleDisk).1.files,
        (saveBuildResult sampleHost sampleConfig "transfer" namesakeBuild sampleDisk).2.file?
          (place sampleHost file.toList) = some [1] := by
      decide +kernel
    have written : (sampleHost.dump (metadata "transfer" namesakeBuild)).toOption ≠ none ∧
        (sampleHost.dump (metadata "transfer" namesakeBuild)).toOption ≠ some [1] := by
      decide +kernel
    cases dumped : sampleHost.dump (metadata "transfer" namesakeBuild) with
    | error e => exact written.1 (congrArg Except.toOption dumped)
    | ok json =>
      obtain ⟨file, hfile, still⟩ := kept json dumped ("metadata.json".toList, json) (by
        rw [artifacts, items, texts]
        simp [artifact])
      rw [held file hfile] at still
      obtain rfl := Option.some.inj still
      exact written.2 (congrArg Except.toOption dumped)

/-- A build with a name of its own, and its bytes. -/
def plainBuild : BuildResult := { transactionHash := "0xab", transactionBytes := [1, 2] }

theorem saveLaw_sample : SaveLaw sampleHost sampleConfig "transfer" plainBuild sampleDisk := by
  refine (saveLaw_iff sampleHost sampleConfig "transfer" plainBuild sampleDisk rfl
    (by decide +kernel)).mpr ⟨⟨["preview".toList, "default".toList, "transfer".toList,
      "ab".toList], by decide, by decide +kernel⟩, ?_⟩
  rintro dir opened json - - a ha
  have parts (disk : Files) : artifacts sampleHost plainBuild json disk =
      [("metadata.json".toList, json), ("transaction.mn".toList, [1, 2])] := rfl
  rw [parts] at ha ⊢
  rcases List.mem_cons.mp ha with rfl | ha
  · exact ⟨_, ⟨[], _, rfl, by simp⟩, rfl⟩
  · rw [List.mem_singleton.mp ha]
    exact ⟨_, ⟨[("metadata.json".toList, json)], [], rfl, by simp⟩, rfl⟩

end ArtifactManager

end MidnightSdk.Production
