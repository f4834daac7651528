import MidnightSdk.Blockchain.WalletManager
import MidnightSdk.Library.Interaction

/-!
# Writing a wallet on a disk that fails

Every operation of `write_wallet_json` on the file system is a question to it, and the
answer says how it went. The process may stop before any of them.
-/

namespace MidnightSdk.Blockchain.WalletManager.Writes

open Cpp Interaction Program

/-- `insert` is the `<<` of the stream, whose rest is written when the stream is closed. -/
inductive Op where
  | openStream (path : Path)
  | insert (path : Path) (text : List UInt8)
  | close (path : Path) (text : List UInt8) (inserted : Nat)
  | permissions (path : Path)
  | checkExists (path : Path)
  | remove (path : Path)
  | rename (source target : Path)
  deriving DecidableEq, Repr

/-- Whether it was done, or is there; a stream says how many bytes got to the disk. -/
abbrev Op.Answer : Op → Type
  | .insert _ _ => Nat × Bool
  | .close _ _ _ => Nat
  | _ => Bool

abbrev Step (α : Type) : Type := Program Op Op.Answer Exception α

/-! ## The function -/

section
variable (walletPath temp : Path) (message : List Char)

def giveUp (error : List Char) : Step (Reported Unit) := do
  let _ ← question (.remove temp)
  return .error error

def moveIntoPlace : Step (Reported Unit) := do
  let moved ← question (.rename temp walletPath)
  if moved then return .ok ()
  else giveUp temp ("Failed to move wallet file into place: ".toList ++ message)

def replaceExisting : Step (Reported Unit) := do
  let present ← question (.checkExists walletPath)
  if present then
    let removed ← question (.remove walletPath)
    if removed then moveIntoPlace walletPath temp message
    else giveUp temp ("Failed to replace existing wallet file: ".toList ++ message)
  else moveIntoPlace walletPath temp message

def restrict : Step (Reported Unit) := do
  let restricted ← question (.permissions temp)
  if restricted then replaceExisting walletPath temp message
  else
    giveUp temp ("Failed to set restrictive permissions on temp wallet file: ".toList ++ message)

/-- The stream is closed at the end of its block, whatever happened in it. -/
def writeTemp (text : List UInt8) : Step (Reported Unit) := do
  let inserted ← question (Op.insert temp text)
  if inserted.2 then
    let _ ← question (.close temp text inserted.1)
    restrict walletPath temp message
  else
    let given ← giveUp temp "Failed to persist wallet payload to temporary file".toList
    let _ ← question (.close temp text inserted.1)
    return given

end

/-- `dump` is the payload as text. -/
def writeWalletJson (walletPath : Path) (ticks : Int) (message : List Char)
    (dump : Throws (List UInt8)) : Step (Reported Unit) := do
  let temp := tempPath walletPath ticks
  let opened ← question (.openStream temp)
  if opened then
    let text ← orThrow dump
    writeTemp walletPath temp message text
  else giveUp temp ("Failed to write temporary wallet file: ".toList ++ pathString temp)

/-! ## The disk -/

abbrev Files : Type := Path → Option (List UInt8)

namespace Files

/-- What an operation that went so leaves behind. A stream without a file writes nowhere. -/
def after (files : Files) : (event : (op : Op) × op.Answer) → Files
  | ⟨.openStream path, true⟩ => Function.update files path (some [])
  | ⟨.insert path text, (inserted, _)⟩ =>
    Function.update files path ((files path).map fun _ => text.take inserted)
  | ⟨.close path text inserted, flushed⟩ =>
    Function.update files path ((files path).map fun _ => text.take (inserted + flushed))
  | ⟨.remove path, true⟩ => Function.update files path none
  | ⟨.rename source target, true⟩ =>
    Function.update (Function.update files target (files source)) source none
  | _ => files

def afterAll (files : Files) (events : List (Event Op.Answer)) : Files := events.foldl after files

end Files

/-! ## What is asked of it -/

section
variable (walletPath temp : Path)

/-- The function returned true. -/
def Succeeded (ending : Option (Throws (Reported Unit))) : Prop := ending = some (.ok (.ok ()))

structure Safe (dump : Throws (List UInt8)) (files : Files) (seen : List (Event Op.Answer))
    (ending : Option (Throws (Reported Unit))) : Prop where
  kept : ¬ Succeeded ending → ∀ old, files walletPath = some old →
    files.afterAll seen walletPath = some old
  replaced : Succeeded ending → ∃ text, dump = .ok text ∧
    files.afterAll seen walletPath = some text ∧ files.afterAll seen temp = none

/-- What the disk has to do: move the new file to where it has removed the old one, and move no
file whose text got lost when the stream was closed. -/
structure Meets (files : Files) (seen : List (Event Op.Answer)) : Prop where
  inPlace : files walletPath ≠ none → ⟨.remove walletPath, true⟩ ∈ seen →
    ⟨.rename temp walletPath, true⟩ ∈ seen
  flushed : ⟨.rename temp walletPath, true⟩ ∈ seen → ∀ text inserted flushed,
    ⟨.close temp text inserted, flushed⟩ ∈ seen → text.length ≤ inserted + flushed

/-- How a part of a run leaves the two files that it found. -/
inductive Leaves (files : Files) (seen : List (Event Op.Answer))
    (ending : Option (Throws (Reported Unit))) : Prop
  | kept (untouched : ⟨.remove walletPath, true⟩ ∉ seen)
      (unmoved : ⟨.rename temp walletPath, true⟩ ∉ seen) (fails : ¬ Succeeded ending)
      (same : files.afterAll seen walletPath = files walletPath)
  | lost (removed : ⟨.remove walletPath, true⟩ ∈ seen)
      (unmoved : ⟨.rename temp walletPath, true⟩ ∉ seen) (fails : ¬ Succeeded ending)
      (gone : files.afterAll seen walletPath = none)
  | placed (renamed : ⟨.rename temp walletPath, true⟩ ∈ seen) (succeeds : Succeeded ending)
      (moved : files.afterAll seen walletPath = files temp)
      (none : files.afterAll seen temp = none)

variable {walletPath temp} {files : Files} {seen : List (Event Op.Answer)}
  {ending : Option (Throws (Reported Unit))} {message : List Char}

theorem Leaves.cons {event : Event Op.Answer}
    (h : Leaves walletPath temp (files.after event) seen ending)
    (hwallet : files.after event walletPath = files walletPath)
    (htemp : files.after event temp = files temp) (other : event ≠ ⟨.remove walletPath, true⟩)
    (still : event ≠ ⟨.rename temp walletPath, true⟩) :
    Leaves walletPath temp files (event :: seen) ending := by
  cases h with
  | kept untouched unmoved fails same =>
    refine .kept ?_ ?_ fails (same.trans hwallet)
    · rw [List.mem_cons, not_or]
      exact ⟨other.symm, untouched⟩
    · rw [List.mem_cons, not_or]
      exact ⟨still.symm, unmoved⟩
  | lost removed unmoved fails gone =>
    refine .lost (List.mem_cons_of_mem _ removed) ?_ fails gone
    rw [List.mem_cons, not_or]
    exact ⟨still.symm, unmoved⟩
  | placed renamed succeeds moved none =>
    exact .placed (List.mem_cons_of_mem _ renamed) succeeds (moved.trans htemp) none

theorem Leaves.cut : Leaves walletPath temp files [] none := .kept nofun nofun nofun rfl

/-- An operation that cannot change this file. -/
def Op.Spares (path : Path) : Op → Prop
  | .openStream other | .insert other _ | .close other _ _ | .remove other => other ≠ path
  | .rename source target => source ≠ path ∧ target ≠ path
  | .permissions _ | .checkExists _ => True

theorem after_of_spares {event : Event Op.Answer} (h : event.1.Spares walletPath) :
    files.after event walletPath = files walletPath := by
  obtain ⟨op, answer⟩ := event
  cases op with
  | openStream | remove =>
    cases answer with
    | true => exact Function.update_of_ne (Ne.symm h) _ _
    | false => rfl
  | insert | close => exact Function.update_of_ne (Ne.symm h) _ _
  | permissions | checkExists => cases answer <;> rfl
  | rename =>
    cases answer with
    | true =>
      exact (Function.update_of_ne h.1.symm _ _).trans (Function.update_of_ne h.2.symm _ _)
    | false => rfl

theorem afterAll_of_spares (h : ∀ event ∈ seen, event.1.Spares walletPath) :
    files.afterAll seen walletPath = files walletPath := by
  induction seen generalizing files with
  | nil => rfl
  | cons event seen ih =>
    obtain ⟨here, behind⟩ := List.forall_mem_cons.mp h
    exact (ih behind).trans (after_of_spares here)

theorem leaves_of_spares (h : ∀ event ∈ seen, event.1.Spares walletPath)
    (fails : ¬ Succeeded ending) : Leaves walletPath temp files seen ending :=
  .kept (fun removed => h _ removed rfl) (fun renamed => (h _ renamed).2 rfl) fails
    (afterAll_of_spares h)

theorem spares_giveUp (apart : temp ≠ walletPath) (error : List Char) :
    Within (Op.Spares walletPath) (giveUp temp error) :=
  Within.bind (within_question apart) fun _ => within_pure _

theorem fails_giveUp (error : List Char) : Returns (· ≠ .ok ()) (giveUp temp error) :=
  fun _ => nofun

theorem not_succeeded {p : Step (Reported Unit)} (h : Returns (· ≠ .ok ()) p)
    (hstretch : Stretch p seen ending) : ¬ Succeeded ending := by
  rintro rfl
  exact h.stretch hstretch rfl

theorem leaves_giveUp (apart : temp ≠ walletPath) {error : List Char}
    (h : Stretch (giveUp temp error) seen ending) : Leaves walletPath temp files seen ending :=
  leaves_of_spares ((spares_giveUp apart error).stretch h) (not_succeeded (fails_giveUp error) h)

theorem leaves_moveIntoPlace (apart : temp ≠ walletPath)
    (h : Stretch (moveIntoPlace walletPath temp message) seen ending) :
    Leaves walletPath temp files seen ending := by
  rcases stretch_question h with ⟨rfl, rfl⟩ | ⟨moved, rest, rfl, next⟩
  · exact .cut
  · cases moved with
    | false => exact (leaves_giveUp apart next).cons rfl rfl nofun nofun
    | true =>
      obtain ⟨rfl, rfl⟩ := stretch_pure next
      refine .placed List.mem_cons_self rfl ?_ (Function.update_self _ _ _)
      change Function.update (Function.update files walletPath _) temp none walletPath = files temp
      rw [Function.update_of_ne apart.symm, Function.update_self]

theorem leaves_replaceExisting (apart : temp ≠ walletPath)
    (h : Stretch (replaceExisting walletPath temp message) seen ending) :
    Leaves walletPath temp files seen ending := by
  rcases stretch_question h with ⟨rfl, rfl⟩ | ⟨present, rest, rfl, next⟩
  · exact .cut
  · have unchanged : files.after ⟨.checkExists walletPath, present⟩ = files := by
      cases present <;> rfl
    refine Leaves.cons ?_ (congrFun unchanged _) (congrFun unchanged _) nofun nofun
    rw [unchanged]
    cases present with
    | false => exact leaves_moveIntoPlace apart next
    | true =>
      rcases stretch_question next with ⟨rfl, rfl⟩ | ⟨removed, rest, rfl, last⟩
      · exact .cut
      · cases removed with
        | false => exact (leaves_giveUp apart last).cons rfl rfl nofun nofun
        | true =>
          -- from here on the old file is gone
          have moved := @leaves_moveIntoPlace _ _ (files.after ⟨.remove walletPath, true⟩) _ _ _
            apart last
          have gone : files.after ⟨.remove walletPath, true⟩ walletPath = none :=
            Function.update_self _ _ _
          cases moved with
          | kept _ unmoved fails same =>
            exact .lost List.mem_cons_self (by simpa using unmoved) fails (same.trans gone)
          | lost _ unmoved fails gone =>
            exact .lost List.mem_cons_self (by simpa using unmoved) fails gone
          | placed renamed succeeds moved none =>
            exact .placed (List.mem_cons_of_mem _ renamed) succeeds
              (moved.trans (Function.update_of_ne apart _ _)) none

theorem leaves_restrict (apart : temp ≠ walletPath)
    (h : Stretch (restrict walletPath temp message) seen ending) :
    Leaves walletPath temp files seen ending := by
  rcases stretch_question h with ⟨rfl, rfl⟩ | ⟨restricted, rest, rfl, next⟩
  · exact .cut
  · cases restricted with
    | true => exact (leaves_replaceExisting apart next).cons rfl rfl nofun nofun
    | false => exact (leaves_giveUp apart next).cons rfl rfl nofun nofun

/-- The temporary file is closed, or nothing happens to the old one. -/
theorem stretch_writeTemp (apart : temp ≠ walletPath) {text : List UInt8}
    (h : Stretch (writeTemp walletPath temp message text) seen ending) :
    ((∀ event ∈ seen, event.1.Spares walletPath) ∧ ¬ Succeeded ending) ∨
      ∃ inserted flushed rest, seen = ⟨.insert temp text, (inserted, true)⟩ ::
        ⟨.close temp text inserted, flushed⟩ :: rest ∧
          Stretch (restrict walletPath temp message) rest ending := by
  rcases stretch_question h with ⟨rfl, rfl⟩ | ⟨⟨inserted, good⟩, rest, rfl, next⟩
  · exact .inl ⟨nofun, nofun⟩
  · cases good with
    | true =>
      rcases stretch_question next with ⟨rfl, rfl⟩ | ⟨flushed, rest, rfl, last⟩
      · exact .inl ⟨List.forall_mem_singleton.mpr apart, nofun⟩
      · exact .inr ⟨inserted, flushed, rest, rfl, last⟩
    | false =>
      have spares := Within.bind (spares_giveUp apart
        "Failed to persist wallet payload to temporary file".toList) fun given =>
          Within.bind (within_question (q := Op.close temp text inserted) apart) fun _ =>
            within_pure given
      have fails : Returns (· ≠ .ok ()) (do
          let given ← giveUp temp "Failed to persist wallet payload to temporary file".toList
          let _ ← question (.close temp text inserted)
          return given) :=
        (fails_giveUp _).bind fun _ hgiven => returns_bind _ fun _ => hgiven
      exact .inl ⟨List.forall_mem_cons.mpr ⟨apart, spares.stretch next⟩, not_succeeded fails next⟩

/-- What is asked until the stream is closed, with a text that was inserted. -/
def writing (temp : Path) (text : List UInt8) (inserted flushed : Nat) :
    List (Event Op.Answer) :=
  [⟨.openStream temp, true⟩, ⟨.insert temp text, (inserted, true)⟩,
    ⟨.close temp text inserted, flushed⟩]

/-- The same of the whole function. -/
theorem stretch_writeWalletJson {ticks : Int} {dump : Throws (List UInt8)}
    (apart : tempPath walletPath ticks ≠ walletPath)
    (h : Stretch (writeWalletJson walletPath ticks message dump) seen ending) :
    ((∀ event ∈ seen, event.1.Spares walletPath) ∧ ¬ Succeeded ending) ∨
      ∃ text inserted flushed rest, dump = .ok text ∧
        seen = writing (tempPath walletPath ticks) text inserted flushed ++ rest ∧
        Stretch (restrict walletPath (tempPath walletPath ticks) message) rest ending := by
  rcases stretch_question h with ⟨rfl, rfl⟩ | ⟨opened, rest, rfl, next⟩
  · exact .inl ⟨nofun, nofun⟩
  · cases opened with
    | false =>
      exact .inl ⟨List.forall_mem_cons.mpr ⟨apart, (spares_giveUp apart _).stretch next⟩,
        not_succeeded (fails_giveUp _) next⟩
    | true =>
      cases dump with
      | error e =>
        obtain ⟨rfl, rfl⟩ := stretch_fail next
        exact .inl ⟨List.forall_mem_singleton.mpr apart, nofun⟩
      | ok text =>
        rcases stretch_writeTemp apart next with ⟨spares, fails⟩ |
          ⟨inserted, flushed, rest, rfl, last⟩
        · exact .inl ⟨List.forall_mem_cons.mpr ⟨apart, spares⟩, fails⟩
        · exact .inr ⟨text, inserted, flushed, rest, rfl, rfl, last⟩

/-- Nothing is written behind the end of the stream. -/
theorem closed_restrict (text : List UInt8) (inserted : Nat) :
    Within (· ≠ .close temp text inserted) (restrict walletPath temp message) := by
  have given (error : List Char) : Within (· ≠ .close temp text inserted) (giveUp temp error) :=
    Within.bind (within_question nofun) fun _ => within_pure _
  have moved : Within (· ≠ .close temp text inserted) (moveIntoPlace walletPath temp message) := by
    refine Within.bind (within_question nofun) fun moved => ?_
    cases moved with
    | true => exact within_pure _
    | false => exact given _
  refine Within.bind (within_question nofun) fun restricted => ?_
  cases restricted with
  | false => exact given _
  | true =>
    refine Within.bind (within_question nofun) fun present => ?_
    cases present with
    | false => exact moved
    | true =>
      refine Within.bind (within_question nofun) fun removed => ?_
      cases removed with
      | true => exact moved
      | false => exact given _

theorem tempPath_ne_self (walletPath : Path) (ticks : Int) :
    tempPath walletPath ticks ≠ walletPath := by
  intro same
  rcases List.eq_nil_or_concat walletPath with rfl | ⟨folder, name, rfl⟩
  · cases same
  · rw [List.concat_eq_append, tempPath, List.dropLast_concat, List.getLastD_concat] at same
    have names := congrArg List.length (List.cons.inj (List.append_cancel_left same)).1
    have stamp : ".tmp.".toList.length = 5 := rfl
    rw [List.length_append, List.length_append, stamp] at names
    omega

section
variable {text : List UInt8} {inserted flushed : Nat} {rest : List (Event Op.Answer)}

theorem afterAll_writing_wallet (apart : temp ≠ walletPath) :
    files.afterAll (writing temp text inserted flushed) walletPath = files walletPath :=
  afterAll_of_spares (by simpa [writing, Op.Spares] using apart)

theorem afterAll_writing_temp : files.afterAll (writing temp text inserted flushed) temp =
    some (text.take (inserted + flushed)) := by
  simp [writing, Files.afterAll, Files.after]

theorem remove_mem_writing_append : ⟨.remove walletPath, true⟩ ∈
    writing temp text inserted flushed ++ rest ↔ ⟨.remove walletPath, true⟩ ∈ rest := by
  simp [writing]

theorem rename_mem_writing_append : ⟨.rename temp walletPath, true⟩ ∈
    writing temp text inserted flushed ++ rest ↔ ⟨.rename temp walletPath, true⟩ ∈ rest := by
  simp [writing]

/-- The stream is closed once. -/
theorem close_mem_writing_append (h : Stretch (restrict walletPath temp message) rest ending)
    {other : List UInt8} {k m : Nat} (hmem : ⟨.close temp other k, m⟩ ∈
      writing temp text inserted flushed ++ rest) : other = text ∧ k = inserted ∧ m = flushed := by
  rcases List.mem_append.mp hmem with inside | behind
  · simp only [writing, List.mem_cons, List.not_mem_nil, or_false] at inside
    rcases inside with hopen | hinsert | hclose
    · cases hopen
    · cases hinsert
    · cases hclose
      exact ⟨rfl, rfl, rfl⟩
  · exact absurd rfl ((closed_restrict other k).stretch h _ behind)

/-- What the rest of a run makes of the disk decides whether the whole of it was safe. -/
theorem safe_writing_iff (apart : temp ≠ walletPath)
    (h : Stretch (restrict walletPath temp message) rest ending) :
    Safe walletPath temp (.ok text) files (writing temp text inserted flushed ++ rest) ending ↔
      Meets walletPath temp files (writing temp text inserted flushed ++ rest) := by
  have whole : files.afterAll (writing temp text inserted flushed ++ rest) =
      (files.afterAll (writing temp text inserted flushed)).afterAll rest := List.foldl_append
  have wallet := @afterAll_writing_wallet _ _ files text inserted flushed apart
  have written := @afterAll_writing_temp temp files text inserted flushed
  generalize files.afterAll (writing temp text inserted flushed) = closed at whole wallet written
  cases @leaves_restrict _ _ closed _ _ _ apart h with
  | kept untouched unmoved fails same =>
    refine iff_of_true ⟨fun _ old hold => ?_, fun succeeds => absurd succeeds fails⟩
      ⟨fun _ hremoved => absurd (remove_mem_writing_append.mp hremoved) untouched,
        fun hrenamed => absurd (rename_mem_writing_append.mp hrenamed) unmoved⟩
    rw [whole, same, wallet, hold]
  | lost removed unmoved fails gone =>
    constructor
    · intro safe
      refine ⟨fun existed _ => ?_,
        fun hrenamed => absurd (rename_mem_writing_append.mp hrenamed) unmoved⟩
      obtain ⟨old, hold⟩ := Option.ne_none_iff_exists'.mp existed
      have left := safe.kept fails old hold
      rw [whole, gone] at left
      cases left
    · intro meets
      refine ⟨fun _ old hold => ?_, fun succeeds => absurd succeeds fails⟩
      have existed : files walletPath ≠ none := by
        rw [hold]
        nofun
      have renamed := meets.inPlace existed (remove_mem_writing_append.mpr removed)
      exact absurd (rename_mem_writing_append.mp renamed) unmoved
  | placed renamed succeeds moved none =>
    constructor
    · intro safe
      refine ⟨fun _ _ => rename_mem_writing_append.mpr renamed, fun _ other k m hmem => ?_⟩
      obtain ⟨rfl, rfl, rfl⟩ := close_mem_writing_append h hmem
      obtain ⟨given, hdump, content, -⟩ := safe.replaced succeeds
      cases hdump
      rw [whole, moved, written] at content
      rw [← Option.some.inj content]
      exact List.length_take_le _ _
    · intro meets
      have enough := meets.flushed (rename_mem_writing_append.mpr renamed) text inserted flushed
        (by simp [writing])
      refine ⟨fun fails => absurd succeeds fails, fun _ => ⟨text, rfl, ?_, ?_⟩⟩
      · rw [whole, moved, written, List.take_of_length_le enough]
      · rw [whole, none]

end

end

/-- **What a disk has to do for a wallet to be safe**: go on to move the new file once the old
one was removed, and have all of its text. -/
theorem safe_iff (walletPath : Path) (ticks : Int) (message : List Char)
    (dump : Throws (List UInt8)) (files : Files) {seen : List (Event Op.Answer)}
    {ending : Option (Throws (Reported Unit))}
    (h : Stretch (writeWalletJson walletPath ticks message dump) seen ending) :
    Safe walletPath (tempPath walletPath ticks) dump files seen ending ↔
      Meets walletPath (tempPath walletPath ticks) files seen := by
  have apart := tempPath_ne_self walletPath ticks
  rcases stretch_writeWalletJson apart h with ⟨spares, fails⟩ |
    ⟨text, inserted, flushed, rest, rfl, rfl, last⟩
  · refine iff_of_true ⟨fun _ old hold => ?_, fun succeeds => absurd succeeds fails⟩
      ⟨fun _ removed => absurd rfl (spares _ removed),
        fun renamed => absurd rfl (spares _ renamed).2⟩
    rw [afterAll_of_spares spares, hold]
  · exact safe_writing_iff apart last

/-- A disk where all goes well, but the file may refuse to be moved. -/
def answers (moves : Bool) : (op : Op) → op.Answer
  | .insert _ text => (text.length, true)
  | .close _ _ _ => (0 : Nat)
  | .rename _ _ => moves
  | .openStream _ | .permissions _ | .checkExists _ | .remove _ => true

/-- The write of two bytes over one, on such a disk. -/
def overwrite (moves : Bool) : List (Event Op.Answer) × Throws (Reported Unit) :=
  let asked := outcome (answers moves) (writeWalletJson [['w']] 1 [] (.ok [1, 2]))
  (asked.1.map fun op => ⟨op, answers moves op⟩, asked.2)

theorem stretch_overwrite (moves : Bool) :
    Stretch (writeWalletJson [['w']] 1 [] (.ok [1, 2])) (overwrite moves).1
      (some (overwrite moves).2) :=
  .ended (run_outcome _ _)

def oneWallet : Files := Function.update (fun _ => none) [['w']] (some [0])

theorem safe_iff_moved :
    Safe [['w']] (tempPath [['w']] 1) (.ok [1, 2]) oneWallet (overwrite true).1
        (some (overwrite true).2) ↔
      Meets [['w']] (tempPath [['w']] 1) oneWallet (overwrite true).1 :=
  safe_iff [['w']] 1 [] (.ok [1, 2]) oneWallet (stretch_overwrite true)

/-- The file cannot be moved, and neither the old one nor the new one is left. -/
theorem not_safe_refused :
    Stretch (writeWalletJson [['w']] 1 [] (.ok [1, 2])) (overwrite false).1
        (some (overwrite false).2) ∧
      oneWallet.afterAll (overwrite false).1 [['w']] = none ∧
      oneWallet.afterAll (overwrite false).1 (tempPath [['w']] 1) = none ∧
      ¬ Safe [['w']] (tempPath [['w']] 1) (.ok [1, 2]) oneWallet (overwrite false).1
        (some (overwrite false).2) := by
  have gone : oneWallet.afterAll (overwrite false).1 [['w']] = none := by decide
  refine ⟨stretch_overwrite false, gone, by decide, fun safe => ?_⟩
  have kept := safe.kept (by rintro ⟨⟩) [0] rfl
  rw [gone] at kept
  cases kept

end MidnightSdk.Blockchain.WalletManager.Writes
