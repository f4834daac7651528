import Mathlib.Logic.Function.Basic
import MidnightSdk.Crypto.SealedStates
import MidnightSdk.Library.Stoul

/-!
# The store of secret keys

A secret is boxed under a key derived from a master key, a nonce and its name. The
master key is read from the environment again at each call, and where it is not set to
enough digits each call draws one of its own.
-/

namespace MidnightSdk.Zk

open Cpp Crypto

/-- The primitives: the boxes of `libsodium`, whether it starts, and `EVP_sha256`. -/
structure SecretLibrary where
  sodium : Sodium
  initialises : Bool
  sha256 : List UInt8 → Bytes 32

/-- What `randombytes_buf` fills in for one call. -/
structure Draw where
  master : Bytes 32
  nonce : Bytes 24

abbrev Secrets := List UInt8 → Option (List UInt8)

/-- `MIDNIGHT_SECRET_MASTER_KEY`, when it is set. -/
abbrev Environment := Option (List Char)

def macSize : Nat := 16

/-- `std::strtoul` of two characters, in base 16; without a digit it is zero. -/
def strtoul16 (text : List Char) : UInt64 :=
  match Stoul.stoul16 text with
  | .ok value => value
  | .error _ => 0

/-- The loop over the first 64 characters. -/
def masterPairs : (pairs : Nat) → List Char → List UInt8
  | pairs + 1, high :: low :: rest =>
    (strtoul16 [high, low]).toUInt8 :: masterPairs pairs rest
  | _, _ => []

/-- `get_master_key`, with what it draws when there is no usable variable. -/
def getMasterKey (env : Environment) (drawn : Bytes 32) : Bytes 32 :=
  match env with
  | some envMaster =>
    if 64 ≤ envMaster.length then
      let decoded := masterPairs 32 envMaster
      if h : decoded.length ≥ 32 then
        ⟨decoded.take 32, by rw [List.length_take, Nat.min_eq_left h]⟩
      else drawn
    else drawn
  | none => drawn

variable (lib : SecretLibrary) (env : Environment)

def deriveKeyWithNonce (masterKey : Bytes 32) (name nonce : List UInt8) : Bytes 32 :=
  lib.sha256 (masterKey.1 ++ nonce ++ name)

/-- `store_secret`: its answer, and the secrets afterwards. -/
def storeSecret (secrets : Secrets) (name data : List UInt8) (draw : Draw) : Bool × Secrets :=
  if name.isEmpty || data.isEmpty then (false, secrets)
  else if !lib.initialises then (false, secrets)
  else
    let masterKey := getMasterKey env draw.master
    let derivedKey := deriveKeyWithNonce lib masterKey name draw.nonce.1
    match lib.sodium.secretbox data draw.nonce.1 derivedKey.1 with
    | none => (false, secrets)
    | some ciphertext => (true, Function.update secrets name (some (draw.nonce.1 ++ ciphertext)))

/-- `retrieve_secret`. The buffer has the size of the box, and what is not written stays zero. -/
def retrieveSecret (secrets : Secrets) (name : List UInt8) (drawn : Bytes 32) :
    Throws (List UInt8) :=
  match secrets name with
  | none =>
    let text := String.ofList (name.map fun b => Char.ofNat b.toNat)
    .error (.runtimeError ("Secret '" ++ text ++ "' not found in store"))
  | some encrypted =>
    if !lib.initialises then .error (.runtimeError "Failed to initialize libsodium")
    else if encrypted.length < nonceSize + macSize + 1 then
      .error (.runtimeError "Encrypted secret data is corrupted or too short")
    else
      let masterKey := getMasterKey env drawn
      let nonce := encrypted.take nonceSize
      let ciphertext := encrypted.drop nonceSize
      let derivedKey := deriveKeyWithNonce lib masterKey name nonce
      match lib.sodium.secretboxOpen ciphertext nonce derivedKey.1 with
      | none => .error (.runtimeError "Secret decryption failed - invalid key or corrupted data")
      | some opened =>
        let plaintext := opened ++ List.replicate (ciphertext.length - opened.length) 0
        if plaintext.length ≤ macSize then .error (.runtimeError "Decrypted secret too short")
        else .ok (plaintext.take (plaintext.length - macSize))

def removeSecret (secrets : Secrets) (name : List UInt8) : Bool × Secrets :=
  match secrets name with
  | none => (false, secrets)
  | some _ => (true, Function.update secrets name none)

def clear : Secrets := fun _ => none

/-! ## Runs -/

inductive Call where
  | store (name data : List UInt8) (draw : Draw)
  | remove (name : List UInt8)
  | clear

def Call.apply (secrets : Secrets) : Call → Secrets
  | store name data draw => (storeSecret lib env secrets name data draw).2
  | remove name => (removeSecret secrets name).2
  | clear => Zk.clear

/-- What is kept under the name: the data of the last call that touched it, if that stored it. A
call that refuses to store touches nothing. -/
def Call.touch (name : List UInt8) (kept : Option (List UInt8)) : Call → Option (List UInt8)
  | store name' data draw =>
    if name' = name ∧ (storeSecret lib env Zk.clear name' data draw).1 = true then some data else kept
  | remove name' => if name' = name then none else kept
  | clear => none

/-- The secrets after a run on an empty store. -/
def run (calls : List Call) : Secrets := calls.foldl (Call.apply lib env) clear

def lastStored (name : List UInt8) (calls : List Call) : Option (List UInt8) :=
  calls.foldl (Call.touch lib env name) none

def Call.draws : Call → List Draw
  | store _ _ draw => [draw]
  | _ => []

/-- Random bytes differ from call to call. -/
def Fresh (calls : List Call) (drawn : Bytes 32) : Prop :=
  (drawn :: (calls.flatMap Call.draws).map Draw.master).Nodup ∧
    ((calls.flatMap Call.draws).map Draw.nonce).Nodup

/-! ## Master keys -/

/-- The variable is set to at least 64 characters, whatever they are. -/
def LongEnough (env : Environment) : Prop := ∃ envMaster, env = some envMaster ∧ 64 ≤ envMaster.length

theorem masterPairs_length {pairs : Nat} {text : List Char} (h : 2 * pairs ≤ text.length) :
    (masterPairs pairs text).length = pairs := by
  induction pairs generalizing text with
  | zero => rfl
  | succ pairs ih =>
    match text, h with
    | high :: low :: rest, h =>
      rw [List.length_cons, List.length_cons] at h
      rw [masterPairs, List.length_cons, ih (by omega)]

variable {lib env}

/-- A variable that is long enough is read in place of every draw. -/
theorem getMasterKey_longEnough (h : LongEnough env) (drawn drawn' : Bytes 32) :
    getMasterKey env drawn = getMasterKey env drawn' := by
  obtain ⟨envMaster, rfl, long⟩ := h
  have length := @masterPairs_length 32 envMaster (by omega)
  simp only [getMasterKey, if_pos long, length, ge_iff_le, Nat.le_refl, dif_pos]

theorem getMasterKey_drawn (h : ¬LongEnough env) (drawn : Bytes 32) :
    getMasterKey env drawn = drawn := by
  cases env with
  | none => rfl
  | some envMaster =>
    have short : ¬64 ≤ envMaster.length := fun long => h ⟨envMaster, rfl, long⟩
    rw [getMasterKey, if_neg short]

/-! ## What a call does -/

variable {secrets : Secrets} {name data : List UInt8} {draw : Draw} {box : List UInt8}

/-- The box that a call to store makes. -/
def boxOf (lib : SecretLibrary) (env : Environment) (name data : List UInt8) (draw : Draw) :
    Option (List UInt8) :=
  lib.sodium.secretbox data draw.nonce.1
    (deriveKeyWithNonce lib (getMasterKey env draw.master) name draw.nonce.1).1

/-- A call refuses, or keeps its box behind the nonce; which of the two does not depend on what
is in the store. -/
theorem storeSecret_cases (lib : SecretLibrary) (env : Environment) (name data : List UInt8)
    (draw : Draw) :
    (∀ secrets, storeSecret lib env secrets name data draw = (false, secrets)) ∨
    (lib.initialises = true ∧ data ≠ [] ∧ ∃ box, boxOf lib env name data draw = some box ∧
      ∀ secrets, storeSecret lib env secrets name data draw =
        (true, Function.update secrets name (some (draw.nonce.1 ++ box)))) := by
  by_cases empty : (name.isEmpty || data.isEmpty) = true
  · exact Or.inl fun secrets => by rw [storeSecret, if_pos empty]
  · cases ready : lib.initialises with
    | false =>
      refine Or.inl fun secrets => ?_
      rw [storeSecret, if_neg empty, ready]
      rfl
    | true =>
      cases made : boxOf lib env name data draw with
      | none =>
        rw [boxOf] at made
        refine Or.inl fun secrets => ?_
        simp only [storeSecret, if_neg empty, ready, made]
        rfl
      | some box =>
        have filled : data ≠ [] := by
          rintro rfl
          simp at empty
        refine Or.inr ⟨rfl, filled, box, rfl, fun secrets => ?_⟩
        rw [boxOf] at made
        simp only [storeSecret, if_neg empty, ready, made]
        rfl

/-- What a box behind its nonce is retrieved as. -/
theorem retrieveSecret_box (ready : lib.initialises = true) (filled : data ≠ [])
    (made : boxOf lib env name data draw = some box)
    (held : secrets name = some (draw.nonce.1 ++ box)) (drawn : Bytes 32) :
    let opened := lib.sodium.secretboxOpen box draw.nonce.1
      (deriveKeyWithNonce lib (getMasterKey env drawn) name draw.nonce.1).1
    (opened = some data → retrieveSecret lib env secrets name drawn = .ok data) ∧
      (opened = none → retrieveSecret lib env secrets name drawn =
        .error (.runtimeError "Secret decryption failed - invalid key or corrupted data")) := by
  intro opened
  have size := lib.sodium.secretbox_length made
  have positive := List.length_pos_of_ne_nil filled
  have width := draw.nonce.2
  have long : ¬(draw.nonce.1 ++ box).length < nonceSize + macSize + 1 := by
    rw [List.length_append, width, size, nonceSize, macSize, tagSize]
    omega
  have front : (draw.nonce.1 ++ box).take nonceSize = draw.nonce.1 := List.take_left' width
  have back : (draw.nonce.1 ++ box).drop nonceSize = box := List.drop_left' width
  constructor
  · intro found
    have rest : box.length - data.length = macSize := by
      rw [size, macSize, tagSize]
      omega
    have total : (data ++ List.replicate macSize (0 : UInt8)).length = data.length + macSize := by
      rw [List.length_append, List.length_replicate]
    have room : ¬data.length + macSize ≤ macSize := by omega
    simp only [opened] at found
    simp only [retrieveSecret, held, ready, if_neg long, front, back, found, rest, total,
      if_neg room, Nat.add_sub_cancel, List.take_left]
    rfl
  · intro found
    simp only [opened] at found
    simp only [retrieveSecret, held, ready, if_neg long, front, back, found]
    rfl

/-! ## What a run keeps -/

/-- The store holds the box of what is kept under the name. -/
def Holds (lib : SecretLibrary) (env : Environment) (name : List UInt8) (secrets : Secrets)
    (kept : Option (List UInt8)) : Prop :=
  ∀ data, kept = some data → lib.initialises = true ∧ data ≠ [] ∧
    ∃ draw box, boxOf lib env name data draw = some box ∧
      secrets name = some (draw.nonce.1 ++ box)

theorem apply_holds (call : Call) {kept : Option (List UInt8)}
    (h : Holds lib env name secrets kept) :
    Holds lib env name (call.apply lib env secrets) (call.touch lib env name kept) := by
  cases call with
  | store name' data draw =>
    rw [Call.apply, Call.touch]
    rcases storeSecret_cases lib env name' data draw with refused | ⟨ready, filled, box, made, stored⟩
    · rw [refused, refused, if_neg (by simp)]
      exact h
    · rw [stored, stored]
      by_cases same : name' = name
      · subst same
        rw [if_pos ⟨rfl, rfl⟩]
        intro data' kept'
        cases kept'
        exact ⟨ready, filled, draw, box, made, Function.update_self _ _ _⟩
      · rw [if_neg fun both => same both.1]
        intro data' kept'
        obtain ⟨ready, filled, draw', box', made', held⟩ := h data' kept'
        exact ⟨ready, filled, draw', box', made',
          (Function.update_of_ne (Ne.symm same) _ _).trans held⟩
  | remove name' =>
    rw [Call.apply, Call.touch, removeSecret]
    by_cases same : name' = name
    · rw [if_pos same]
      intro data' kept'
      cases kept'
    · rw [if_neg same]
      cases secrets name' with
      | none => exact h
      | some encrypted =>
        intro data' kept'
        obtain ⟨ready, filled, draw', box', made', held⟩ := h data' kept'
        exact ⟨ready, filled, draw', box', made',
          (Function.update_of_ne (Ne.symm same) _ _).trans held⟩
  | clear =>
    intro data' kept'
    cases kept'

/-- After a run the store holds the box of what was last stored. -/
theorem run_holds (calls : List Call) :
    Holds lib env name (run lib env calls) (lastStored lib env name calls) := by
  have from_any : ∀ secrets kept, Holds lib env name secrets kept →
      Holds lib env name (calls.foldl (Call.apply lib env) secrets)
        (calls.foldl (Call.touch lib env name) kept) := by
    induction calls with
    | nil => exact fun _ _ h => h
    | cons call calls ih => exact fun _ _ h => ih _ _ (apply_holds call h)
  apply from_any
  intro data kept
  cases kept

/-- With a variable that is long enough every secret comes back. -/
theorem retrieveSecret_lastStored (long : LongEnough env) {calls : List Call}
    (h : lastStored lib env name calls = some data) (drawn : Bytes 32) :
    retrieveSecret lib env (run lib env calls) name drawn = .ok data := by
  obtain ⟨ready, filled, draw, box, made, held⟩ := run_holds calls data h
  apply (retrieveSecret_box ready filled made held drawn).1
  rw [getMasterKey_longEnough long drawn draw.master]
  exact lib.sodium.open_secretbox made

/-! ## When secrets come back -/

/-- Some box does not open under what another master key derives. -/
def Keyed (lib : SecretLibrary) : Prop :=
  lib.initialises = true ∧ ∃ (name data nonce box : List UInt8) (master master' : Bytes 32),
    name ≠ [] ∧ data ≠ [] ∧ nonce.length = 24 ∧
      lib.sodium.secretbox data nonce (deriveKeyWithNonce lib master name nonce).1 = some box ∧
      lib.sodium.secretboxOpen box nonce (deriveKeyWithNonce lib master' name nonce).1 = none

/-- Without a variable that is long enough, a secret that was just stored is lost. -/
theorem exists_lost (keyed : Keyed lib) (short : ¬LongEnough env) :
    ∃ (name data : List UInt8) (draw : Draw) (drawn : Bytes 32),
      Fresh [.store name data draw] drawn ∧
      lastStored lib env name [.store name data draw] = some data ∧
      retrieveSecret lib env (run lib env [.store name data draw]) name drawn =
        .error (.runtimeError "Secret decryption failed - invalid key or corrupted data") := by
  obtain ⟨ready, name, data, nonce, box, master, master', named, filled, width, made, shut⟩ := keyed
  let draw : Draw := ⟨master, nonce, width⟩
  have made' : boxOf lib env name data draw = some box := by
    rw [boxOf, getMasterKey_drawn short]
    exact made
  have apart : master' ≠ master := by
    rintro rfl
    rw [lib.sodium.open_secretbox made] at shut
    cases shut
  rcases storeSecret_cases lib env name data draw with refused | ⟨-, -, box', made'', stored⟩
  · have accepted : (storeSecret lib env clear name data draw).1 = true := by
      rw [boxOf] at made'
      simp [storeSecret, named, filled, ready, made']
    rw [refused] at accepted
    cases accepted
  · cases made'.symm.trans made''
    have held : run lib env [.store name data draw] name = some (nonce ++ box) := by
      change (storeSecret lib env clear name data draw).2 name = _
      rw [stored]
      exact Function.update_self _ _ _
    refine ⟨name, data, draw, master', ⟨by simpa [Call.draws, draw] using apart, by simp [Call.draws]⟩,
      ?_, ?_⟩
    · change (if _ then _ else _) = _
      rw [stored, if_pos ⟨rfl, rfl⟩]
    · apply (retrieveSecret_box ready filled made' held master').2
      rw [getMasterKey_drawn short]
      exact shut

/-- **Stored secrets come back in every run exactly when the variable is long enough**, though
the bytes that are drawn never repeat. -/
theorem retrieveSecret_iff (keyed : Keyed lib) (env : Environment) :
    (∀ (calls : List Call) (name data : List UInt8) (drawn : Bytes 32), Fresh calls drawn →
      lastStored lib env name calls = some data →
        retrieveSecret lib env (run lib env calls) name drawn = .ok data) ↔ LongEnough env := by
  constructor
  · intro all
    by_contra short
    obtain ⟨name, data, draw, drawn, fresh, stored, lost⟩ := @exists_lost lib env keyed short
    rw [all _ name data drawn fresh stored] at lost
    cases lost
  · intro long calls name data drawn _ stored
    exact retrieveSecret_lastStored long stored drawn

/-! ## A secret that is lost -/

/-- Boxes with a keyed hash in front, and the hash itself. -/
def sampleLibrary : SecretLibrary where
  sodium := EncryptedState.macSealed
  initialises := true
  sha256 data := ⟨Sha256.sha256 data, Sha256.sha256_length data⟩

def sampleDraw : Draw := ⟨⟨List.replicate 32 1, rfl⟩, ⟨List.replicate 24 2, rfl⟩⟩

def otherDraw : Bytes 32 := ⟨List.replicate 32 3, rfl⟩

def sampleCalls : List Call := [.store (literal "localSecretKey") [7] sampleDraw]

theorem sample_fresh : Fresh sampleCalls otherDraw := ⟨by decide, by decide⟩

/-- The variable is not set, and the secret cannot be retrieved. -/
theorem secret_lost :
    Fresh sampleCalls otherDraw ∧
      lastStored sampleLibrary none (literal "localSecretKey") sampleCalls = some [7] ∧
      retrieveSecret sampleLibrary none (run sampleLibrary none sampleCalls)
          (literal "localSecretKey") otherDraw =
        .error (.runtimeError "Secret decryption failed - invalid key or corrupted data") :=
  ⟨sample_fresh, by decide +kernel, by decide +kernel⟩

theorem sampleLibrary_keyed : Keyed sampleLibrary :=
  ⟨rfl, literal "localSecretKey", [7], sampleDraw.nonce.1, _, sampleDraw.master, otherDraw,
    by decide, by decide, rfl, rfl, by decide +kernel⟩

/-- With 64 zeros in the variable it comes back. -/
theorem secret_kept :
    retrieveSecret sampleLibrary (some (List.replicate 64 '0'))
        (run sampleLibrary (some (List.replicate 64 '0')) sampleCalls)
        (literal "localSecretKey") otherDraw = .ok [7] :=
  (retrieveSecret_iff sampleLibrary_keyed (some (List.replicate 64 '0'))).mpr
    ⟨List.replicate 64 '0', rfl, Nat.le_of_eq List.length_replicate.symm⟩
    sampleCalls _ _ otherDraw sample_fresh (by decide)

end MidnightSdk.Zk
