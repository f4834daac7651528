import Mathlib.Data.List.Induction
import MidnightSdk.Zk.ProofTypes
import MidnightSdk.Zk.SecretKeyStore

/-!
# Contexts of witnesses

A witness is given the ledger state of its contract, as the manager of the private states has it,
and the secrets that it asks for, as the store has them. What it is given is what was last written
of each part, as long as the store can open its boxes.
-/

namespace MidnightSdk.Zk

open Cpp

/-- `LedgerState()` -/
def LedgerState.fresh : LedgerState := ⟨[], .null, .null, 0, []⟩

/-! ## `PrivateStateManager` -/

abbrev PrivateStates : Type := OrderedMap (List Char) LedgerState

namespace PrivateStates

variable (states : PrivateStates)

def getPrivateState (contractAddress : List Char) : LedgerState :=
  (states.entries.lookup contractAddress).getD .fresh

def updatePrivateState (contractAddress : List Char) (state : LedgerState) : PrivateStates :=
  states.assign contractAddress state

/-- The endpoint is not used. -/
def getPublicState (contractAddress : List Char) : LedgerState :=
  (states.entries.lookup contractAddress).getD { LedgerState.fresh with contractAddress }

def syncState (contractAddress : List Char) (publicState : LedgerState) : PrivateStates :=
  let merged := states.getPrivateState contractAddress
  states.updatePrivateState contractAddress
    { merged with
      publicState := publicState.publicState
      blockHeight := publicState.blockHeight
      blockHash := publicState.blockHash }

def hasState (contractAddress : List Char) : Bool := states.contains contractAddress

def listContracts : List (List Char) := states.entries.map Prod.fst

end PrivateStates

inductive StateCall where
  | update (contractAddress : List Char) (state : LedgerState)
  | sync (contractAddress : List Char) (publicState : LedgerState)
  | clear

def StateCall.apply (states : PrivateStates) : StateCall → PrivateStates
  | update contractAddress state => states.updatePrivateState contractAddress state
  | sync contractAddress publicState => states.syncState contractAddress publicState
  | clear => .empty

def PrivateStates.after (calls : List StateCall) : PrivateStates :=
  calls.foldl StateCall.apply .empty

/-! ## `WitnessContextBuilder` -/

structure WitnessContextBuilder where
  contractAddress : List Char := []
  publicState : LedgerState := .fresh
  privateData : OrderedMap (List Char) (List UInt8) := .empty
  blockHeight : UInt64 := 0
  contractSet : Bool := false
  publicStateSet : Bool := false

namespace WitnessContextBuilder

variable (builder : WitnessContextBuilder)

def setContractAddress (address : List Char) : WitnessContextBuilder :=
  { builder with contractAddress := address, contractSet := true }

def setPublicState (state : LedgerState) : WitnessContextBuilder :=
  { builder with publicState := state, publicStateSet := true }

def addPrivateSecret (name : List Char) (data : List UInt8) : WitnessContextBuilder :=
  { builder with privateData := builder.privateData.assign name data }

def addPrivateSecrets (secrets : OrderedMap (List Char) (List UInt8)) : WitnessContextBuilder :=
  secrets.entries.foldl (fun builder entry => builder.addPrivateSecret entry.1 entry.2) builder

def setBlockHeight (height : UInt64) : WitnessContextBuilder :=
  { builder with blockHeight := height }

def validateForBuild : Throws Unit :=
  if !builder.contractSet then
    .error (.runtimeError "Contract address not set in WitnessContextBuilder")
  else if !builder.publicStateSet then
    .error (.runtimeError "Public state not set in WitnessContextBuilder")
  else .ok ()

def build : Throws WitnessContext := do
  builder.validateForBuild
  return {
    publicLedgerState := builder.publicState
    privateData := builder.privateData
    contractAddress := builder.contractAddress
    blockHeight := builder.blockHeight }

end WitnessContextBuilder

section

variable (lib : SecretLibrary) (env : Environment)

/-- The loop over the secrets that are required, each with what its retrieval draws. -/
def loadSecrets (secretStore : Secrets) : List (List UInt8 × Bytes 32) →
    OrderedMap (List Char) (List UInt8) → Throws (OrderedMap (List Char) (List UInt8))
  | [], secrets => .ok secrets
  | (name, drawn) :: required, secrets =>
    if (secretStore name).isSome then do
      let data ← retrieveSecret lib env secretStore name drawn
      loadSecrets secretStore required (secrets.assign (textOf name) data)
    else loadSecrets secretStore required secrets

def buildFromManagers (contractAddress : List Char) (stateMgr : PrivateStates)
    (secretStore : Secrets) (requiredSecrets : List (List UInt8 × Bytes 32)) :
    Throws WitnessContext := do
  let builder : WitnessContextBuilder := {}
  let builder := builder.setContractAddress contractAddress
  let builder := builder.setPublicState (stateMgr.getPrivateState contractAddress)
  let secrets ← loadSecrets lib env secretStore requiredSecrets .empty
  (builder.addPrivateSecrets secrets).build

end

/-! ## What was last written -/

/-- The state that was last put for a contract. -/
def StateCall.updates (contractAddress : List Char) (kept : Option LedgerState) :
    StateCall → Option LedgerState
  | update address state => if address = contractAddress then some state else kept
  | sync _ _ => kept
  | clear => none

/-- The state that its public part was last taken from. -/
def StateCall.publishes (contractAddress : List Char) (kept : Option LedgerState) :
    StateCall → Option LedgerState
  | update address state | sync address state =>
    if address = contractAddress then some state else kept
  | clear => none

def lastUpdate (contractAddress : List Char) (calls : List StateCall) : Option LedgerState :=
  calls.foldl (StateCall.updates contractAddress) none

def lastPublic (contractAddress : List Char) (calls : List StateCall) : Option LedgerState :=
  calls.foldl (StateCall.publishes contractAddress) none

/-- The private part and the address of the one, the public part of the other. -/
def merged (updated published : Option LedgerState) : LedgerState :=
  let ofUpdate := updated.getD .fresh
  let ofPublic := published.getD .fresh
  { contractAddress := ofUpdate.contractAddress
    publicState := ofPublic.publicState
    privateState := ofUpdate.privateState
    blockHeight := ofPublic.blockHeight
    blockHash := ofPublic.blockHash }

/-- A context as the runs of the manager and of the store leave it. -/
structure Describes (lib : SecretLibrary) (env : Environment) (contractAddress : List Char)
    (stateCalls : List StateCall) (calls : List Call) (required : List (List UInt8))
    (ctx : WitnessContext) : Prop where
  address : ctx.contractAddress = contractAddress
  state : ctx.publicLedgerState =
    merged (lastUpdate contractAddress stateCalls) (lastPublic contractAddress stateCalls)
  secrets : ∀ name, ctx.privateData.entries.lookup (textOf name) =
    if name ∈ required then lastStored lib env name calls else none
  only : ∀ entry ∈ ctx.privateData.entries, ∃ name ∈ required, entry.1 = textOf name
  height : ctx.blockHeight = 0

/-- Random bytes differ from call to call, and so do those of the retrievals. -/
def FreshDraws (calls : List Call) (required : List (List UInt8 × Bytes 32)) : Prop :=
  (required.map Prod.snd ++ (calls.flatMap Call.draws).map Draw.master).Nodup ∧
    ((calls.flatMap Call.draws).map Draw.nonce).Nodup

/-! ## The states -/

variable {contractAddress : List Char}

/-- What is kept of a contract; nothing is put for it before something is published. -/
structure KeptOf (contractAddress : List Char) (states : PrivateStates)
    (updated published : Option LedgerState) : Prop where
  kept : states.entries.lookup contractAddress = published.map fun _ => merged updated published
  first : published = none → updated = none

theorem KeptOf.getPrivateState {states : PrivateStates} {updated published : Option LedgerState}
    (h : KeptOf contractAddress states updated published) :
    states.getPrivateState contractAddress = merged updated published := by
  rw [PrivateStates.getPrivateState, h.kept]
  cases published with
  | none =>
    rw [h.first rfl]
    rfl
  | some state => rfl

theorem KeptOf.step {states : PrivateStates} {updated published : Option LedgerState}
    (h : KeptOf contractAddress states updated published) (call : StateCall) :
    KeptOf contractAddress (call.apply states) (call.updates contractAddress updated)
      (call.publishes contractAddress published) := by
  cases call with
  | update address state =>
    rw [StateCall.apply, StateCall.updates, StateCall.publishes]
    constructor
    · rw [PrivateStates.updatePrivateState, OrderedMap.lookup_assign]
      by_cases same : contractAddress = address
      · rw [if_pos same, if_pos same.symm, if_pos same.symm]
        rfl
      · rw [if_neg same, if_neg (Ne.symm same), if_neg (Ne.symm same)]
        exact h.kept
    · intro none
      split at none
      · cases none
      · rename_i other
        rw [if_neg other]
        exact h.first none
  | sync address publicState =>
    rw [StateCall.apply, StateCall.updates, StateCall.publishes]
    constructor
    · rw [PrivateStates.syncState, PrivateStates.updatePrivateState, OrderedMap.lookup_assign]
      by_cases same : contractAddress = address
      · subst same
        rw [if_pos rfl, if_pos rfl, h.getPrivateState]
        rfl
      · rw [if_neg same, if_neg (Ne.symm same)]
        exact h.kept
    · intro none
      split at none
      · cases none
      · exact h.first none
  | clear => exact ⟨rfl, fun _ => rfl⟩

theorem keptOf_after (contractAddress : List Char) (calls : List StateCall) :
    KeptOf contractAddress (.after calls) (lastUpdate contractAddress calls)
      (lastPublic contractAddress calls) := by
  induction calls using List.reverseRecOn with
  | nil => exact ⟨rfl, fun _ => rfl⟩
  | append_singleton calls call ih =>
    rw [PrivateStates.after, lastUpdate, lastPublic, List.foldl_append, List.foldl_append,
      List.foldl_append]
    exact ih.step call

/-! ## The secrets -/

section

variable {lib : SecretLibrary} {env : Environment}

/-- The store has no secret but those that were stored. -/
theorem run_absent {name : List UInt8} {calls : List Call}
    (h : lastStored lib env name calls = none) : run lib env calls name = none := by
  induction calls using List.reverseRecOn with
  | nil => rfl
  | append_singleton calls call ih =>
    rw [lastStored, List.foldl_append] at h
    rw [run, List.foldl_append]
    change Call.touch lib env name (lastStored lib env name calls) call = none at h
    change Call.apply lib env (run lib env calls) call name = none
    cases call with
    | store name' data draw =>
      rw [Call.touch] at h
      rw [Call.apply]
      rcases storeSecret_cases lib env name' data draw with refused | ⟨-, -, box, -, stored⟩
      · rw [refused, if_neg (by simp)] at h
        rw [refused]
        exact ih h
      · rw [stored] at h
        rw [stored]
        by_cases same : name' = name
        · rw [if_pos ⟨same, rfl⟩] at h
          cases h
        · rw [if_neg fun both => same both.1] at h
          exact (Function.update_of_ne (Ne.symm same) _ _).trans (ih h)
    | remove name' =>
      rw [Call.touch] at h
      rw [Call.apply, removeSecret]
      by_cases same : name' = name
      · subst same
        cases held : run lib env calls name' with
        | none => exact held
        | some box => exact Function.update_self _ _ _
      · rw [if_neg same] at h
        cases run lib env calls name' with
        | none => exact ih h
        | some box => exact (Function.update_of_ne (Ne.symm same) _ _).trans (ih h)
    | clear => rfl

theorem textOf_inj {name name' : List UInt8} : textOf name = textOf name' ↔ name = name' := by
  constructor
  · intro h
    have back := congrArg bytesOf h
    rwa [bytesOf_textOf, bytesOf_textOf] at back
  · exact congrArg textOf

/-- With a variable that is long enough, what is required and was stored is loaded. -/
theorem loadSecrets_stored (long : LongEnough env) (calls : List Call)
    (required : List (List UInt8 × Bytes 32)) (secrets : OrderedMap (List Char) (List UInt8)) :
    ∃ loaded, loadSecrets lib env (run lib env calls) required secrets = .ok loaded ∧
      (∀ name, loaded.entries.lookup (textOf name) =
        if name ∈ required.map Prod.fst then
          (lastStored lib env name calls).or (secrets.entries.lookup (textOf name))
        else secrets.entries.lookup (textOf name)) ∧
      ∀ entry ∈ loaded.entries, entry ∈ secrets.entries ∨
        ∃ name ∈ required.map Prod.fst, entry.1 = textOf name := by
  induction required generalizing secrets with
  | nil => exact ⟨secrets, rfl, fun _ => rfl, fun _ => .inl⟩
  | cons next required ih =>
    obtain ⟨name, drawn⟩ := next
    rw [loadSecrets]
    cases stored : lastStored lib env name calls with
    | none =>
      rw [run_absent stored, Option.isSome_none, if_neg Bool.false_ne_true]
      obtain ⟨loaded, done, found, only⟩ := ih secrets
      refine ⟨loaded, done, ?_, ?_⟩
      · intro name'
        rw [found]
        by_cases same : name' = name
        · subst same
          rw [stored, Option.none_or, ite_self, ite_self]
        · simp only [List.map_cons, List.mem_cons, same, false_or]
      · intro entry hentry
        exact (only entry hentry).imp_right fun ⟨name', hname, same⟩ =>
          ⟨name', List.mem_cons_of_mem _ hname, same⟩
    | some data =>
      obtain ⟨-, -, draw, box, -, held⟩ := run_holds calls data stored
      rw [held, Option.isSome_some, if_pos rfl, retrieveSecret_lastStored long stored, ok_bind]
      obtain ⟨loaded, done, found, only⟩ := ih (secrets.assign (textOf name) data)
      refine ⟨loaded, done, ?_, ?_⟩
      · intro name'
        rw [found, OrderedMap.lookup_assign]
        by_cases same : name' = name
        · subst same
          rw [if_pos rfl, stored, List.map_cons, if_pos List.mem_cons_self]
          exact ite_self _
        · have other : textOf name' ≠ textOf name := fun h => same (textOf_inj.mp h)
          rw [if_neg other]
          simp only [List.map_cons, List.mem_cons, same, false_or]
      · intro entry hentry
        rcases only entry hentry with inside | ⟨name', hname, same⟩
        · rcases OrderedMap.mem_place inside with rfl | before
          · exact .inr ⟨name, List.mem_cons_self, rfl⟩
          · exact .inl before
        · exact .inr ⟨name', List.mem_cons_of_mem _ hname, same⟩

theorem addPrivateSecrets_entries (entries : List (List Char × List UInt8))
    (builder : WitnessContextBuilder) :
    entries.foldl (fun builder entry => builder.addPrivateSecret entry.1 entry.2) builder =
      { builder with
        privateData := entries.foldl (fun m e => m.assign e.1 e.2) builder.privateData } := by
  induction entries generalizing builder with
  | nil => rfl
  | cons entry entries ih =>
    rw [List.foldl_cons, List.foldl_cons, ih]
    rfl

/-- The builder has what it needs. -/
theorem buildFromManagers_eq (contractAddress : List Char) (stateMgr : PrivateStates)
    (secretStore : Secrets) (required : List (List UInt8 × Bytes 32)) :
    buildFromManagers lib env contractAddress stateMgr secretStore required =
      (loadSecrets lib env secretStore required .empty).map fun privateData =>
        { publicLedgerState := stateMgr.getPrivateState contractAddress, privateData,
          contractAddress, blockHeight := 0 } := by
  rw [buildFromManagers]
  cases loadSecrets lib env secretStore required .empty with
  | error e => rfl
  | ok secrets =>
    have all := OrderedMap.ofEntries_entries secrets
    rw [OrderedMap.ofEntries] at all
    rw [ok_bind, WitnessContextBuilder.addPrivateSecrets, addPrivateSecrets_entries]
    change WitnessContextBuilder.build ⟨contractAddress, _,
      secrets.entries.foldl (fun m e => m.assign e.1 e.2) .empty, 0, true, true⟩ = _
    rw [all]
    rfl

/-! ## Contexts -/

/-- **A witness is given what was last written of each part, in every run exactly when the
variable is long enough.** -/
theorem buildFromManagers_iff (keyed : Keyed lib) (env : Environment) :
    (∀ (stateCalls : List StateCall) (calls : List Call) (contractAddress : List Char)
      (required : List (List UInt8 × Bytes 32)), FreshDraws calls required →
        ∃ ctx, buildFromManagers lib env contractAddress (.after stateCalls) (run lib env calls)
            required = .ok ctx ∧
          Describes lib env contractAddress stateCalls calls (required.map Prod.fst) ctx) ↔
      LongEnough env := by
  constructor
  · intro all
    by_contra short
    obtain ⟨name, data, draw, drawn, fresh, stored, lost⟩ := @exists_lost lib env keyed short
    obtain ⟨ctx, built, -⟩ := all [] [.store name data draw] [] [(name, drawn)] fresh
    obtain ⟨-, -, draw', box, -, held⟩ := run_holds _ data stored
    rw [buildFromManagers_eq, loadSecrets, held, Option.isSome_some, if_pos rfl, lost] at built
    cases built
  · intro long stateCalls calls contractAddress required _
    obtain ⟨loaded, done, found, only⟩ := @loadSecrets_stored lib env long calls required .empty
    refine ⟨_, by rw [buildFromManagers_eq, done]; rfl, rfl, ?_, ?_, ?_, rfl⟩
    · exact (keptOf_after contractAddress stateCalls).getPrivateState
    · intro name
      rw [found]
      change (if _ then Option.or _ none else none) = _
      rw [Option.or_none]
    · intro entry hentry
      exact (only entry hentry).resolve_left List.not_mem_nil

end

/-- With 64 zeros in the variable the witness gets its secret. -/
theorem buildFromManagers_iff_zeros :
    ∃ ctx, buildFromManagers sampleLibrary (some (List.replicate 64 '0')) "c0".toList
        (.after [.sync "c0".toList ⟨"c0".toList, .null, .null, 7, []⟩])
        (run sampleLibrary (some (List.replicate 64 '0')) sampleCalls)
        [(literal "localSecretKey", otherDraw)] = .ok ctx ∧
      Describes sampleLibrary (some (List.replicate 64 '0')) "c0".toList
        [.sync "c0".toList ⟨"c0".toList, .null, .null, 7, []⟩] sampleCalls
        [literal "localSecretKey"] ctx :=
  (buildFromManagers_iff sampleLibrary_keyed (some (List.replicate 64 '0'))).mpr
    ⟨List.replicate 64 '0', rfl, Nat.le_of_eq List.length_replicate.symm⟩
    _ sampleCalls _ [(literal "localSecretKey", otherDraw)] ⟨by decide, by decide⟩

/-- A contract that was only synchronised has no address in its state. -/
example (contractAddress : List Char) (state : LedgerState) :
    merged (lastUpdate contractAddress [.sync contractAddress state])
      (lastPublic contractAddress [.sync contractAddress state]) =
        { state with contractAddress := [], privateState := .null } := by
  rw [lastPublic, List.foldl_cons, List.foldl_nil, StateCall.publishes, if_pos rfl]
  rfl

end MidnightSdk.Zk
