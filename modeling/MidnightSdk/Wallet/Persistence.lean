import MidnightSdk.Library.Json
import MidnightSdk.Wallet.Addresses
import MidnightSdk.Wallet.Facade

/-!
# Saving and restoring the wallet

The wallet writes its state as a JSON object and reads one back. Writer and
reader each name the members they handle; the texts between them are those of
the JSON library, taken as a parameter.
-/

namespace MidnightSdk.Wallet

open Cpp

structure DustWalletState where
  address : String := ""
  balance : UInt64 := 0
  registered : Bool := false
  registeredNightAmount : UInt64 := 0
  deriving DecidableEq, Repr

structure ShieldedWalletState where
  address : String := ""
  deriving DecidableEq, Repr

/-- The facade with the members that are saved besides the unshielded state. -/
structure StoredFacade extends WalletFacade where
  unshielded := {}
  dust : DustWalletState := {}
  shielded : ShieldedWalletState := {}
  nightAddr : String := ""
  dustAddr : String := ""
  shieldedAddr : String := ""
  indexerUrl : String := ""
  network : Network := .preProd
  cleared : Bool := false
  deriving Repr

/-- `json::dump` and `json::parse`; a text is its bytes. -/
structure JsonText where
  dump : Json → List UInt8
  parse : List UInt8 → Throws Json

/-! ## Writing -/

def UtxoWithMeta.available (coin : UtxoWithMeta) : Json :=
  .ofFields [
    ("utxo_hash", .string coin.utxoHash),
    ("output_index", .unsigned coin.outputIndex.toUInt64),
    ("amount", .unsigned coin.amount),
    ("token_type", .string coin.tokenType),
    ("tx_hash", .string coin.txHash),
    ("registered_for_dust", .bool coin.registeredForDust)]

def UtxoWithMeta.pending (coin : UtxoWithMeta) : Json :=
  .ofFields [
    ("utxo_hash", .string coin.utxoHash),
    ("amount", .unsigned coin.amount),
    ("token_type", .string coin.tokenType)]

def Balances.toFields (balances : Balances) : Json.Fields :=
  Json.ofMap (balances.map fun p => (p.1, .unsigned p.2))

def SyncProgress.toJson (progress : SyncProgress) : Json :=
  .ofFields [
    ("applied_id", .unsigned progress.appliedId),
    ("highest_tx_id", .unsigned progress.highestTransactionId),
    ("is_connected", .bool progress.isConnected)]

/-- The members in the order they are assigned; `now` is in seconds. The
version is a number that prints and parses as an unsigned one. -/
def StoredFacade.members (w : StoredFacade) (now : UInt64) : Json.Fields := [
  ("version", .unsigned 3),
  ("network", .string (networkToString w.network)),
  ("indexer_url", .string w.indexerUrl),
  ("unshielded_address", .string w.nightAddr),
  ("dust_address", .string w.dustAddr),
  ("shielded_address", .string w.shieldedAddr),
  ("balances", .object w.unshielded.balances.toFields),
  ("dust_registered", .bool w.dust.registered),
  ("dust_registered_night_amount", .unsigned w.dust.registeredNightAmount),
  ("sync_progress", w.unshielded.progress.toJson),
  ("available_utxos", .array (w.unshielded.availableCoins.map UtxoWithMeta.available)),
  ("pending_utxos", .array (w.unshielded.pendingCoins.map UtxoWithMeta.pending)),
  ("serialized_at", .unsigned now)]

def StoredFacade.toJson (w : StoredFacade) (now : UInt64) : Json := .ofFields (w.members now)

def StoredFacade.serialize (text : JsonText) (w : StoredFacade) (now : UInt64) : List UInt8 :=
  text.dump (w.toJson now)

/-! ## Reading -/

def readCoin (u : Json) : Throws UtxoWithMeta := do
  let utxoHash ← u.valueString "utxo_hash" ""
  let outputIndex ← u.valueUInt32 "output_index" 0
  let amount ← u.valueUInt64 "amount" 0
  let tokenType ← u.valueString "token_type" "NIGHT"
  let txHash ← u.valueString "tx_hash" ""
  let registeredForDust ← u.valueBool "registered_for_dust" false
  return { utxoHash, outputIndex, amount, tokenType, txHash, registeredForDust }

def readBalance (balances : Balances) (item : String × Json) : Throws Balances := do
  let val ← item.2.getUInt64
  return balances.assign item.1 val

def readBalances (j : Json) : Throws Balances :=
  match j.find? "balances" with
  | some (.object items) => items.foldlM readBalance []
  | _ => .ok []

def readProgress (j : Json) : Throws SyncProgress :=
  match j.find? "sync_progress" with
  | some sp => do
    let appliedId ← sp.valueUInt64 "applied_id" 0
    let highestTransactionId ← sp.valueUInt64 "highest_tx_id" 0
    let isConnected ← sp.valueBool "is_connected" false
    return { appliedId, highestTransactionId, isConnected }
  | none => .ok {}

/-- `if (j.contains(key)) field = j[key].get<T>()` -/
def readMember {α : Type} (get : Json → Throws α) (key : String) (field : α) (j : Json) : Throws α :=
  match j.find? key with
  | some v => get v
  | none => .ok field

def readCoins (j : Json) : Throws (List UtxoWithMeta) :=
  match j.find? "available_utxos" with
  | some utxos => utxos.elements.mapM readCoin
  | none => .ok []

/-- Keys are not saved, so the restored facade counts as cleared. -/
def restoreJson (j : Json) : Throws StoredFacade := do
  let indexerUrl ← j.valueString "indexer_url" ""
  let nightAddr ← j.valueString "unshielded_address" ""
  let dustAddr ← j.valueString "dust_address" ""
  let shieldedAddr ← j.valueString "shielded_address" ""
  let netStr ← j.valueString "network" "preview"
  let balances ← readBalances j
  let progress ← readProgress j
  let registered ← readMember Json.getBool "dust_registered" false j
  let registeredNightAmount ← readMember Json.getUInt64 "dust_registered_night_amount" 0 j
  let availableCoins ← readCoins j
  return {
    unshielded := { address := nightAddr, balances, availableCoins, progress }
    dust := { address := dustAddr, registered, registeredNightAmount }
    shielded := { address := shieldedAddr }
    nightAddr, dustAddr, shieldedAddr, indexerUrl
    network := networkFromString netStr
    cleared := true }

def restore (text : JsonText) (serializedState : List UInt8) : Throws StoredFacade := do
  let j ← text.parse serializedState
  restoreJson j

/-! ## What comes back -/

/-- The part of a coin that the wallet's coin lists are saved with. -/
def UtxoWithMeta.recorded (coin : UtxoWithMeta) : UtxoWithMeta :=
  { coin with receiverAddress := "", ctime := 0 }

theorem readCoin_available (coin : UtxoWithMeta) : readCoin coin.available = .ok coin.recorded := by
  unfold readCoin UtxoWithMeta.available Json.valueString Json.valueUInt32 Json.valueUInt64
    Json.valueBool
  simp [Json.value_ofFields, Json.lookup, Json.getString, Json.getUInt32, Json.getUInt64,
    Json.getBool, bind, Except.bind, pure, Except.pure, UtxoWithMeta.recorded]

theorem readCoins_available (coins : List UtxoWithMeta) :
    (coins.map UtxoWithMeta.available).mapM readCoin = .ok (coins.map UtxoWithMeta.recorded) := by
  induction coins with
  | nil => rfl
  | cons coin coins ih =>
    rw [List.map_cons, List.mapM_cons, readCoin_available, ih]
    rfl

theorem Balances.find?_assign_of_ne {token other : String} (h : other ≠ token) (amount : UInt64)
    (balances : Balances) :
    Balances.find? other (Balances.assign token amount balances) = Balances.find? other balances := by
  rw [Balances.assign, Balances.find?, if_neg (Ne.symm h)]
  induction balances with
  | nil => rfl
  | cons p rest ih =>
    by_cases hp : p.1 = token
    · rw [List.filter_cons_of_neg (by simpa using hp), ih, Balances.find?, if_neg]
      intro heq
      exact h (heq.symm.trans hp)
    · rw [List.filter_cons_of_pos (by simpa using hp), Balances.find?, Balances.find?, ih]

/-- The amount a map's member stands for. -/
def amountOf : Json → Option UInt64
  | .unsigned n => some n
  | _ => none

/-- Reading a map's members back assigns each of them once. -/
theorem readBalance_foldlM {items : Json.Fields} (ordered : Json.Ordered items)
    (hitems : ∀ p ∈ items, ∃ n, p.2 = .unsigned n) (balances : Balances) :
    ∃ read, items.foldlM readBalance balances = .ok read ∧ ∀ token,
      Balances.find? token read =
        ((Json.lookup token items).bind amountOf).or (Balances.find? token balances) := by
  induction items generalizing balances with
  | nil => exact ⟨balances, rfl, fun token => rfl⟩
  | cons p rest ih =>
    obtain ⟨n, hn⟩ := hitems p (List.mem_cons_self ..)
    have step : readBalance balances p = .ok (balances.assign p.1 n) := by
      rw [readBalance, hn]
      rfl
    obtain ⟨read, hread, found⟩ := ih (List.pairwise_cons.mp ordered).2
      (fun q hq => hitems q (List.mem_cons_of_mem p hq)) (balances.assign p.1 n)
    refine ⟨read, ?_, ?_⟩
    · rw [List.foldlM_cons, step]
      exact hread
    · intro token
      rw [found token, Json.lookup]
      by_cases htoken : p.1 = token
      · rw [if_pos htoken, ← htoken, ordered.lookup_eq_none, Balances.find?_assign, hn]
        rfl
      · rw [if_neg htoken, Balances.find?_assign_of_ne (Ne.symm htoken)]

theorem lookup_balances (token : String) (balances : Balances) :
    (Json.lookup token (balances.map fun p => (p.1, Json.unsigned p.2))).bind amountOf =
      Balances.find? token balances := by
  induction balances with
  | nil => rfl
  | cons p rest ih =>
    rw [List.map_cons, Json.lookup, Balances.find?]
    by_cases htoken : p.1 = token
    · rw [if_pos htoken, if_pos htoken]
      rfl
    · rw [if_neg htoken, if_neg htoken, ih]

/-- A saved map is read back as the same map. -/
theorem readBalance_toFields (balances : Balances) :
    ∃ read, balances.toFields.foldlM readBalance [] = .ok read ∧
      ∀ token, Balances.find? token read = Balances.find? token balances := by
  have unsigned : ∀ p ∈ balances.toFields, ∃ n, p.2 = .unsigned n := by
    intro p hp
    obtain ⟨entry, -, rfl⟩ := List.mem_map.mp (Json.mem_ofMap hp)
    exact ⟨entry.2, rfl⟩
  obtain ⟨read, hread, found⟩ :=
    readBalance_foldlM (Json.ofMap_ordered _) unsigned []
  refine ⟨read, hread, ?_⟩
  intro token
  rw [found token, Json.lookup_ofMap, lookup_balances]
  exact Option.or_none

theorem members_nodup (w : StoredFacade) (now : UInt64) :
    ((w.members now).map (·.1)).Nodup := by
  have keys : ["version", "network", "indexer_url", "unshielded_address", "dust_address",
      "shielded_address", "balances", "dust_registered", "dust_registered_night_amount",
      "sync_progress", "available_utxos", "pending_utxos", "serialized_at"].Nodup := by decide
  exact keys

/-- A wallet as a restore brings it back: without its pending coins, and the
state's addresses copied from the facade's. -/
def StoredFacade.restored (w : StoredFacade) (balances : Balances) : StoredFacade where
  unshielded := {
    address := w.nightAddr
    balances
    availableCoins := w.unshielded.availableCoins.map UtxoWithMeta.recorded
    progress := w.unshielded.progress }
  dust := {
    address := w.dustAddr
    registered := w.dust.registered
    registeredNightAmount := w.dust.registeredNightAmount }
  shielded := { address := w.shieldedAddr }
  nightAddr := w.nightAddr
  dustAddr := w.dustAddr
  shieldedAddr := w.shieldedAddr
  indexerUrl := w.indexerUrl
  network := w.network
  cleared := true

theorem restoreJson_toJson (w : StoredFacade) (now : UInt64) :
    ∃ balances, (∀ token, Balances.find? token balances =
        Balances.find? token w.unshielded.balances) ∧
      restoreJson (w.toJson now) = .ok (w.restored balances) := by
  obtain ⟨balances, hread, found⟩ := readBalance_toFields w.unshielded.balances
  have member (key : String) : (w.toJson now).find? key = Json.lookup key (w.members now) :=
    Json.find?_ofFields key (members_nodup w now)
  have string (key default : String) : (w.toJson now).valueString key default =
      match Json.lookup key (w.members now) with
      | some v => v.getString
      | none => .ok default :=
    Json.value_ofFields Json.getString key default (members_nodup w now)
  have hbalances : readBalances (w.toJson now) = .ok balances := by
    have field : Json.lookup "balances" (w.members now) =
        some (.object w.unshielded.balances.toFields) := by
      simp [StoredFacade.members, Json.lookup]
    rw [readBalances, member, field]
    exact hread
  have hprogress : readProgress (w.toJson now) = .ok w.unshielded.progress := by
    have field : Json.lookup "sync_progress" (w.members now) =
        some w.unshielded.progress.toJson := by
      simp [StoredFacade.members, Json.lookup]
    rw [readProgress, member, field]
    unfold Json.valueUInt64 Json.valueBool SyncProgress.toJson
    simp [Json.value_ofFields, Json.lookup, Json.getUInt64, Json.getBool, bind, Except.bind, pure,
      Except.pure]
  have hcoins : readCoins (w.toJson now) =
      .ok (w.unshielded.availableCoins.map UtxoWithMeta.recorded) := by
    have field : Json.lookup "available_utxos" (w.members now) =
        some (.array (w.unshielded.availableCoins.map UtxoWithMeta.available)) := by
      simp [StoredFacade.members, Json.lookup]
    rw [readCoins, member, field]
    exact readCoins_available w.unshielded.availableCoins
  refine ⟨balances, found, ?_⟩
  unfold restoreJson
  rw [hbalances, hprogress, hcoins]
  simp only [string, readMember, member]
  simp [StoredFacade.members, Json.lookup, Json.getString, Json.getBool, Json.getUInt64, bind,
    Except.bind, pure, Except.pure, networkFromString_toString, StoredFacade.restored]

/-- The JSON library reads back what it wrote for this value. -/
def JsonText.InverseOn (text : JsonText) (j : Json) : Prop := text.parse (text.dump j) = .ok j

theorem restore_serialize {text : JsonText} {w : StoredFacade} {now : UInt64}
    (inverse : text.InverseOn (w.toJson now)) :
    restore text (w.serialize text now) = restoreJson (w.toJson now) := by
  have parsed : text.parse (w.serialize text now) = .ok (w.toJson now) := inverse
  simp only [restore, parsed, bind, Except.bind]

/-- A text library that knows a single value and its text. -/
def JsonText.only (text : List UInt8) (j : Json) : JsonText where
  dump _ := text
  parse s := if s = text then .ok j else .error (.runtimeError "parse_error")

theorem JsonText.only_inverseOn (text : List UInt8) (j : Json) :
    (JsonText.only text j).InverseOn j := by
  simp [InverseOn, only]

/-- The text of a new wallet's save, for the given lines of its pending coins. -/
@[irreducible] def saveText (pending : List String) : List UInt8 :=
  ["\x7b\n", "  \"available_utxos\": [],\n", "  \"balances\": \x7b\x7d,\n",
    "  \"dust_address\": \"\",\n", "  \"dust_registered\": false,\n",
    "  \"dust_registered_night_amount\": 0,\n", "  \"indexer_url\": \"\",\n",
    "  \"network\": \"preprod\",\n", "  \"pending_utxos\": ["].flatMap literal ++
  pending.flatMap literal ++
  ["],\n", "  \"serialized_at\": 10,\n", "  \"shielded_address\": \"\",\n",
    "  \"sync_progress\": \x7b\n", "    \"applied_id\": 0,\n", "    \"highest_tx_id\": 0,\n",
    "    \"is_connected\": false\n", "  \x7d,\n", "  \"unshielded_address\": \"\",\n",
    "  \"version\": 3\n", "\x7d"].flatMap literal

end MidnightSdk.Wallet
