import MidnightSdk.Library.Actions
import MidnightSdk.Network.IndexerClient

/-!
# What the indexer client answers from its caches

Outputs are kept for some time after a scan, and so are the wallet states computed from them,
which may come from the kept outputs. An answer from a cache was therefore found by a scan at most
twice that time ago, but for the time between two readings of the clock.
-/

namespace MidnightSdk.Network

open Cpp Interaction

/-- The time is in nanoseconds. -/
structure CacheEntry where
  data : Json
  timestamp : Int

/-- What no method reads is left out. -/
structure IndexerCaches where
  cacheEnabled : Bool := true
  cacheTtlSeconds : UInt32 := 60
  utxoCache : String → Option CacheEntry := fun _ => none
  walletCache : String → Option CacheEntry := fun _ => none

namespace IndexerCaches

/-- The answer to `scan` is what a scan of all blocks finds, or why there is none. -/
inductive Question where
  | now
  | scan (address : String)

abbrev Answer : Question → Type
  | .now => Int
  | .scan _ => Throws (List Utxo)

abbrev Act (α : Type) : Type := Action Question Answer IndexerCaches Exception α

abbrev Seen : Type := List (Event Answer)

def now : Act Int := Action.ask (A := Answer) .now

def scan (address : String) : Act (Throws (List Utxo)) := Action.ask (A := Answer) (.scan address)

def nanoseconds (seconds : UInt32) : Int := seconds.toNat * 1000000000

/-- What a cache holds for the address, if it may be used and is still valid. -/
def lookup (cache : IndexerCaches → String → Option CacheEntry) (address : String)
    (useCache : Bool) : Act (Option Json) := do
  let client ← Action.get
  if useCache && client.cacheEnabled then
    match cache client address with
    | some entry => do
      let time ← now
      return if time - entry.timestamp < nanoseconds client.cacheTtlSeconds then some entry.data
        else none
    | none => return none
  else return none

def put (cache : String → Option CacheEntry) (address : String) (entry : CacheEntry) :
    String → Option CacheEntry :=
  fun other => if other = address then some entry else cache other

/-! ## Outputs -/

def utxoToJson (utxo : Utxo) : Json := .ofFields [
  ("tx_hash", .string utxo.txHash),
  ("output_index", .unsigned utxo.outputIndex.toUInt64),
  ("amount_commitment", .string utxo.amountCommitment),
  ("value", .unsigned utxo.value),
  ("address", .string utxo.address),
  ("token_type", .string utxo.tokenType),
  ("block_height", .unsigned utxo.blockHeight.toUInt64),
  ("ctime", .unsigned utxo.ctime),
  ("initial_nonce", .string utxo.initialNonce),
  ("registered_for_dust_generation", .bool utxo.registeredForDustGeneration)]

def readUtxo (item : Json) : Throws Utxo := do
  let txHash ← item.valueString "tx_hash" ""
  let outputIndex ← item.valueUInt32 "output_index" 0
  let amountCommitment ← item.valueString "amount_commitment" ""
  let value ← item.valueUInt64 "value" 0
  let address ← item.valueString "address" ""
  let tokenType ← item.valueString "token_type" "NIGHT"
  let blockHeight ← item.valueUInt32 "block_height" 0
  let ctime ← item.valueUInt64 "ctime" 0
  let initialNonce ← item.valueString "initial_nonce" ""
  let registeredForDustGeneration ← item.valueBool "registered_for_dust_generation" false
  return {
    txHash, outputIndex, address, amountCommitment, value, tokenType, blockHeight, ctime,
    initialNonce, registeredForDustGeneration }

def readUtxos : Json → Throws (List Utxo)
  | .array items => items.mapM readUtxo
  | _ => .ok []

def queryUtxos (address : String) (useCache : Bool) : Act (List Utxo) := do
  match ← lookup utxoCache address useCache with
  | some data => Action.ofExcept (readUtxos data)
  | none => do
    let utxos ← Action.ofExcept (← scan address)
    let client ← Action.get
    if useCache && client.cacheEnabled then do
      let time ← now
      Action.modify fun client =>
        { client with
          utxoCache := put client.utxoCache address ⟨.array (utxos.map utxoToJson), time⟩ }
    return utxos

/-! ## Wallet states -/

/-- The shielded balance and the session are not written. -/
def walletStateToJson (state : WalletState) : Json := .ofFields [
  ("address", .string state.address),
  ("unshielded_balance", .string state.unshieldedBalance),
  ("dust_balance", .string state.dustBalance),
  ("available_utxo_count", .unsigned state.availableUtxoCount),
  ("dust_registered_utxo_count", .unsigned state.dustRegisteredUtxoCount),
  ("synced", .bool state.synced),
  ("error", .string state.error)]

/-- The counts are read at 32 bits. -/
def readWalletState (address : String) : Json → Throws WalletState
  | .object fields => do
    let data := Json.object fields
    let walletAddress ← data.valueString "address" address
    let unshieldedBalance ← data.valueString "unshielded_balance" "0"
    let shieldedBalance ← data.valueString "shielded_balance" "0"
    let dustBalance ← data.valueString "dust_balance" "0"
    let availableUtxoCount ← data.valueUInt32 "available_utxo_count" 0
    let dustRegisteredUtxoCount ← data.valueUInt32 "dust_registered_utxo_count" 0
    let sessionId ← data.valueString "session_id" ""
    let synced ← data.valueBool "synced" false
    let error ← data.valueString "error" ""
    return {
      address := walletAddress, unshieldedBalance, shieldedBalance, dustBalance, sessionId
      availableUtxoCount := availableUtxoCount.toUInt64
      dustRegisteredUtxoCount := dustRegisteredUtxoCount.toUInt64
      synced, error }
  | _ => .ok { address }

variable (typeErrorText : Nat → String)

def queryWalletState (address : String) (useCache : Bool) : Act WalletState := do
  match ← lookup walletCache address useCache with
  | some data => Action.ofExcept (readWalletState address data)
  | none =>
    Action.catching
      (do
        let utxos ← queryUtxos address useCache
        let state := walletStateFromUtxos address utxos
        let client ← Action.get
        if useCache && client.cacheEnabled then do
          let time ← now
          Action.modify fun client =>
            { client with
              walletCache := put client.walletCache address ⟨walletStateToJson state, time⟩ }
        return state)
      fun e => return { address, error := e.what typeErrorText }

/-! ## Sessions -/

def prune (cutoff : Int) (cache : String → Option CacheEntry) : String → Option CacheEntry :=
  fun address => (cache address).filter fun entry => ¬ entry.timestamp < cutoff

def pruneExpiredCache : Act Unit := do
  let time ← now
  Action.modify fun client =>
    let cutoff := time - nanoseconds client.cacheTtlSeconds
    { client with
      utxoCache := prune cutoff client.utxoCache
      walletCache := prune cutoff client.walletCache }

inductive Operation where
  | queryUtxos (address : String) (useCache : Bool)
  | queryWalletState (address : String) (useCache : Bool)
  | setCacheEnabled (enabled : Bool)
  | setCacheTtl (ttlSeconds : UInt32)
  | clearCache
  | pruneExpiredCache

def Operation.perform : Operation → Act Unit
  | queryUtxos address useCache => do
    let _ ← IndexerCaches.queryUtxos address useCache
  | queryWalletState address useCache => do
    let _ ← IndexerCaches.queryWalletState typeErrorText address useCache
  | setCacheEnabled enabled => Action.modify fun client => { client with cacheEnabled := enabled }
  | setCacheTtl ttlSeconds => Action.modify fun client => { client with cacheTtlSeconds := ttlSeconds }
  | clearCache => Action.modify fun client =>
    { client with utxoCache := fun _ => none, walletCache := fun _ => none }
  | pruneExpiredCache => IndexerCaches.pruneExpiredCache

def session : List Operation → Act Unit
  | [] => pure ()
  | operation :: operations => do
    let _ ← (operation.perform typeErrorText).settled
    session operations

/-! ## What is written is read back -/

theorem readUtxo_utxoToJson (utxo : Utxo) : readUtxo (utxoToJson utxo) = .ok utxo := by
  simp [readUtxo, utxoToJson, Json.valueString, Json.valueUInt32, Json.valueUInt64, Json.valueBool,
    Json.value_ofFields, Json.lookup, Json.getString, Json.getUInt32, Json.getUInt64, Json.getBool,
    bind, Except.bind, pure, Except.pure]

theorem readUtxos_map (utxos : List Utxo) :
    readUtxos (.array (utxos.map utxoToJson)) = .ok utxos := by
  rw [readUtxos]
  induction utxos with
  | nil => rfl
  | cons utxo utxos ih =>
    rw [List.map_cons, List.mapM_cons, readUtxo_utxoToJson, ih]
    rfl

/-- A state as it comes out of the cache: the number of registered outputs at 32 bits. -/
def kept (state : WalletState) : WalletState :=
  { state with dustRegisteredUtxoCount := state.dustRegisteredUtxoCount.toUInt32.toUInt64 }

theorem readWalletState_walletStateToJson (address owner : String) (utxos : List Utxo) :
    readWalletState address (walletStateToJson (walletStateFromUtxos owner utxos)) =
      .ok (kept (walletStateFromUtxos owner utxos)) := by
  have object : walletStateToJson (walletStateFromUtxos owner utxos) = .object _ := rfl
  rw [object, readWalletState]
  rw [← object]
  simp [walletStateToJson, walletStateFromUtxos, Json.valueString, Json.valueUInt32, Json.valueBool,
    Json.value_ofFields, Json.lookup, Json.getString, Json.getUInt32, Json.getBool,
    bind, Except.bind, pure, Except.pure, kept]

/-! ## Where the entries come from -/

/-- A scan found these outputs, and the clock was read right after it. -/
def Scanned (seen : Seen) (address : String) (utxos : List Utxo) (time : Int) : Prop :=
  [⟨.scan address, .ok utxos⟩, ⟨.now, time⟩] <:+: seen

/-- Two readings of the clock right after each other. -/
def ReadTwice (seen : Seen) (first second : Int) : Prop := [⟨.now, first⟩, ⟨.now, second⟩] <:+: seen

/-- No entry is valid for more than `T`, and each of them goes back to a scan of its address. -/
structure Sound (T : Int) (seen : Seen) (client : IndexerCaches) : Prop where
  positive : 0 < T
  ttl : nanoseconds client.cacheTtlSeconds ≤ T
  utxos : ∀ address entry, client.utxoCache address = some entry →
    ∃ utxos, entry.data = .array (utxos.map utxoToJson) ∧ Scanned seen address utxos entry.timestamp
  wallets : ∀ address entry, client.walletCache address = some entry →
    ∃ utxos scanned looked, entry.data = walletStateToJson (walletStateFromUtxos address utxos) ∧
      Scanned seen address utxos scanned ∧ looked - scanned < T ∧
      ReadTwice seen looked entry.timestamp

variable {T : Int} {past own : Seen} {s t : IndexerCaches} {address : String} {useCache : Bool}

theorem Scanned.later {utxos : List Utxo} {time : Int} (h : Scanned past address utxos time)
    (own : Seen) : Scanned (past ++ own) address utxos time :=
  h.trans (List.prefix_append past own).isInfix

theorem ReadTwice.later {first second : Int} (h : ReadTwice past first second) (own : Seen) :
    ReadTwice (past ++ own) first second := h.trans (List.prefix_append past own).isInfix

/-- Nothing is known less after more questions, and fewer entries are no less sound. -/
theorem Sound.later (h : Sound T past s) (own : Seen)
    (ttl : nanoseconds t.cacheTtlSeconds ≤ T)
    (utxos : ∀ address entry, t.utxoCache address = some entry → s.utxoCache address = some entry)
    (wallets : ∀ address entry, t.walletCache address = some entry →
      s.walletCache address = some entry) : Sound T (past ++ own) t where
  positive := h.positive
  ttl := ttl
  utxos address entry hentry := by
    obtain ⟨found, hdata, hscan⟩ := h.utxos address entry (utxos address entry hentry)
    exact ⟨found, hdata, hscan.later own⟩
  wallets address entry hentry := by
    obtain ⟨found, scanned, looked, hdata, hscan, hage, hread⟩ :=
      h.wallets address entry (wallets address entry hentry)
    exact ⟨found, scanned, looked, hdata, hscan.later own, hage, hread.later own⟩

theorem Sound.more (h : Sound T past s) (own : Seen) : Sound T (past ++ own) s :=
  h.later own h.ttl (fun _ _ => id) (fun _ _ => id)

theorem put_eq_some {cache : String → Option CacheEntry} {entry found : CacheEntry}
    {other : String} (h : put cache address entry other = some found) :
    other = address ∧ found = entry ∨ cache other = some found := by
  unfold put at h
  split at h
  · rename_i same
    exact .inl ⟨same, (Option.some.inj h).symm⟩
  · exact .inr h

theorem Sound.putUtxos (h : Sound T past s) {utxos : List Utxo} {time : Int}
    (scanned : Scanned past address utxos time) :
    Sound T past { s with
      utxoCache := put s.utxoCache address ⟨.array (utxos.map utxoToJson), time⟩ } where
  positive := h.positive
  ttl := h.ttl
  wallets := h.wallets
  utxos other entry hentry := by
    rcases put_eq_some hentry with ⟨rfl, rfl⟩ | hold
    · exact ⟨utxos, rfl, scanned⟩
    · exact h.utxos other entry hold

theorem Sound.putWallet (h : Sound T past s) {utxos : List Utxo} {scanned looked time : Int}
    (hscan : Scanned past address utxos scanned) (hage : looked - scanned < T)
    (hread : ReadTwice past looked time) :
    Sound T past { s with
      walletCache := put s.walletCache address
        ⟨walletStateToJson (walletStateFromUtxos address utxos), time⟩ } where
  positive := h.positive
  ttl := h.ttl
  utxos := h.utxos
  wallets other entry hentry := by
    rcases put_eq_some hentry with ⟨rfl, rfl⟩ | hold
    · exact ⟨utxos, scanned, looked, rfl, hscan, hage, hread⟩
    · exact h.wallets other entry hold

/-! ## What a query does -/

theorem ran_lookup {cache : IndexerCaches → String → Option CacheEntry}
    {result : Throws (Option Json)} (h : Ran (lookup cache address useCache) s own result t) :
    t = s ∧ ((result = .ok none ∧ ∀ event ∈ own, event.1 = .now) ∨
      ∃ entry time, useCache = true ∧ cache s address = some entry ∧ own = [⟨.now, time⟩] ∧
        time - entry.timestamp < nanoseconds s.cacheTtlSeconds ∧ result = .ok (some entry.data)) := by
  have hnext := ran_get_bind h
  by_cases huse : (useCache && s.cacheEnabled) = true
  · rw [if_pos huse] at hnext
    cases hentry : cache s address with
    | none =>
      rw [hentry] at hnext
      obtain ⟨rfl, rfl, rfl⟩ := ran_pure hnext
      exact ⟨rfl, .inl ⟨rfl, nofun⟩⟩
    | some entry =>
      rw [hentry] at hnext
      obtain ⟨time, rest, rfl, hrest⟩ := ran_ask_bind hnext
      obtain ⟨rfl, rfl, rfl⟩ := ran_pure hrest
      refine ⟨rfl, ?_⟩
      by_cases hvalid : time - entry.timestamp < nanoseconds t.cacheTtlSeconds
      · rw [if_pos hvalid]
        exact .inr ⟨entry, time, (Bool.and_eq_true_iff.mp huse).1, rfl, rfl, hvalid, rfl⟩
      · rw [if_neg hvalid]
        refine .inl ⟨rfl, fun event hmem => ?_⟩
        rw [List.mem_singleton.mp hmem]
  · rw [if_neg huse] at hnext
    obtain ⟨rfl, rfl, rfl⟩ := ran_pure hnext
    exact ⟨rfl, .inl ⟨rfl, nofun⟩⟩

/-- Where the outputs of a query come from: a valid entry, or a scan of its own. -/
inductive Found (T : Int) (past own : Seen) (address : String) (useCache : Bool)
    (utxos : List Utxo) : Prop
  | kept (scanned looked : Int) (used : useCache = true)
      (scan : Scanned past address utxos scanned) (alone : own = [⟨.now, looked⟩])
      (age : looked - scanned < T)
  | asked (scan : ⟨.scan address, .ok utxos⟩ ∈ own)

/-- The last reading, and the scan it goes back to. -/
def LastRead (T : Int) (past own : Seen) (address : String) (utxos : List Utxo) : Prop :=
  ∃ front scanned looked, own = front ++ [⟨.now, looked⟩] ∧
    Scanned (past ++ own) address utxos scanned ∧ looked - scanned < T

theorem ran_queryUtxos (sound : Sound T past s) {result : Throws (List Utxo)}
    (h : Ran (queryUtxos address useCache) s own result t) :
    Sound T (past ++ own) t ∧ t.cacheEnabled = s.cacheEnabled ∧
      ((∃ e, result = .error e ∧ ⟨.scan address, .error e⟩ ∈ own) ∨
        ∃ utxos, result = .ok utxos ∧ Found T past own address useCache utxos ∧
          ((useCache && s.cacheEnabled) = true → LastRead T past own address utxos)) := by
  rcases ran_bind h with ⟨e, hlook, -⟩ | ⟨cached, mid, looks, rest, rfl, hlook, hrest⟩
  · obtain ⟨-, ⟨bad, -⟩ | ⟨_, _, _, _, _, _, bad⟩⟩ := ran_lookup hlook
    · cases bad
    · cases bad
  obtain ⟨rfl, ⟨hnone, -⟩ | ⟨entry, looked, used, hentry, rfl, hvalid, hsome⟩⟩ := ran_lookup hlook
  · cases hnone
    obtain ⟨answer, behind, rfl, hgoes⟩ := ran_ask_bind hrest
    rcases ran_bind hgoes with ⟨e, hread, rfl⟩ | ⟨utxos, last, reads, stores, rfl, hread, hstore⟩
    · obtain ⟨rfl, failed, rfl⟩ := ran_ofExcept hread
      rw [← failed]
      exact ⟨sound.more _, rfl, .inl ⟨e, rfl, by simp⟩⟩
    obtain ⟨rfl, found, rfl⟩ := ran_ofExcept hread
    subst found
    have hdone := ran_get_bind hstore
    by_cases huse : (useCache && last.cacheEnabled) = true
    · rw [if_pos huse] at hdone
      obtain ⟨time, done, rfl, hput⟩ := ran_ask_bind hdone
      have hend := ran_modify_bind hput
      obtain ⟨rfl, rfl, rfl⟩ := ran_pure hend
      have scan : Scanned (past ++ (looks ++ ⟨.scan address, .ok utxos⟩ :: ([] ++ [⟨.now, time⟩])))
          address utxos time := ⟨past ++ looks, [], by simp⟩
      refine ⟨(sound.more _).putUtxos scan, rfl, .inr ⟨utxos, rfl, .asked (by simp), fun _ => ?_⟩⟩
      refine ⟨looks ++ [⟨.scan address, .ok utxos⟩], time, time, by simp, scan, ?_⟩
      rw [Int.sub_self]
      exact sound.positive
    · rw [if_neg huse] at hdone
      obtain ⟨rfl, rfl, rfl⟩ := ran_pure hdone
      exact ⟨sound.more _, rfl, .inr ⟨utxos, rfl, .asked (by simp), fun used => absurd used huse⟩⟩
  · cases hsome
    obtain ⟨utxos, hdata, hscan⟩ := sound.utxos address entry hentry
    obtain ⟨rfl, rfl, rfl⟩ := ran_ofExcept hrest
    rw [hdata, readUtxos_map, List.append_nil]
    have young : looked - entry.timestamp < T := Int.lt_of_lt_of_le hvalid sound.ttl
    refine ⟨sound.more _, rfl, .inr ⟨utxos, rfl, .kept _ looked used hscan rfl young, fun _ => ?_⟩⟩
    exact ⟨[], entry.timestamp, looked, rfl, hscan.later _, young⟩

/-- What a client is told of a wallet: why there is no state, or the state of outputs that a scan
has found, now or before. -/
inductive Told (T : Int) (past own : Seen) (address : String) (useCache : Bool) :
    WalletState → Prop
  | failed (e : Exception) (scan : ⟨.scan address, .error e⟩ ∈ own) :
      Told T past own address useCache { address, error := e.what typeErrorText }
  | asked (utxos : List Utxo) (scan : ⟨.scan address, .ok utxos⟩ ∈ own) :
      Told T past own address useCache (walletStateFromUtxos address utxos)
  | keptOutputs (utxos : List Utxo) (scanned looked : Int) (used : useCache = true)
      (scan : Scanned (past ++ own) address utxos scanned) (read : ⟨.now, looked⟩ ∈ own)
      (age : looked - scanned < T) :
      Told T past own address useCache (walletStateFromUtxos address utxos)
  | keptState (utxos : List Utxo) (scanned looked stored served : Int) (used : useCache = true)
      (scan : Scanned past address utxos scanned) (firstAge : looked - scanned < T)
      (reads : ReadTwice past looked stored) (alone : own = [⟨.now, served⟩])
      (age : served - stored < T) :
      Told T past own address useCache (kept (walletStateFromUtxos address utxos))

variable {typeErrorText}

theorem Found.told {looks later : Seen} {utxos : List Utxo}
    (h : Found T (past ++ looks) own address useCache utxos) :
    Told typeErrorText T past (looks ++ own ++ later) address useCache
      (walletStateFromUtxos address utxos) := by
  cases h with
  | asked scan => exact .asked utxos (by simp [scan])
  | kept scanned looked used scan alone age =>
    subst alone
    have before := scan.later ([⟨.now, looked⟩] ++ later)
    rw [List.append_assoc, ← List.append_assoc looks] at before
    exact .keptOutputs utxos scanned looked used before (by simp) age

/-- What is read last in the first part and first in the second is read twice. -/
theorem readTwice_append (past front later : Seen) (first second : Int) :
    ReadTwice (past ++ (front ++ [⟨.now, first⟩]) ++ ⟨.now, second⟩ :: later) first second :=
  ⟨past ++ front, later, by simp⟩

theorem ran_freshState (sound : Sound T past s) {result : Throws WalletState}
    (h : Ran (do
      let utxos ← queryUtxos address useCache
      let state := walletStateFromUtxos address utxos
      let client ← Action.get
      if useCache && client.cacheEnabled then do
        let time ← now
        Action.modify fun client =>
          { client with
            walletCache := put client.walletCache address ⟨walletStateToJson state, time⟩ }
      return state) s own result t) :
    Sound T (past ++ own) t ∧ ((∃ e, result = .error e ∧ ⟨.scan address, .error e⟩ ∈ own) ∨
      ∃ utxos first later, result = .ok (walletStateFromUtxos address utxos) ∧
        own = first ++ later ∧ Found T past first address useCache utxos) := by
  rcases ran_bind h with ⟨e, hquery, rfl⟩ | ⟨utxos, mid, first, rest, rfl, hquery, hstore⟩
  · obtain ⟨sound', -, ⟨e', failed, hmem⟩ | ⟨_, bad, -⟩⟩ := ran_queryUtxos sound hquery
    · cases failed
      exact ⟨sound', .inl ⟨e, rfl, hmem⟩⟩
    · cases bad
  obtain ⟨sound', enabled, ⟨_, bad, -⟩ | ⟨found, hok, hfound, hread⟩⟩ := ran_queryUtxos sound hquery
  · cases bad
  cases hok
  have hdone := ran_get_bind hstore
  by_cases huse : (useCache && mid.cacheEnabled) = true
  · rw [if_pos huse] at hdone
    obtain ⟨time, done, rfl, hput⟩ := ran_ask_bind hdone
    have hend := ran_modify_bind hput
    obtain ⟨rfl, rfl, rfl⟩ := ran_pure hend
    obtain ⟨front, scanned, looked, rfl, hscan, age⟩ := hread (by rwa [← enabled])
    refine ⟨?_, .inr ⟨utxos, _, _, rfl, rfl, hfound⟩⟩
    have sound'' := sound'.more [⟨.now, time⟩]
    have reads := readTwice_append past front [] looked time
    rw [← List.append_assoc]
    exact sound''.putWallet (hscan.later _) age reads
  · rw [if_neg huse] at hdone
    obtain ⟨rfl, rfl, rfl⟩ := ran_pure hdone
    rw [List.append_nil]
    exact ⟨sound', .inr ⟨utxos, first, [], rfl, (List.append_nil _).symm, hfound⟩⟩

theorem ran_queryWalletState (sound : Sound T past s) {result : Throws WalletState}
    (h : Ran (queryWalletState typeErrorText address useCache) s own result t) :
    Sound T (past ++ own) t ∧ ∃ state, result = .ok state ∧
      Told typeErrorText T past own address useCache state := by
  rcases ran_bind h with ⟨e, hlook, -⟩ | ⟨cached, mid, looks, rest, rfl, hlook, hrest⟩
  · obtain ⟨-, ⟨bad, -⟩ | ⟨_, _, _, _, _, _, bad⟩⟩ := ran_lookup hlook
    · cases bad
    · cases bad
  obtain ⟨rfl, ⟨hnone, -⟩ | ⟨entry, served, used, hentry, rfl, hvalid, hsome⟩⟩ := ran_lookup hlook
  · cases hnone
    rw [← List.append_assoc]
    rcases ran_catching hrest with ⟨state, hfresh, rfl⟩ | ⟨e, last, before, after, rfl, hfresh, hend⟩
    · obtain ⟨sound', ⟨e, bad, -⟩ | ⟨utxos, first, later, hok, rfl, hfound⟩⟩ :=
        ran_freshState (sound.more looks) hfresh
      · cases bad
      · cases hok
        refine ⟨sound', _, rfl, ?_⟩
        rw [← List.append_assoc]
        exact hfound.told
    · obtain ⟨rfl, rfl, rfl⟩ := ran_pure hend
      obtain ⟨sound', ⟨e', failed, hmem⟩ | ⟨_, _, _, bad, -⟩⟩ := ran_freshState (sound.more looks) hfresh
      · cases failed
        rw [List.append_nil]
        exact ⟨sound', _, rfl, .failed e (List.mem_append_right _ hmem)⟩
      · cases bad
  · cases hsome
    obtain ⟨utxos, scanned, looked, hdata, hscan, age, reads⟩ := sound.wallets address entry hentry
    obtain ⟨rfl, rfl, rfl⟩ := ran_ofExcept hrest
    rw [hdata, readWalletState_walletStateToJson, List.append_nil]
    refine ⟨sound.more _, _, rfl, ?_⟩
    exact .keptState utxos scanned looked _ served used hscan age reads rfl
      (Int.lt_of_lt_of_le hvalid sound.ttl)

/-! ## Whole sessions -/

theorem prune_eq_some {cutoff : Int} {cache : String → Option CacheEntry} {entry : CacheEntry}
    (h : prune cutoff cache address = some entry) : cache address = some entry :=
  (Option.filter_eq_some_iff.mp h).1

/-- All that an operation may set the time to. -/
def Operation.Within (T : Int) : Operation → Prop
  | .setCacheTtl ttlSeconds => nanoseconds ttlSeconds ≤ T
  | _ => True

theorem Sound.perform (sound : Sound T past s) {operation : Operation} (within : operation.Within T)
    {result : Throws Unit} (h : Ran (operation.perform typeErrorText) s own result t) :
    Sound T (past ++ own) t := by
  cases operation with
  | queryUtxos address useCache =>
    rcases ran_bind h with ⟨e, hquery, -⟩ | ⟨_, mid, first, rest, rfl, hquery, hend⟩
    · exact (ran_queryUtxos sound hquery).1
    · obtain ⟨rfl, -, rfl⟩ := ran_pure hend
      rw [List.append_nil]
      exact (ran_queryUtxos sound hquery).1
  | queryWalletState address useCache =>
    rcases ran_bind h with ⟨e, hquery, -⟩ | ⟨_, mid, first, rest, rfl, hquery, hend⟩
    · exact (ran_queryWalletState sound hquery).1
    · obtain ⟨rfl, -, rfl⟩ := ran_pure hend
      rw [List.append_nil]
      exact (ran_queryWalletState sound hquery).1
  | setCacheEnabled enabled =>
    obtain ⟨-, -, rfl⟩ := ran_modify h
    exact sound.later own sound.ttl (fun _ _ => id) (fun _ _ => id)
  | setCacheTtl ttlSeconds =>
    obtain ⟨-, -, rfl⟩ := ran_modify h
    exact sound.later own within (fun _ _ => id) (fun _ _ => id)
  | clearCache =>
    obtain ⟨-, -, rfl⟩ := ran_modify h
    exact sound.later own sound.ttl nofun nofun
  | pruneExpiredCache =>
    obtain ⟨time, rest, rfl, hput⟩ := ran_ask_bind h
    obtain ⟨-, -, rfl⟩ := ran_modify hput
    exact sound.later _ sound.ttl (fun _ _ => prune_eq_some) (fun _ _ => prune_eq_some)

theorem sound_session {operations : List Operation}
    (within : ∀ operation ∈ operations, operation.Within T) (sound : Sound T past s)
    {result : Throws Unit} (h : Ran (session typeErrorText operations) s own result t) :
    Sound T (past ++ own) t := by
  induction operations generalizing past s own with
  | nil =>
    obtain ⟨rfl, -, rfl⟩ := ran_pure h
    rwa [List.append_nil]
  | cons operation operations ih =>
    obtain ⟨got, mid, before, after, rfl, hfirst, hrest⟩ := ran_settled_bind h
    have first := sound.perform (within operation List.mem_cons_self) hfirst
    rw [← List.append_assoc]
    exact ih (fun operation hmem => within operation (List.mem_cons_of_mem _ hmem)) first hrest

theorem sound_new (hT : nanoseconds 60 ≤ T) : Sound T [] {} where
  positive := Int.lt_of_lt_of_le (by decide) hT
  ttl := hT
  utxos _ _ := nofun
  wallets _ _ := nofun

/-- **What the client says of a wallet.** After any session, a query never throws. It says why a
scan of its own failed, or gives the state of outputs that a scan of this address found: now, or
less than `T` before the outputs were looked up, and those less than `T` before it answers. -/
theorem queryWalletState_told (typeErrorText : Nat → String) (hT : nanoseconds 60 ≤ T)
    {operations : List Operation} (within : ∀ operation ∈ operations, operation.Within T)
    {done : Throws Unit} (earlier : Ran (session typeErrorText operations) {} past done s)
    {result : Throws WalletState}
    (h : Ran (queryWalletState typeErrorText address useCache) s own result t) :
    ∃ state, result = .ok state ∧ Told typeErrorText T past own address useCache state :=
  (ran_queryWalletState (sound_session within (sound_new hT) earlier) h).2

def oneOutput : Utxo :=
  ⟨"9f", 0, "mn_addr", "", 5, "", 700000, 0, "", true⟩

/-- The wallet is scanned once, and a second later its state is asked for again. -/
def scannedOnce : Seen := [⟨.scan "mn_addr", .ok [oneOutput]⟩, ⟨.now, 0⟩, ⟨.now, 1⟩]

def afterScan : IndexerCaches where
  utxoCache := put (fun _ => none) "mn_addr" ⟨.array [utxoToJson oneOutput], 0⟩
  walletCache := put (fun _ => none) "mn_addr"
    ⟨walletStateToJson (walletStateFromUtxos "mn_addr" [oneOutput]), 1⟩

theorem queryWalletState_told_scannedOnce :
    ∃ state : WalletState, (.ok (kept (walletStateFromUtxos "mn_addr" [oneOutput])) : Throws _) =
        .ok state ∧
      Told (fun _ => "") (nanoseconds 60) scannedOnce [⟨.now, 1000000000⟩] "mn_addr" true state := by
  have earlier : Ran (session (fun _ => "") [.queryWalletState "mn_addr" true]) {} scannedOnce
      (.ok ()) afterScan := .ask (.ask (.ask (.done _)))
  have h : Ran (queryWalletState (fun _ => "") "mn_addr" true) afterScan [⟨.now, 1000000000⟩]
      (.ok (kept (walletStateFromUtxos "mn_addr" [oneOutput]))) afterScan := by
    have valid : (1000000000 : Int) - 1 < nanoseconds 60 := by decide
    have answer : (if (1000000000 : Int) - 1 < nanoseconds 60 then
        some (walletStateToJson (walletStateFromUtxos "mn_addr" [oneOutput])) else none) = _ :=
      if_pos valid
    have looked : Ran (lookup walletCache "mn_addr" true) afterScan [⟨.now, 1000000000⟩]
        (.ok (some (walletStateToJson (walletStateFromUtxos "mn_addr" [oneOutput])))) afterScan := by
      rw [← answer]
      exact .ask (.done _)
    refine looked.bind (?_ : Ran _ _ [] _ _)
    simp only [readWalletState_walletStateToJson]
    exact .done _
  apply queryWalletState_told (fun _ => "") (Int.le_refl _) ?_ earlier h
  intro operation hmem
  rw [List.mem_singleton.mp hmem]
  trivial

end IndexerCaches

end MidnightSdk.Network
