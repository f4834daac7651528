import Mathlib.Data.List.Forall2
import MidnightSdk.Library.Binary64
import MidnightSdk.Network.GraphqlSubscription

/-!
# The numbers of an event

A message of the indexer shows identifiers, indices, times and amounts as numbers or as
decimal texts. Identifiers and indices are read at the type of a default, which has 32
bits and no texts; times and amounts go through a double where they are numbers, and count
as zero where they cannot be read.
-/

namespace MidnightSdk.Network

open Cpp Stoull Binary64

/-- `static_cast<uint64_t>(val.get<double>())`. Outside the range of the type anything can
come of the conversion. -/
def viaDouble (undefined : Int → UInt64) : ThroughDouble := fun n =>
  if 0 ≤ n ∧ Binary64.round n.toNat < 2 ^ 64 then UInt64.ofNat (Binary64.round n.toNat)
  else undefined n

/-! ## What is called back -/

/-- What a message has called back, the balances apart. -/
def delivered (throughDouble : ThroughDouble) (data : Json) : Option Message :=
  match readMessage throughDouble data with
  | .ok (.progress highestId) => some (.progress highestId)
  | .ok (.transaction evt) =>
    if evt.created.isEmpty && evt.spent.isEmpty then none else some (.transaction evt)
  | _ => none

/-- A listener that writes down what it hears. -/
def recorder : Callbacks (List Message) where
  balance _ _ heard := heard
  unshieldedTx _ evt heard := heard ++ [.transaction evt]
  progress highestId heard := heard ++ [.progress highestId]

theorem listener_credit (w : Watched (List Message)) (utxo : UtxoEvent) :
    (w.credit recorder utxo).listener = w.listener := by
  unfold Watched.credit
  split
  · rfl
  · split <;> rfl

theorem listener_debit (w : Watched (List Message)) (utxo : UtxoEvent) :
    (w.debit utxo).listener = w.listener := by
  unfold Watched.debit
  simp only
  split
  · rfl
  · split <;> rfl

theorem listener_foldl {step : Watched (List Message) → UtxoEvent → Watched (List Message)}
    (h : ∀ w utxo, (step w utxo).listener = w.listener) (w : Watched (List Message))
    (utxos : List UtxoEvent) : (utxos.foldl step w).listener = w.listener := by
  induction utxos generalizing w with
  | nil => rfl
  | cons utxo utxos ih => exact (ih _).trans (h w utxo)

/-- The recorder hears what is delivered, and nothing of a message that cannot be read. -/
theorem delivered_spec (throughDouble : ThroughDouble) (w : Watched (List Message))
    (data : Json) :
    match parseUnshieldedTransactionEvent recorder throughDouble w data with
    | .ok after => after.listener = w.listener ++ (delivered throughDouble data).toList
    | .error _ => delivered throughDouble data = none := by
  rw [parseUnshieldedTransactionEvent_eq, delivered]
  cases readMessage throughDouble data with
  | error e => rfl
  | ok message =>
    cases message with
    | other => exact (List.append_nil _).symm
    | progress highestId => rfl
    | transaction evt =>
      have moved := (listener_foldl listener_debit _ evt.spent).trans
        (listener_foldl listener_credit w evt.created)
      change (Message.apply recorder w (.transaction evt)).listener = _
      rw [Message.apply]
      simp only
      split
      · exact moved.trans (List.append_nil _).symm
      · exact congrArg (· ++ [Message.transaction evt]) moved

/-! ## Events as the indexer shows them -/

inductive Given where
  | unsigned (n : UInt64)
  | integer (n : Int64)
  | text (s : String)
  deriving DecidableEq, Repr

namespace Given

def toJson : Given → Json
  | unsigned n => .unsigned n
  | integer n => .integer n
  | text s => .string s

def isNumber : Given → Bool
  | text _ => false
  | _ => true

/-- The number it shows, unless it is negative or no decimal text. -/
def value : Given → Option Nat
  | unsigned n => some n.toNat
  | integer n => if 0 ≤ n.toInt then some n.toInt.toNat else none
  | text s =>
    if !s.toList.isEmpty && s.toList.all Char.isDigit then some (decimalValue s.toList) else none

/-- It shows a number below a bound. -/
def Below (given : Given) (bound : Nat) : Prop := ∃ n, given.value = some n ∧ n < bound

/-- What is read of a number at the type of a default. -/
def asInt32 : Given → Int32
  | unsigned n => n.toUInt32.toInt32
  | integer n => n.toInt32
  | text _ => 0

theorem getInt32_toJson (given : Given) :
    given.toJson.getInt32 =
      if given.isNumber then .ok given.asInt32 else .error (.typeError 302) := by
  cases given <;> rfl

end Given

structure GivenUtxo where
  owner : String
  value : Given
  outputIndex : Given
  tokenType : String
  ctime : Given
  initialNonce : String
  registeredForDustGeneration : Bool
  createdId : Given
  createdHash : String
  deriving DecidableEq, Repr

inductive GivenEvent where
  | progress (highestTransactionId : Given)
  | transaction (id : Given) (hash : String) (height : UInt64) (created spent : List GivenUtxo)
  deriving Repr

def GivenUtxo.createdAtMembers (given : GivenUtxo) : Json.Fields :=
  [("id", given.createdId.toJson), ("hash", .string given.createdHash)]

def GivenUtxo.members (given : GivenUtxo) : Json.Fields :=
  [("owner", .string given.owner), ("value", given.value.toJson),
    ("outputIndex", given.outputIndex.toJson), ("tokenType", .string given.tokenType),
    ("ctime", given.ctime.toJson), ("initialNonce", .string given.initialNonce),
    ("registeredForDustGeneration", .bool given.registeredForDustGeneration),
    ("createdAtTransaction", .ofFields given.createdAtMembers)]

def GivenUtxo.toJson (given : GivenUtxo) : Json := .ofFields given.members

def blockMembers (height : UInt64) : Json.Fields := [("height", .unsigned height)]

def transactionMembers (id : Given) (hash : String) (height : UInt64) : Json.Fields :=
  [("id", id.toJson), ("hash", .string hash), ("block", .ofFields (blockMembers height))]

def GivenEvent.members : GivenEvent → Json.Fields
  | progress highestTransactionId =>
    [("__typename", .string "UnshieldedTransactionsProgress"),
      ("highestTransactionId", highestTransactionId.toJson)]
  | transaction id hash height created spent =>
    [("__typename", .string "UnshieldedTransaction"),
      ("transaction", .ofFields (transactionMembers id hash height)),
      ("createdUtxos", .array (created.map GivenUtxo.toJson)),
      ("spentUtxos", .array (spent.map GivenUtxo.toJson))]

/-- The members that the subscription asks for. -/
def GivenEvent.toJson (event : GivenEvent) : Json :=
  .object [("unshieldedTransactions", .ofFields event.members)]

/-! ## What is read of them -/

section Read
variable (throughDouble : ThroughDouble)

def GivenUtxo.event (given : GivenUtxo) (utxoHash txHash : String) (isSpent : Bool) : UtxoEvent where
  utxoHash := utxoHash
  txHash := txHash
  outputIndex := given.outputIndex.asInt32.toUInt32
  amount := parseAmount throughDouble given.value.toJson
  tokenType := normalizeTokenType given.tokenType
  owner := given.owner
  isSpent := isSpent
  registeredForDustGeneration := given.registeredForDustGeneration
  initialNonce := given.initialNonce
  ctime := (parseAmount throughDouble given.ctime.toJson).toInt64

def GivenUtxo.createdEvent (txHash : String) (given : GivenUtxo) : UtxoEvent :=
  given.event throughDouble (txHash ++ ":" ++ toString given.outputIndex.asInt32.toInt) txHash false

def GivenUtxo.spentEvent (given : GivenUtxo) : UtxoEvent :=
  given.event throughDouble "" given.createdHash true

theorem GivenUtxo.value_toJson {α : Type} (get : Json → Throws α) (key : String) (default : α)
    (given : GivenUtxo) :
    given.toJson.value get key default =
      match Json.lookup key given.members with
      | some v => get v
      | none => .ok default :=
  Json.value_ofFields get key default (by simp [GivenUtxo.members])

section
variable (given : GivenUtxo)

@[simp] theorem lookup_owner : Json.lookup "owner" given.members = some (.string given.owner) := by
  simp [GivenUtxo.members, Json.lookup]

@[simp] theorem lookup_value : Json.lookup "value" given.members = some given.value.toJson := by
  simp [GivenUtxo.members, Json.lookup]

@[simp] theorem lookup_outputIndex :
    Json.lookup "outputIndex" given.members = some given.outputIndex.toJson := by
  simp [GivenUtxo.members, Json.lookup]

@[simp] theorem lookup_tokenType :
    Json.lookup "tokenType" given.members = some (.string given.tokenType) := by
  simp [GivenUtxo.members, Json.lookup]

@[simp] theorem lookup_ctime : Json.lookup "ctime" given.members = some given.ctime.toJson := by
  simp [GivenUtxo.members, Json.lookup]

@[simp] theorem lookup_initialNonce :
    Json.lookup "initialNonce" given.members = some (.string given.initialNonce) := by
  simp [GivenUtxo.members, Json.lookup]

@[simp] theorem lookup_registered : Json.lookup "registeredForDustGeneration" given.members =
    some (.bool given.registeredForDustGeneration) := by
  simp [GivenUtxo.members, Json.lookup]

@[simp] theorem lookup_createdAt :
    Json.lookup "createdAtTransaction" given.members =
      some (.ofFields given.createdAtMembers) := by
  simp [GivenUtxo.members, Json.lookup]

end

theorem readUtxoEvent_toJson (utxoHash : Int32 → String) (txHash : String) (isSpent : Bool)
    (given : GivenUtxo) :
    readUtxoEvent throughDouble utxoHash txHash isSpent given.toJson =
      if given.outputIndex.isNumber then
        .ok (given.event throughDouble (utxoHash given.outputIndex.asInt32) txHash isSpent)
      else .error (.typeError 302) := by
  simp only [readUtxoEvent, Json.valueInt32, Json.valueString, Json.valueBool,
    GivenUtxo.value_toJson, lookup_owner, lookup_value, lookup_outputIndex, lookup_tokenType,
    lookup_ctime, lookup_initialNonce, lookup_registered, Given.getInt32_toJson]
  cases given.outputIndex.isNumber <;> rfl

theorem readCreated_toJson (txHash : String) (given : GivenUtxo) :
    readCreated throughDouble txHash given.toJson =
      if given.outputIndex.isNumber then .ok (given.createdEvent throughDouble txHash)
      else .error (.typeError 302) :=
  readUtxoEvent_toJson throughDouble _ txHash false given

theorem valueString_createdAt (given : GivenUtxo) (default : String) :
    (Json.ofFields given.createdAtMembers).valueString "hash" default = .ok given.createdHash := by
  have distinct : (given.createdAtMembers.map (·.1)).Nodup := by simp [GivenUtxo.createdAtMembers]
  rw [Json.valueString, Json.value_ofFields _ _ _ distinct]
  simp [GivenUtxo.createdAtMembers, Json.lookup, Json.getString]

theorem readSpent_toJson (txHash : String) (given : GivenUtxo) :
    readSpent throughDouble txHash given.toJson =
      if given.outputIndex.isNumber then .ok (given.spentEvent throughDouble)
      else .error (.typeError 302) := by
  simp only [readSpent, GivenUtxo.value_toJson, lookup_createdAt, ok_bind, valueString_createdAt,
    readUtxoEvent_toJson]
  rfl

/-- Either everything is read, or the first that is not throws. -/
theorem mapM_ite {α β : Type} (p : α → Bool) (f : α → β) (e : Exception) (xs : List α) :
    (xs.mapM fun x => if p x then (.ok (f x) : Throws β) else .error e) =
      if xs.all p then .ok (xs.map f) else .error e := by
  induction xs with
  | nil => rfl
  | cons x xs ih =>
    rw [List.mapM_cons, ih]
    cases hp : p x with
    | false => simp [hp, bind, Except.bind]
    | true => cases hall : xs.all p <;> simp [hp, hall, bind, Except.bind, pure, Except.pure]

/-- The event that is called back of a transaction. -/
def transactionEvent (id : Given) (hash : String) (created spent : List GivenUtxo) :
    UnshieldedTxEvent where
  transactionId := id.asInt32.toInt64.toUInt64
  created := created.map (GivenUtxo.createdEvent throughDouble hash)
  spent := spent.map (GivenUtxo.spentEvent throughDouble)

/-- Nothing that is read at the type of a number is a text. -/
def readable (id : Given) (created spent : List GivenUtxo) : Bool :=
  id.isNumber && created.all (·.outputIndex.isNumber) && spent.all (·.outputIndex.isNumber)

theorem GivenEvent.distinct (event : GivenEvent) : (event.members.map (·.1)).Nodup := by
  cases event <;> simp [GivenEvent.members]

theorem member?_toJson (event : GivenEvent) :
    member? "unshieldedTransactions" event.toJson = some (.ofFields event.members) := by
  simp [member?, GivenEvent.toJson, Json.lookup, Json.ofFields]

theorem readMessage_progress (highestTransactionId : Given) :
    readMessage throughDouble (GivenEvent.progress highestTransactionId).toJson =
      if highestTransactionId.isNumber then
        .ok (.progress highestTransactionId.asInt32.toInt64.toUInt64)
      else .error (.typeError 302) := by
  have typeName : Json.lookup "__typename" (GivenEvent.progress highestTransactionId).members =
      some (.string "UnshieldedTransactionsProgress") := by
    simp [GivenEvent.members, Json.lookup]
  have highest : Json.lookup "highestTransactionId"
      (GivenEvent.progress highestTransactionId).members = some highestTransactionId.toJson := by
    simp [GivenEvent.members, Json.lookup]
  simp only [readMessage, member?_toJson, Json.valueString, Json.valueInt32,
    Json.value_ofFields _ _ _ (GivenEvent.distinct _), typeName, highest, Json.getString, ok_bind,
    if_true, Given.getInt32_toJson]
  cases highestTransactionId.isNumber <;> rfl

theorem readMessage_transaction (id : Given) (hash : String) (height : UInt64)
    (created spent : List GivenUtxo) :
    readMessage throughDouble (GivenEvent.transaction id hash height created spent).toJson =
      if readable id created spent then
        .ok (.transaction (transactionEvent throughDouble id hash created spent))
      else .error (.typeError 302) := by
  have lookups : ∀ key, Json.lookup key (GivenEvent.transaction id hash height created spent).members =
      if "__typename" = key then some (.string "UnshieldedTransaction")
      else if "transaction" = key then some (.ofFields (transactionMembers id hash height))
      else if "createdUtxos" = key then some (.array (created.map GivenUtxo.toJson))
      else if "spentUtxos" = key then some (.array (spent.map GivenUtxo.toJson)) else none := by
    intro key
    simp only [GivenEvent.members, Json.lookup]
  have info : ∀ key, Json.lookup key (transactionMembers id hash height) =
      if "id" = key then some id.toJson else if "hash" = key then some (.string hash)
      else if "block" = key then some (.ofFields (blockMembers height)) else none := by
    intro key
    simp only [transactionMembers, Json.lookup]
  have distinct : ((transactionMembers id hash height).map (·.1)).Nodup := by
    simp [transactionMembers]
  have single : ((blockMembers height).map (·.1)).Nodup := by simp [blockMembers]
  have blockHeight : (Json.ofFields (blockMembers height)).value Json.getInt32 "height" 0 =
      .ok height.toUInt32.toInt32 := by
    rw [Json.value_ofFields _ _ _ single]
    simp [blockMembers, Json.lookup, Json.getInt32]
  have createdRead : (created.map GivenUtxo.toJson).mapM (readCreated throughDouble hash) =
      if created.all (·.outputIndex.isNumber) then
        .ok (created.map (GivenUtxo.createdEvent throughDouble hash))
      else .error (.typeError 302) := by
    rw [List.mapM_map, ← mapM_ite]
    exact congrArg (List.mapM · created) (funext (readCreated_toJson throughDouble hash))
  have spentRead : (spent.map GivenUtxo.toJson).mapM (readSpent throughDouble hash) =
      if spent.all (·.outputIndex.isNumber) then
        .ok (spent.map (GivenUtxo.spentEvent throughDouble))
      else .error (.typeError 302) := by
    rw [List.mapM_map, ← mapM_ite]
    exact congrArg (List.mapM · spent) (funext (readSpent_toJson throughDouble hash))
  simp only [readMessage, readTransaction, member?_toJson, Json.valueString, Json.valueInt32,
    Json.value_ofFields _ _ _ (GivenEvent.distinct _), lookups, String.reduceEq, if_true, if_false,
    Json.getString, ok_bind, Json.value_ofFields _ _ _ distinct, info, blockHeight,
    Given.getInt32_toJson, Json.elements, createdRead, spentRead, readable]
  rw [if_neg (by simp)]
  by_cases hid : id.isNumber <;> by_cases hcreated : created.all (·.outputIndex.isNumber) <;>
    by_cases hspent : spent.all (·.outputIndex.isNumber) <;>
    simp only [hid, hcreated, hspent] <;> rfl

end Read

/-! ## One number -/

/-- An identifier is read in 32 bits and then widened, with its sign. -/
def Given.FitsInt (given : Given) : Prop :=
  given.isNumber = true ∧ ∀ n, given.value = some n → n < 2 ^ 31 ∨ 2 ^ 64 - 2 ^ 31 ≤ n

/-- A number has to pass a double; a text does not. -/
def Given.FitsDouble (given : Given) : Prop :=
  given.isNumber = true → ∀ n, given.value = some n → Fits n

theorem Given.toInt_asInt32 {given : Given} {n : Nat} (number : given.isNumber = true)
    (value : given.value = some n) : given.asInt32.toInt = (n : Int).bmod (2 ^ 32) := by
  cases given with
  | text s => cases number
  | unsigned x =>
    cases value
    have signed : (unsigned x).asInt32.toInt = (x.toUInt32.toNat : Int).bmod (2 ^ 32) :=
      BitVec.toInt_eq_toNat_bmod _
    rw [signed, UInt64.toNat_toUInt32, Int.bmod_def, Int.bmod_def]
    omega
  | integer x =>
    rw [Given.value] at value
    split at value
    · rename_i positive
      cases value
      rw [Int.toNat_of_nonneg positive]
      exact Int64.toInt_toInt32 x
    · cases value

theorem toNat_widened (x : Int32) : (x.toInt64.toUInt64.toNat : Int) = x.toInt % 2 ^ 64 := by
  have signed : x.toInt64.toInt = (x.toInt64.toUInt64.toNat : Int).bmod (2 ^ 64) :=
    BitVec.toInt_eq_toNat_bmod _
  have range := x.toInt64.toUInt64.toNat_lt
  rw [Int32.toInt_toInt64, Int.bmod_def] at signed
  omega

theorem Given.widened_eq_iff {given : Given} {n : Nat} (number : given.isNumber = true)
    (value : given.value = some n) (range : n < 2 ^ 64) :
    given.asInt32.toInt64.toUInt64.toNat = n ↔ given.FitsInt := by
  have widened := toNat_widened given.asInt32
  rw [Given.toInt_asInt32 number value, Int.bmod_def] at widened
  have fits : given.FitsInt ↔ n < 2 ^ 31 ∨ 2 ^ 64 - 2 ^ 31 ≤ n := by
    rw [Given.FitsInt, value]
    simp [number]
  rw [fits]
  omega

theorem Given.toNat_index {given : Given} {n : Nat} (number : given.isNumber = true)
    (value : given.value = some n) (range : n < 2 ^ 32) : given.asInt32.toUInt32.toNat = n := by
  have signed : given.asInt32.toInt = (given.asInt32.toUInt32.toNat : Int).bmod (2 ^ 32) :=
    BitVec.toInt_eq_toNat_bmod _
  have bound := given.asInt32.toUInt32.toNat_lt
  rw [Given.toInt_asInt32 number value, Int.bmod_def, Int.bmod_def] at signed
  omega

theorem viaDouble_of_fits (undefined : Int → UInt64) {n : Nat} (range : n < 2 ^ 64)
    (h : Fits n) : viaDouble undefined n = UInt64.ofNat n := by
  have kept : Binary64.round n = n := round_eq_self_iff.mpr h
  rw [viaDouble, Int.toNat_natCast, kept, if_pos ⟨Int.natCast_nonneg n, range⟩]

/-- What a double does not hold comes out as another number, or as zero. -/
theorem toNat_viaDouble_ne {n : Nat} (h : ¬Fits n) : (viaDouble (fun _ => 0) n).toNat ≠ n := by
  rw [viaDouble, Int.toNat_natCast]
  split
  · rename_i range
    rw [UInt64.toNat_ofNat_of_lt' range.2]
    exact fun kept => h (round_eq_self_iff.mp kept)
  · rintro rfl
    exact h (fits_of_lt (by decide))

theorem parseAmount_toJson {throughDouble : ThroughDouble} {given : Given} {n : Nat}
    (value : given.value = some n) (range : n < 2 ^ 64) :
    parseAmount throughDouble given.toJson =
      if given.isNumber then throughDouble n else UInt64.ofNat n := by
  cases given with
  | unsigned x =>
    cases value
    rw [Given.toJson, parseAmount]
    rfl
  | integer x =>
    rw [Given.value] at value
    split at value
    · rename_i positive
      cases value
      rw [Given.toJson, parseAmount, Int.toNat_of_nonneg positive]
      rfl
    · cases value
  | text s =>
    rw [Given.value] at value
    split at value
    · rename_i digits
      cases value
      rw [Bool.and_eq_true, Bool.not_eq_true', List.isEmpty_eq_false_iff, List.all_eq_true] at digits
      have read : stoull 10 (s.toList ++ []) = _ := stoull_digits digits.2 digits.1 rfl
      rw [List.append_nil, if_neg (Nat.not_le.mpr range)] at read
      rw [Given.toJson, parseAmount, read]
      rfl
    · cases value

theorem amount_of_fits {given : Given} {n : Nat} (value : given.value = some n)
    (range : n < 2 ^ 64) (fits : given.FitsDouble) (undefined : Int → UInt64) :
    parseAmount (viaDouble undefined) given.toJson = UInt64.ofNat n := by
  rw [parseAmount_toJson value range]
  split
  · rename_i number
    exact viaDouble_of_fits undefined range (fits number n value)
  · rfl

theorem fits_of_amount {given : Given} {n : Nat} (value : given.value = some n)
    (range : n < 2 ^ 64)
    (h : (parseAmount (viaDouble fun _ => 0) given.toJson).toNat = n) : given.FitsDouble := by
  intro number m hm
  rw [value] at hm
  cases hm
  rw [parseAmount_toJson value range, if_pos number] at h
  by_contra lost
  exact toNat_viaDouble_ne lost h

/-! ## Events that are carried -/

/-- An output of an event shows the numbers that were given. -/
structure GivenUtxo.Carried (given : GivenUtxo) (evt : UtxoEvent) : Prop where
  outputIndex : given.outputIndex.value = some evt.outputIndex.toNat
  amount : given.value.value = some evt.amount.toNat
  ctime : ∃ n, given.ctime.value = some n ∧ evt.ctime.toInt = n

/-- The hash of a created output is that of the transaction with the index. -/
def GivenUtxo.Named (txHash : String) (given : GivenUtxo) (evt : UtxoEvent) : Prop :=
  ∃ n, given.outputIndex.value = some n ∧ evt.utxoHash = txHash ++ ":" ++ toString n

/-- What is called back shows the numbers given, and with `named` the hashes of outputs
show the indices. -/
def GivenEvent.Carried (named : Bool) : GivenEvent → Message → Prop
  | .progress highest, .progress highestId => highest.value = some highestId.toNat
  | .transaction id hash _ created spent, .transaction evt =>
    id.value = some evt.transactionId.toNat ∧
      List.Forall₂ (fun given utxo =>
        given.Carried utxo ∧ (named = true → given.Named hash utxo)) created evt.created ∧
      List.Forall₂ GivenUtxo.Carried spent evt.spent
  | _, _ => False

structure GivenUtxo.InRange (given : GivenUtxo) : Prop where
  outputIndex : given.outputIndex.Below (2 ^ 32)
  amount : given.value.Below (2 ^ 64)
  ctime : given.ctime.Below (2 ^ 64)

def GivenEvent.InRange : GivenEvent → Prop
  | .progress highest => highest.Below (2 ^ 64)
  | .transaction id _ _ created spent =>
    id.Below (2 ^ 64) ∧ ∀ given ∈ created ++ spent, given.InRange

/-- Something is called back of an event unless it has no outputs. -/
def GivenEvent.HasNews : GivenEvent → Prop
  | .progress _ => True
  | .transaction _ _ _ created spent => created ++ spent ≠ []

def GivenEvent.SoundAmounts : GivenEvent → Prop
  | .progress _ => True
  | .transaction _ _ _ created spent => ∀ given ∈ created ++ spent, given.value.Below (2 ^ 64)

/-- However a double is converted out of range: numbers in range are carried, and an event
with another amount is not called back. -/
def NumbersRight (named : Bool) (event : GivenEvent) : Prop :=
  ∀ undefined : Int → UInt64,
    (event.InRange → event.HasNews →
      ∃ message, delivered (viaDouble undefined) event.toJson = some message ∧
        event.Carried named message) ∧
    (¬event.SoundAmounts → delivered (viaDouble undefined) event.toJson = none)

/-- What an output in range has to be like. -/
structure GivenUtxo.Readable (given : GivenUtxo) : Prop where
  outputIndex : given.outputIndex.isNumber = true
  amount : given.value.FitsDouble
  ctime : given.ctime.FitsDouble
  past : ∀ n, given.ctime.value = some n → n < 2 ^ 63

/-- What an event has to be like. -/
def GivenEvent.Readable (named : Bool) : GivenEvent → Prop
  | .progress highest => highest.Below (2 ^ 64) → highest.FitsInt
  | .transaction id hash height created spent =>
    (GivenEvent.InRange (.transaction id hash height created spent) → created ++ spent ≠ [] →
      id.FitsInt ∧ (∀ given ∈ created ++ spent, given.Readable) ∧
        (named = true → ∀ given ∈ created, given.outputIndex.Below (2 ^ 31))) ∧
    (¬GivenEvent.SoundAmounts (.transaction id hash height created spent) →
      id.isNumber = false ∨ ∃ given ∈ created ++ spent, given.outputIndex.isNumber = false)

theorem carried_of_readable {given : GivenUtxo} (range : given.InRange) (h : given.Readable)
    (undefined : Int → UInt64) (utxoHash txHash : String) (isSpent : Bool) :
    given.Carried (given.event (viaDouble undefined) utxoHash txHash isSpent) := by
  obtain ⟨index, hindex, indexRange⟩ := range.outputIndex
  obtain ⟨amount, hamount, amountRange⟩ := range.amount
  obtain ⟨ctime, hctime, ctimeRange⟩ := range.ctime
  refine ⟨?_, ?_, ctime, hctime, ?_⟩
  · rw [hindex, GivenUtxo.event, Given.toNat_index h.outputIndex hindex indexRange]
  · rw [hamount, GivenUtxo.event, amount_of_fits hamount amountRange h.amount,
      UInt64.toNat_ofNat_of_lt' amountRange]
  · have past := h.past ctime hctime
    have signed : (UInt64.ofNat ctime).toInt64.toInt =
        ((UInt64.ofNat ctime).toNat : Int).bmod (2 ^ 64) := BitVec.toInt_eq_toNat_bmod _
    rw [GivenUtxo.event, amount_of_fits hctime ctimeRange h.ctime, signed,
      UInt64.toNat_ofNat_of_lt' ctimeRange, Int.bmod_def]
    omega

theorem readable_of_carried {given : GivenUtxo} (range : given.InRange)
    (number : given.outputIndex.isNumber = true) {utxoHash txHash : String} {isSpent : Bool}
    (h : given.Carried (given.event (viaDouble fun _ => 0) utxoHash txHash isSpent)) :
    given.Readable := by
  obtain ⟨amount, hamount, amountRange⟩ := range.amount
  obtain ⟨ctime, hctime, ctimeRange⟩ := range.ctime
  obtain ⟨-, amountCarried, time, htime, timeCarried⟩ := h
  rw [hamount, GivenUtxo.event, Option.some.injEq] at amountCarried
  rw [hctime, Option.some.injEq] at htime
  rw [GivenUtxo.event, ← htime] at timeCarried
  have signed : (parseAmount (viaDouble fun _ => 0) given.ctime.toJson).toInt64.toInt =
      ((parseAmount (viaDouble fun _ => 0) given.ctime.toJson).toNat : Int).bmod (2 ^ 64) :=
    BitVec.toInt_eq_toNat_bmod _
  have bound := (parseAmount (viaDouble fun _ => 0) given.ctime.toJson).toNat_lt
  rw [signed, Int.bmod_def] at timeCarried
  refine ⟨number, fits_of_amount hamount amountRange amountCarried.symm,
    fits_of_amount hctime ctimeRange (by omega), ?_⟩
  intro n hn
  rw [hctime, Option.some.injEq] at hn
  omega

/-- A negative index is no index. -/
theorem named_iff {given : GivenUtxo} (number : given.outputIndex.isNumber = true)
    (range : given.outputIndex.Below (2 ^ 32)) (throughDouble : ThroughDouble) (txHash : String) :
    given.Named txHash (given.createdEvent throughDouble txHash) ↔
      given.outputIndex.Below (2 ^ 31) := by
  obtain ⟨index, hindex, indexRange⟩ := range
  have read := Given.toInt_asInt32 number hindex
  rw [Int.bmod_def] at read
  have shown : given.Named txHash (given.createdEvent throughDouble txHash) ↔
      toString given.outputIndex.asInt32.toInt = toString index := by
    rw [GivenUtxo.Named, hindex]
    simp [GivenUtxo.createdEvent, GivenUtxo.event]
  have below : given.outputIndex.Below (2 ^ 31) ↔ index < 2 ^ 31 := by
    rw [Given.Below, hindex]
    simp
  rw [shown, below]
  constructor
  · intro h
    by_contra high
    obtain ⟨k, hk⟩ : ∃ k, given.outputIndex.asInt32.toInt = Int.negSucc k :=
      ⟨(-given.outputIndex.asInt32.toInt - 1).toNat, by omega⟩
    rw [hk] at h
    have digits : '-' ∈ (Nat.repr index).toList := by
      rw [← show toString index = Nat.repr index from rfl, ← h]
      change '-' ∈ ("-" ++ Nat.repr (k + 1)).toList
      rw [String.toList_append]
      exact List.mem_append_left _ (by decide)
    rw [show (Nat.repr index).toList = Nat.toDigits 10 index from String.toList_ofList] at digits
    exact absurd (Nat.isDigit_of_mem_toDigits (by decide) (by decide) digits) (by decide)
  · intro small
    have positive : given.outputIndex.asInt32.toInt = (index : Int) := by omega
    rw [positive]
    rfl

/-! ## Events -/

theorem delivered_progress (throughDouble : ThroughDouble) (highest : Given) :
    delivered throughDouble (GivenEvent.progress highest).toJson =
      if highest.isNumber then some (.progress highest.asInt32.toInt64.toUInt64) else none := by
  rw [delivered, readMessage_progress]
  cases highest.isNumber <;> rfl

theorem delivered_transaction (throughDouble : ThroughDouble) (id : Given) (hash : String)
    (height : UInt64) (created spent : List GivenUtxo) :
    delivered throughDouble (GivenEvent.transaction id hash height created spent).toJson =
      if readable id created spent = true ∧ created ++ spent ≠ [] then
        some (.transaction (transactionEvent throughDouble id hash created spent))
      else none := by
  rw [delivered, readMessage_transaction]
  cases readable id created spent with
  | false => simp
  | true => cases created <;> cases spent <;> rfl

theorem readable_iff {id : Given} {created spent : List GivenUtxo} :
    readable id created spent = true ↔ id.isNumber = true ∧
      ∀ given ∈ created ++ spent, given.outputIndex.isNumber = true := by
  rw [List.forall_mem_append]
  simp [readable, and_assoc]

theorem numbersRight_progress (named : Bool) (highest : Given) :
    NumbersRight named (.progress highest) ↔ (GivenEvent.progress highest).Readable named := by
  constructor
  · intro h range
    obtain ⟨n, hn, bound⟩ := range
    obtain ⟨message, hmessage, hcarried⟩ := (h fun _ => 0).1 ⟨n, hn, bound⟩ trivial
    rw [delivered_progress] at hmessage
    split at hmessage
    · rename_i number
      cases hmessage
      rw [GivenEvent.Carried, hn, Option.some.injEq] at hcarried
      exact (Given.widened_eq_iff number hn bound).mp hcarried.symm
    · cases hmessage
  · intro h undefined
    refine ⟨fun range _ => ?_, fun unsound => absurd trivial unsound⟩
    obtain ⟨n, hn, bound⟩ := range
    have fits := h ⟨n, hn, bound⟩
    refine ⟨_, by rw [delivered_progress, if_pos fits.1], ?_⟩
    rw [GivenEvent.Carried, hn, (Given.widened_eq_iff fits.1 hn bound).mpr fits]

theorem carried_transaction (named : Bool) (throughDouble : ThroughDouble) (id : Given)
    (hash : String) (height : UInt64) (created spent : List GivenUtxo) :
    GivenEvent.Carried named (.transaction id hash height created spent)
        (.transaction (transactionEvent throughDouble id hash created spent)) ↔
      id.value = some id.asInt32.toInt64.toUInt64.toNat ∧
        (∀ given ∈ created, given.Carried (given.createdEvent throughDouble hash) ∧
          (named = true → given.Named hash (given.createdEvent throughDouble hash))) ∧
        ∀ given ∈ spent, given.Carried (given.spentEvent throughDouble) := by
  rw [GivenEvent.Carried, transactionEvent, List.forall₂_map_right_iff, List.forall₂_map_right_iff,
    List.forall₂_same, List.forall₂_same]

theorem numbersRight_transaction (named : Bool) (id : Given) (hash : String) (height : UInt64)
    (created spent : List GivenUtxo) :
    NumbersRight named (.transaction id hash height created spent) ↔
      (GivenEvent.transaction id hash height created spent).Readable named := by
  constructor
  · intro h
    obtain ⟨carries, rejects⟩ := h fun _ => 0
    refine ⟨fun range news => ?_, fun unsound => ?_⟩
    · obtain ⟨message, hmessage, hcarried⟩ := carries range news
      rw [delivered_transaction] at hmessage
      split at hmessage
      · rename_i shown
        cases hmessage
        obtain ⟨idNumber, indexNumbers⟩ := readable_iff.mp shown.1
        obtain ⟨⟨n, hn, bound⟩, outputs⟩ := range
        obtain ⟨idCarried, createdCarried, spentCarried⟩ :=
          (carried_transaction named _ id hash height created spent).mp hcarried
        rw [hn, Option.some.injEq] at idCarried
        refine ⟨(Given.widened_eq_iff idNumber hn bound).mp idCarried.symm, ?_, ?_⟩
        · intro given hgiven
          rcases List.mem_append.mp hgiven with hcreated | hspent
          · exact readable_of_carried (outputs given hgiven) (indexNumbers given hgiven)
              (createdCarried given hcreated).1
          · exact readable_of_carried (outputs given hgiven) (indexNumbers given hgiven)
              (spentCarried given hspent)
        · intro hnamed given hcreated
          have hgiven := List.mem_append_left spent hcreated
          exact (named_iff (indexNumbers given hgiven) (outputs given hgiven).outputIndex _ hash).mp
            ((createdCarried given hcreated).2 hnamed)
      · cases hmessage
    · have nothing := rejects unsound
      rw [delivered_transaction] at nothing
      split at nothing
      · cases nothing
      · rename_i hidden
        have news : created ++ spent ≠ [] := by
          intro none
          apply unsound
          rw [GivenEvent.SoundAmounts, none]
          exact nofun
        by_contra texts
        rw [not_or, Bool.not_eq_false, not_exists] at texts
        refine hidden ⟨readable_iff.mpr ⟨texts.1, fun given hgiven => ?_⟩, news⟩
        rw [← Bool.not_eq_false]
        exact fun text => texts.2 given ⟨hgiven, text⟩
  · rintro ⟨carries, rejects⟩ undefined
    refine ⟨fun range news => ?_, fun unsound => ?_⟩
    · obtain ⟨fits, outputs, hashes⟩ := carries range news
      have shown : readable id created spent = true :=
        readable_iff.mpr ⟨fits.1, fun given hgiven => (outputs given hgiven).outputIndex⟩
      refine ⟨_, by rw [delivered_transaction, if_pos ⟨shown, news⟩], ?_⟩
      obtain ⟨⟨n, hn, bound⟩, inRange⟩ := range
      rw [carried_transaction, hn, (Given.widened_eq_iff fits.1 hn bound).mpr fits]
      refine ⟨rfl, ?_, ?_⟩
      · intro given hcreated
        have hgiven := List.mem_append_left spent hcreated
        refine ⟨carried_of_readable (inRange given hgiven) (outputs given hgiven) undefined _ _ _, ?_⟩
        intro hnamed
        exact (named_iff (outputs given hgiven).outputIndex (inRange given hgiven).outputIndex _
          hash).mpr (hashes hnamed given hcreated)
      · intro given hspent
        have hgiven := List.mem_append_right created hspent
        exact carried_of_readable (inRange given hgiven) (outputs given hgiven) undefined _ _ _
    · rw [delivered_transaction, if_neg]
      rintro ⟨shown, -⟩
      obtain ⟨idNumber, indexNumbers⟩ := readable_iff.mp shown
      rcases rejects unsound with text | ⟨given, hgiven, text⟩
      · rw [idNumber] at text
        cases text
      · rw [indexNumbers given hgiven] at text
        cases text

/-- **When the numbers of an event are right.** Identifiers have to be numbers that 32 bits
keep, indices numbers; amounts and times that are numbers have to pass a double, and times
have to be below 2^63. An event with another amount is called back all the same, unless an
identifier or an index of it is a text. -/
theorem numbersRight_iff (named : Bool) (event : GivenEvent) :
    NumbersRight named event ↔ event.Readable named := by
  cases event with
  | progress highest => exact numbersRight_progress named highest
  | transaction id hash height created spent =>
    exact numbersRight_transaction named id hash height created spent

/-! ## Events that are not -/

def oneOutput (amount ctime : Given) : GivenUtxo where
  owner := "mn_addr"
  value := amount
  outputIndex := .unsigned 0
  tokenType := "NIGHT"
  ctime := ctime
  initialNonce := ""
  registeredForDustGeneration := false
  createdId := .unsigned 7
  createdHash := "0xaa"

/-- An identifier from 2^31 on, one that is a text, an amount that no double holds, and a
text that is no number: none of it goes well. -/
theorem not_numbersRight_samples :
    ¬NumbersRight false (.progress (.unsigned 2147483648)) ∧
    ¬NumbersRight false (.progress (.text "7")) ∧
    ¬NumbersRight false (.transaction (.unsigned 7) "0xaa" 1
      [oneOutput (.unsigned 9007199254740993) (.unsigned 0)] []) ∧
    ¬NumbersRight false (.transaction (.unsigned 7) "0xaa" 1
      [oneOutput (.text "twelve") (.unsigned 0)] []) := by
  refine ⟨?_, ?_, ?_, ?_⟩
  · rw [numbersRight_progress]
    intro h
    have := (h ⟨2147483648, rfl, by decide⟩).2 2147483648 rfl
    omega
  · rw [numbersRight_progress]
    intro h
    cases (h ⟨7, by decide +kernel, by decide⟩).1
  · rw [numbersRight_transaction]
    rintro ⟨carries, -⟩
    have range : (oneOutput (.unsigned 9007199254740993) (.unsigned 0)).InRange :=
      ⟨⟨0, rfl, by decide⟩, ⟨9007199254740993, rfl, by decide⟩, ⟨0, rfl, by decide⟩⟩
    have outputs := (carries ⟨⟨7, rfl, by decide⟩, by simpa using range⟩ (by simp)).2.1
    have output := outputs (oneOutput (.unsigned 9007199254740993) (.unsigned 0)) (by simp)
    have held := output.amount rfl 9007199254740993 rfl
    exact absurd held (by decide)
  · rw [numbersRight_transaction]
    rintro ⟨-, rejects⟩
    have unsound : ¬(oneOutput (.text "twelve") (.unsigned 0)).value.Below (2 ^ 64) := by
      rintro ⟨n, hn, -⟩
      have none : (oneOutput (.text "twelve") (.unsigned 0)).value.value = none := by
        decide +kernel
      rw [none] at hn
      cases hn
    rcases rejects (fun sound => unsound (sound _ (by simp))) with text | ⟨given, hgiven, text⟩
    · cases text
    · simp only [List.append_nil, List.mem_singleton] at hgiven
      rw [hgiven] at text
      cases text

end MidnightSdk.Network
