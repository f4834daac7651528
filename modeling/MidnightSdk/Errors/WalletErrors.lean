import MidnightSdk.Library.Stoull
import MidnightSdk.Library.TextSearch

/-!
# Wallet errors as JSON

The nine kinds of wallet errors, the text each is written as, and the reader that
looks for the fields of such a text one by one. What the reader takes for the kind
of an error starts with the quote in front of it, which no kind does.
-/

namespace MidnightSdk.Errors

open Cpp

structure InsufficientFundsError where
  available : UInt64 := 0
  required : UInt64 := 0
  tokenType : List Char := []
  deriving DecidableEq, Repr

structure InvalidCoinHashesError where
  invalidHashes : List (List Char) := []
  deriving DecidableEq, Repr

structure SyncWalletError where
  message : List Char := []
  lastSyncedHeight : UInt64 := 0
  currentHeight : UInt64 := 0
  deriving DecidableEq, Repr

structure NetworkError where
  endpoint : List Char := []
  httpCode : Int32 := 0
  message : List Char := []
  isTimeout : Bool := false
  deriving DecidableEq, Repr

structure ProofError where
  circuitName : List Char := []
  message : List Char := []
  generationTimeMs : UInt64 := 0
  isVerificationFailed : Bool := false
  deriving DecidableEq, Repr

structure InvalidAddressError where
  address : List Char := []
  reason : List Char := []
  deriving DecidableEq, Repr

structure InvalidMnemonicError where
  mnemonic : List Char := []
  reason : List Char := []
  deriving DecidableEq, Repr

structure SerializationError where
  details : List Char := []
  isEncryption : Bool := false
  deriving DecidableEq, Repr

structure EncryptionError where
  operation : List Char := []
  reason : List Char := []
  deriving DecidableEq, Repr

inductive WalletError
  | insufficientFunds (e : InsufficientFundsError)
  | invalidCoinHashes (e : InvalidCoinHashesError)
  | syncWallet (e : SyncWalletError)
  | network (e : NetworkError)
  | proof (e : ProofError)
  | invalidAddress (e : InvalidAddressError)
  | invalidMnemonic (e : InvalidMnemonicError)
  | serialization (e : SerializationError)
  | encryption (e : EncryptionError)
  deriving DecidableEq, Repr

/-! ## Writing -/

def escapeChar (c : Char) : List Char :=
  if c = '"' then ['\\', '"']
  else if c = '\\' then ['\\', '\\']
  else if c.toNat = 8 then ['\\', 'b']
  else if c.toNat = 12 then ['\\', 'f']
  else if c = '\n' then ['\\', 'n']
  else if c = '\r' then ['\\', 'r']
  else if c = '\t' then ['\\', 't']
  else [c]

/-- `escape_json_string` -/
def escapeJsonString (s : List Char) : List Char := s.flatMap escapeChar

/-- A field of each of the types that `operator<<` is used at. -/
def stringField (name : String) (value : List Char) : List Char :=
  ['"'] ++ name.toList ++ "\":\"".toList ++ escapeJsonString value ++ ['"']

def numberField (name : String) (value : Int) : List Char :=
  ['"'] ++ name.toList ++ "\":".toList ++ (toString value).toList

def boolField (name : String) (value : Bool) : List Char :=
  ['"'] ++ name.toList ++ "\":".toList ++ (if value then "true" else "false").toList

def hashesField (hashes : List (List Char)) : List Char :=
  "\"invalid_hashes\":[".toList ++
    [','].intercalate (hashes.map fun hash => ['"'] ++ escapeJsonString hash ++ ['"']) ++ [']']

/-- The fields of an error behind its type. -/
def typeAndFields : WalletError → String × List (List Char)
  | .insufficientFunds e => ("InsufficientFunds",
    [numberField "available" e.available.toNat, numberField "required" e.required.toNat,
      stringField "token_type" e.tokenType])
  | .invalidCoinHashes e => ("InvalidCoinHashes", [hashesField e.invalidHashes])
  | .syncWallet e => ("SyncWallet",
    [stringField "message" e.message, numberField "last_synced_height" e.lastSyncedHeight.toNat,
      numberField "current_height" e.currentHeight.toNat])
  | .network e => ("Network",
    [stringField "endpoint" e.endpoint, numberField "http_code" e.httpCode.toInt,
      stringField "message" e.message, boolField "is_timeout" e.isTimeout])
  | .proof e => ("Proof",
    [stringField "circuit_name" e.circuitName, stringField "message" e.message,
      numberField "generation_time_ms" e.generationTimeMs.toNat,
      boolField "is_verification_failed" e.isVerificationFailed])
  | .invalidAddress e => ("InvalidAddress",
    [stringField "address" e.address, stringField "reason" e.reason])
  | .invalidMnemonic e => ("InvalidMnemonic",
    [stringField "mnemonic" e.mnemonic, stringField "reason" e.reason])
  | .serialization e => ("Serialization",
    [stringField "details" e.details, boolField "is_encryption" e.isEncryption])
  | .encryption e => ("Encryption",
    [stringField "operation" e.operation, stringField "reason" e.reason])

def toJson (error : WalletError) : List Char :=
  let (type, fields) := typeAndFields error
  ['\x7b'] ++ [','].intercalate (stringField "type" type.toList :: fields) ++ ['\x7d']

/-! ## Reading -/

/-- `s.find(pattern, start)` -/
def findFrom (pattern : String) (s : List Char) (start : Nat) : Option Nat :=
  (TextSearch.find pattern.toList (s.drop start)).map (· + start)

/-- `s.substr(start, stop - start)`, a stop that is not found being beyond the end. -/
def between (s : List Char) (start : Nat) (stop : Option Nat) : Throws (List Char) :=
  if s.length < start then .error (.outOfRange "basic_string::substr")
  else match stop with
    | none => .ok (s.drop start)
    | some stop => .ok (if stop < start then s.drop start else (s.drop start).take (stop - start))

/-- A text field, from `skip` behind the place of `pattern` to the next quote. -/
def readText (s : List Char) (pattern : String) (skip : Nat) (default : List Char) :
    Throws (List Char) :=
  match findFrom pattern s 0 with
  | none => .ok default
  | some start => between s (start + skip) (findFrom "\"" s (start + skip))

/-- A number field, from `skip` behind the place of `pattern` to the next comma from there. -/
def readNumber {α : Type} (convert : List Char → Throws α) (s : List Char) (pattern : String)
    (skip : Nat) (default : α) : Throws α :=
  match findFrom pattern s 0 with
  | none => .ok default
  | some start => do convert (← between s (start + skip) (findFrom "," s start))

/-- What is taken for the type: from the seventh character behind the place of the pattern. -/
def typeOf (s : List Char) : Throws (Option (List Char)) :=
  match findFrom "\"type\":\"" s 0 with
  | none => .ok none
  | some start => do return some (← between s (start + 7) (findFrom "\"" s (start + 8)))

def readInsufficientFunds (s : List Char) : Throws InsufficientFundsError := do
  let available ← readNumber (Stoull.stoull 10) s "\"available\":" 11 0
  let required ← readNumber (Stoull.stoull 10) s "\"required\":" 11 0
  let tokenType ← readText s "\"token_type\":\"" 14 []
  return { available, required, tokenType }

def readSyncWallet (s : List Char) : Throws SyncWalletError := do
  return { message := ← readText s "\"message\":\"" 11 [] }

def readNetwork (s : List Char) : Throws NetworkError := do
  let endpoint ← readText s "\"endpoint\":\"" 13 []
  let httpCode ← readNumber (Except.map Int32.ofInt <| Stoull.stoi ·) s "\"http_code\":" 12 0
  let message ← readText s "\"message\":\"" 11 []
  return { endpoint, httpCode, message }

def readProof (s : List Char) : Throws ProofError := do
  return { circuitName := ← readText s "\"circuit_name\":\"" 16 [] }

def readInvalidAddress (s : List Char) : Throws InvalidAddressError := do
  let address ← readText s "\"address\":\"" 11 []
  let reason ← readText s "\"reason\":\"" 10 []
  return { address, reason }

def readInvalidMnemonic (s : List Char) : Throws InvalidMnemonicError := do
  return { reason := ← readText s "\"reason\":\"" 10 [] }

def readSerialization (s : List Char) : Throws SerializationError := do
  return { details := ← readText s "\"details\":\"" 11 [] }

def readEncryption (s : List Char) : Throws EncryptionError := do
  let operation ← readText s "\"operation\":\"" 13 []
  let reason ← readText s "\"reason\":\"" 10 []
  return { operation, reason }

/-- The branches of `from_json`; invalid coin hashes have none. -/
def readAs (type s : List Char) : Throws (Option WalletError) :=
  if type = "InsufficientFunds".toList then
    return some (.insufficientFunds (← readInsufficientFunds s))
  else if type = "SyncWallet".toList then return some (.syncWallet (← readSyncWallet s))
  else if type = "Network".toList then return some (.network (← readNetwork s))
  else if type = "Proof".toList then return some (.proof (← readProof s))
  else if type = "InvalidAddress".toList then
    return some (.invalidAddress (← readInvalidAddress s))
  else if type = "InvalidMnemonic".toList then
    return some (.invalidMnemonic (← readInvalidMnemonic s))
  else if type = "Serialization".toList then return some (.serialization (← readSerialization s))
  else if type = "Encryption".toList then return some (.encryption (← readEncryption s))
  else return none

/-- `from_json`; every exception is caught. -/
def fromJson (jsonStr : List Char) : Option WalletError :=
  let parsed := do
    match ← typeOf jsonStr with
    | none => return none
    | some type => readAs type jsonStr
  match parsed with
  | .ok error => error
  | .error _ => none

/-! ## What is read -/

/-- What is taken for a type starts with the quote of the pattern it was found by. -/
theorem head_typeOf {s type : List Char} (h : typeOf s = .ok (some type)) :
    type.head? = some '"' := by
  rw [typeOf] at h
  cases found : findFrom "\"type\":\"" s 0 with
  | none =>
    rw [found] at h
    cases h
  | some start =>
    rw [found] at h
    obtain ⟨text, htext, same⟩ := bind_eq_ok.mp h
    cases same
    obtain ⟨pos, hpos, rfl⟩ := Option.map_eq_some_iff.mp found
    obtain ⟨rest, hrest⟩ := TextSearch.prefix_of_find hpos
    have behind : s.drop (pos + 0 + 7) = '"' :: rest := by
      rw [List.drop_zero] at hrest
      rw [Nat.add_zero, ← List.drop_drop, ← hrest]
      rfl
    have start_lt : ∀ stop, findFrom "\"" s (pos + 0 + 8) = some stop → pos + 0 + 7 < stop := by
      intro stop hstop
      obtain ⟨further, -, rfl⟩ := Option.map_eq_some_iff.mp hstop
      omega
    unfold between at htext
    split at htext
    · cases htext
    · cases hstop : findFrom "\"" s (pos + 0 + 8) with
      | none =>
        rw [hstop, behind] at htext
        cases htext
        rfl
      | some stop =>
        have later := start_lt stop hstop
        rw [hstop, behind] at htext
        simp only [if_neg (Nat.not_lt.mpr later.le)] at htext
        cases htext
        obtain ⟨count, hcount⟩ : ∃ count, stop - (pos + 0 + 7) = count + 1 :=
          ⟨stop - (pos + 0 + 7) - 1, by omega⟩
        rw [hcount, List.take_succ_cons, List.head?_cons]

/-- No branch is for a type that starts with a quote. -/
theorem readAs_quote {type : List Char} (h : type.head? = some '"') (s : List Char) :
    readAs type s = .ok none := by
  have other : ∀ kind : List Char, kind.head? ≠ some '"' → type ≠ kind := by
    rintro kind hkind rfl
    exact hkind h
  rw [readAs, if_neg (other _ (by decide)), if_neg (other _ (by decide)),
    if_neg (other _ (by decide)), if_neg (other _ (by decide)), if_neg (other _ (by decide)),
    if_neg (other _ (by decide)), if_neg (other _ (by decide)), if_neg (other _ (by decide))]
  rfl

/-- **Nothing is read** from any text. -/
theorem fromJson_eq_none (text : List Char) : fromJson text = none := by
  rw [fromJson]
  cases found : typeOf text with
  | error e => rfl
  | ok type =>
    cases type with
    | none => rfl
    | some type =>
      change (match readAs type text with
        | .ok error => error
        | .error _ => none) = none
      rw [readAs_quote (head_typeOf found)]

/-- **No error comes back** from the text it is written as. -/
theorem fromJson_toJson_ne (e : WalletError) : fromJson (toJson e) ≠ some e := by
  rw [fromJson_eq_none]
  exact nofun

def insufficientSample : WalletError :=
  .insufficientFunds { available := 1, required := 2, tokenType := "NIGHT".toList }

/-- The text of this error is as it should be, and the reader gives nothing for it. -/
theorem fromJson_insufficientSample :
    toJson insufficientSample = ("\x7b\"type\":\"InsufficientFunds\",\"available\":1," ++
      "\"required\":2,\"token_type\":\"NIGHT\"\x7d").toList ∧
    fromJson (toJson insufficientSample) ≠ some insufficientSample := by
  refine ⟨by decide, ?_⟩
  rw [fromJson_eq_none]
  exact nofun

end MidnightSdk.Errors
