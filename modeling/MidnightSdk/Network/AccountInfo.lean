import MidnightSdk.Codec.ScaleDecoder
import MidnightSdk.Library.Records
import MidnightSdk.Network.SubstrateRpc
import MidnightSdk.Util.HexDecoders

/-!
# The account in the storage

An account is looked up under a key that spells its own bytes, and its record is decoded field by
field. A record that is cut short is told as far as its fields are whole.
-/

namespace MidnightSdk.Network

open ByteReader Codec Cpp HexText Interaction LittleEndian Util

structure AccountInfo where
  nonce : UInt32 := 0
  consumers : UInt32 := 0
  providers : UInt32 := 0
  sufficients : UInt32 := 0
  free : U128 := ⟨0, 0⟩
  reserved : U128 := ⟨0, 0⟩
  frozen : U128 := ⟨0, 0⟩
  deriving DecidableEq, Repr

namespace AccountInfo

/-! ## The record -/

def u32Field (assign : UInt32 → AccountInfo → AccountInfo) : RecordField AccountInfo where
  width := 4
  reader := do
    let v ← ScaleDecoder.decodeU32Le
    return assign v
  set xs := assign (UInt32.ofNat (leValue xs))

def u128Field (assign : U128 → AccountInfo → AccountInfo) : RecordField AccountInfo where
  width := 16
  reader := do
    let v ← ScaleDecoder.decodeU128Le
    return assign v
  set xs := assign ⟨UInt64.ofNat (leValue (xs.take 8)), UInt64.ofNat (leValue (xs.drop 8))⟩

/-- In the order in which they are decoded. -/
def fields : List (RecordField AccountInfo) :=
  [u32Field fun nonce info => { info with nonce },
    u32Field fun consumers info => { info with consumers },
    u32Field fun providers info => { info with providers },
    u32Field fun sufficients info => { info with sufficients },
    u128Field fun free info => { info with free },
    u128Field fun reserved info => { info with reserved },
    u128Field fun frozen info => { info with frozen }]

/-- The bytes of a record. -/
def encode (info : AccountInfo) : List UInt8 :=
  leBytes 4 info.nonce.toNat ++ (leBytes 4 info.consumers.toNat ++
    (leBytes 4 info.providers.toNat ++ (leBytes 4 info.sufficients.toNat ++
      (balance info.free ++ (balance info.reserved ++ balance info.frozen)))))
where
  balance (v : U128) : List UInt8 := leBytes 8 v.lo.toNat ++ leBytes 8 v.hi.toNat

end AccountInfo

namespace SubstrateRpc

/-! ## Where it is -/

/-- `sodium_init` and `crypto_generichash` of 16 bytes. -/
structure KeyLibrary where
  initialises : Bool
  blake2b128 : List UInt8 → Bytes 16

/-- The loop over `clean_hex.substr(i, 2)`; the last piece may be one character. -/
def accountBytes : List Char → Throws (List UInt8)
  | hi :: lo :: rest => do
    let v ← Stoul.stoul16 [hi, lo]
    let bytes ← accountBytes rest
    return v.toUInt8 :: bytes
  | [c] => do
    let v ← Stoul.stoul16 [c]
    return [v.toUInt8]
  | [] => return []

def computeAccountStorageKey (lib : KeyLibrary) (accountIdHex : List Char) :
    Throws (List Char) := do
  if !lib.initialises then
    throw (.runtimeError "libsodium init failed")
  let key := "0x26aa394eea5630e07c48ae0c9558cef7b99d880ec681799c0cf30e8886371da9".toList
  let cleanHex := if accountIdHex.take 2 = ['0', 'x'] then accountIdHex.drop 2 else accountIdHex
  let account ← accountBytes cleanHex
  return key ++ bytesToHex (lib.blake2b128 account).1 ++ cleanHex

/-! ## What is there -/

def getStorage (storageKey : String) : Act String := do
  let result ← rpcCall "state_getStorage" (.array [.string storageKey])
  match result with
  | .null => return ""
  | .string value => return value
  | _ => Action.throw (.runtimeError "Unexpected storage value format")

/-- What a text spells. No text is long enough for more bytes than a vector can hold. -/
def storedBytes (storageHex : String) : Throws Buffer := do
  let bytes ← Codec.hexToBytes storageHex.toList
  if small : bytes.length < 2 ^ 63 then return ⟨bytes, small⟩
  else throw (.lengthError "vector::reserve")

/-- `none` would be a read outside of the bytes. -/
def decodeAccountInfo (storageHex : String) : Throws (Option AccountInfo) := do
  let buf ← storedBytes storageHex
  return readFields buf AccountInfo.fields {} 0

def getAccountInfo (lib : KeyLibrary) (accountIdHex : String) : Act (Option AccountInfo) := do
  let storageKey ← Action.ofExcept (computeAccountStorageKey lib accountIdHex.toList)
  let storageHex ← getStorage (String.ofList storageKey)
  if storageHex = "" ∨ storageHex = "null" then return some {}
  else Action.ofExcept (decodeAccountInfo storageHex)

def getFreeBalance (lib : KeyLibrary) (accountIdHex : String) : Act (Option U128) := do
  let info ← getAccountInfo lib accountIdHex
  return info.map AccountInfo.free

/-! ## What is asked and told -/

/-- The hashes of the names `System` and `Account`. -/
def systemAccount : List UInt8 :=
  [0x26, 0xaa, 0x39, 0x4e, 0xea, 0x56, 0x30, 0xe0, 0x7c, 0x48, 0xae, 0x0c, 0x95, 0x58, 0xce, 0xf7,
    0xb9, 0x9d, 0x88, 0x0e, 0xc6, 0x81, 0x79, 0x9c, 0x0c, 0xf3, 0x0e, 0x88, 0x86, 0x37, 0x1d, 0xa9]

/-- A text for the account: its digits, perhaps behind `0x`. -/
def Names (accountIdHex : String) (account : List UInt8) : Prop :=
  ∃ text, Spells text account ∧
    (accountIdHex.toList = text ∨ accountIdHex.toList = '0' :: 'x' :: text)

/-- The bytes that a text of the node stands for. -/
def Stored (text : String) (bytes : List UInt8) : Prop :=
  bytes.length < 2 ^ 63 ∧ ∃ hex, Spells hex bytes ∧ text.toList = ['0', 'x'] ++ hex

/-- What the client makes of an answer of the node. Fields that are cut short are zeros. -/
inductive AccountTold : Throws Json → Throws (Option AccountInfo) → Prop
  | failed (e : Exception) : AccountTold (.error e) (.error e)
  | absent {answer : Json}
      (missing : answer = .null ∨ answer = .string "" ∨ answer = .string "null") :
      AccountTold (.ok answer) (.ok (some {}))
  | unreadable {text : String} {e : Exception} (present : ¬(text = "" ∨ text = "null"))
      (bad : storedBytes text = .error e) (foreign : ∀ bytes, ¬Stored text bytes) :
      AccountTold (.ok (.string text)) (.error e)
  | read {text : String} {buf : Buffer} {info : AccountInfo}
      (present : ¬(text = "" ∨ text = "null")) (good : storedBytes text = .ok buf)
      (stored : ∀ bytes, Stored text bytes → buf.bytes = bytes)
      (cut : info.encode = padded AccountInfo.fields buf.bytes)
      (whole : ∀ record more, buf.bytes = AccountInfo.encode record ++ more → info = record) :
      AccountTold (.ok (.string text)) (.ok (some info))
  | unexpected {answer : Json} (other : answer ≠ .null ∧ ∀ text, answer ≠ .string text) :
      AccountTold (.ok answer) (.error (.runtimeError "Unexpected storage value format"))

/-- The storage is asked for the account, in one call. -/
inductive LookedUp (lib : KeyLibrary) (account : List UInt8) :
    SubstrateRpc → Seen → Throws (Option AccountInfo) → SubstrateRpc → Prop
  | notStarted (s : SubstrateRpc) (off : lib.initialises = false) :
      LookedUp lib account s [] (.error (.runtimeError "libsodium init failed")) s
  | asked {s t : SubstrateRpc} {seen : Seen} {storageKey : String} {got : Throws Json}
      {result : Throws (Option AccountInfo)}
      (key : Codec.hexToBytes storageKey.toList =
        .ok (systemAccount ++ ((lib.blake2b128 account).1 ++ account)))
      (call : Made "state_getStorage" (.array [.string storageKey]) s seen got t)
      (told : AccountTold got result) : LookedUp lib account s seen result t

end SubstrateRpc

/-! ## Decoding -/

namespace AccountInfo

theorem fields_sound : ∀ field ∈ fields,
    FixedWidth ScaleDecoder.insufficientData field.reader field.width field.set := by
  have u32 (assign : UInt32 → AccountInfo → AccountInfo) :
      FixedWidth ScaleDecoder.insufficientData (u32Field assign).reader 4 (u32Field assign).set :=
    ScaleDecoder.decodeU32Le_fixed.map assign
  have u128 (assign : U128 → AccountInfo → AccountInfo) :
      FixedWidth ScaleDecoder.insufficientData (u128Field assign).reader 16
        (u128Field assign).set :=
    ScaleDecoder.decodeU128Le_fixed.map assign
  simp only [fields, List.forall_mem_cons, List.not_mem_nil, false_implies, implies_true, and_true]
  exact ⟨u32 _, u32 _, u32 _, u32 _, u128 _, u128 _, u128 _⟩

theorem fields_blank : Blank fields {} := by
  refine ⟨rfl, fun _ => ⟨rfl, fun _ => ⟨rfl, fun _ => ⟨rfl, fun _ => ⟨rfl, fun _ => ⟨rfl, fun _ =>
    ⟨rfl, fun _ => trivial⟩⟩⟩⟩⟩⟩⟩

theorem widths_fields : widths fields = 64 := rfl

theorem encode_length (info : AccountInfo) : info.encode.length = 64 := by
  simp [encode, encode.balance]

/-- Enough bytes begin with a number. -/
theorem exists_leBytes {n : Nat} {bytes : List UInt8} (h : n ≤ bytes.length) :
    ∃ v < 256 ^ n, ∃ rest, bytes = leBytes n v ++ rest ∧ bytes.length = n + rest.length := by
  have front : (bytes.take n).length = n := List.length_take_of_le h
  have bound := leValue_lt (bytes.take n)
  have spelled := leBytes_leValue (bytes.take n)
  rw [front] at bound spelled
  refine ⟨leValue (bytes.take n), bound, bytes.drop n, ?_, ?_⟩
  · rw [spelled, List.take_append_drop]
  · rw [List.length_drop]
    omega

theorem exists_u32 {bytes : List UInt8} (h : 4 ≤ bytes.length) :
    ∃ (v : UInt32) (rest : List UInt8), bytes = leBytes 4 v.toNat ++ rest ∧
      bytes.length = 4 + rest.length := by
  obtain ⟨v, small, rest, rfl, count⟩ := exists_leBytes h
  refine ⟨UInt32.ofNat v, rest, ?_, count⟩
  rw [UInt32.toNat_ofNat', Nat.mod_eq_of_lt (show v < 2 ^ 32 from small)]

theorem exists_u64 {bytes : List UInt8} (h : 8 ≤ bytes.length) :
    ∃ (v : UInt64) (rest : List UInt8), bytes = leBytes 8 v.toNat ++ rest ∧
      bytes.length = 8 + rest.length := by
  obtain ⟨v, small, rest, rfl, count⟩ := exists_leBytes h
  refine ⟨UInt64.ofNat v, rest, ?_, count⟩
  rw [UInt64.toNat_ofNat', Nat.mod_eq_of_lt (show v < 2 ^ 64 from small)]

theorem exists_balance {bytes : List UInt8} (h : 16 ≤ bytes.length) :
    ∃ (v : U128) (rest : List UInt8), bytes = encode.balance v ++ rest ∧
      bytes.length = 16 + rest.length := by
  obtain ⟨lo, behind, rfl, low⟩ := exists_u64 (show 8 ≤ bytes.length by omega)
  obtain ⟨hi, rest, rfl, high⟩ := exists_u64 (show 8 ≤ behind.length by omega)
  refine ⟨⟨lo, hi⟩, rest, ?_, by omega⟩
  rw [encode.balance, List.append_assoc]

/-- Every 64 bytes are a record. -/
theorem exists_encode {bytes : List UInt8} (h : bytes.length = 64) :
    ∃ info : AccountInfo, info.encode = bytes := by
  obtain ⟨nonce, rest, rfl, count⟩ := exists_u32 (show 4 ≤ bytes.length by omega)
  obtain ⟨consumers, rest, rfl, count⟩ := exists_u32 (show 4 ≤ rest.length by omega)
  obtain ⟨providers, rest, rfl, count⟩ := exists_u32 (show 4 ≤ rest.length by omega)
  obtain ⟨sufficients, rest, rfl, count⟩ := exists_u32 (show 4 ≤ rest.length by omega)
  obtain ⟨free, rest, rfl, count⟩ := exists_balance (show 16 ≤ rest.length by omega)
  obtain ⟨reserved, rest, rfl, count⟩ := exists_balance (show 16 ≤ rest.length by omega)
  obtain ⟨frozen, rest, rfl, count⟩ := exists_balance (show 16 ≤ rest.length by omega)
  have last : rest = [] := List.eq_nil_of_length_eq_zero (by omega)
  refine ⟨⟨nonce, consumers, providers, sufficients, free, reserved, frozen⟩, ?_⟩
  rw [encode, last, List.append_nil]

theorem balance_length (v : U128) : (encode.balance v).length = 16 := by
  rw [encode.balance, List.length_append, leBytes_length, leBytes_length]

theorem set_u32 (assign : UInt32 → AccountInfo → AccountInfo) (v : UInt32) :
    (u32Field assign).set (leBytes 4 v.toNat) = assign v := by
  change assign (UInt32.ofNat (leValue (leBytes 4 v.toNat))) = assign v
  rw [leValue_leBytes_of_lt v.toNat_lt, UInt32.ofNat_toNat]

theorem set_u128 (assign : U128 → AccountInfo → AccountInfo) (v : U128) :
    (u128Field assign).set (encode.balance v) = assign v := by
  have low : (encode.balance v).take 8 = leBytes 8 v.lo.toNat :=
    List.take_left' (leBytes_length 8 v.lo.toNat)
  have high : (encode.balance v).drop 8 = leBytes 8 v.hi.toNat :=
    List.drop_left' (leBytes_length 8 v.lo.toNat)
  change assign ⟨UInt64.ofNat (leValue ((encode.balance v).take 8)),
    UInt64.ofNat (leValue ((encode.balance v).drop 8))⟩ = assign v
  rw [low, high, leValue_leBytes_of_lt v.lo.toNat_lt, leValue_leBytes_of_lt v.hi.toNat_lt,
    UInt64.ofNat_toNat, UInt64.ofNat_toNat]

theorem setAll_encode (info : AccountInfo) : setAll fields info.encode {} = info := by
  have last : encode.balance info.frozen = encode.balance info.frozen ++ [] :=
    (List.append_nil _).symm
  rw [encode, last, fields, setAll_append (leBytes_length 4 _), setAll_append (leBytes_length 4 _),
    setAll_append (leBytes_length 4 _), setAll_append (leBytes_length 4 _),
    setAll_append (balance_length _), setAll_append (balance_length _),
    setAll_append (balance_length _)]
  rw [set_u32, set_u32, set_u32, set_u32, set_u128, set_u128, set_u128]
  rfl

theorem encode_setAll {bytes : List UInt8} (h : bytes.length = 64) :
    (setAll fields bytes {}).encode = bytes := by
  obtain ⟨info, rfl⟩ := exists_encode h
  rw [setAll_encode]

end AccountInfo

namespace SubstrateRpc

theorem hexToBytes_led {hex : List Char} {bytes : List UInt8} (h : Spells hex bytes) :
    Codec.hexToBytes (['0', 'x'] ++ hex) = .ok bytes := by
  have count := h.length
  have bare := @stripHexPrefix_digits ['0', 'x'] _ (by simp) h.mem_digits
  rw [Codec.hexToBytes, bare, if_neg (by omega), stoulPairs_spells h]

theorem Stored.storedBytes {text : String} {bytes : List UInt8} (h : Stored text bytes) :
    storedBytes text = .ok ⟨bytes, h.1⟩ := by
  have reads : Codec.hexToBytes text.toList = .ok bytes := by
    obtain ⟨-, hex, spelled, led⟩ := h
    rw [led, hexToBytes_led spelled]
  rw [SubstrateRpc.storedBytes, reads]
  exact dif_pos h.1

/-- Bytes that begin with a record are read as that record; of others the missing fields are
zeros. -/
theorem decodeAccountInfo_read {text : String} {buf : Buffer} (good : storedBytes text = .ok buf) :
    ∃ info, decodeAccountInfo text = .ok (some info) ∧
      info.encode = padded AccountInfo.fields buf.bytes ∧
      ∀ record more, buf.bytes = AccountInfo.encode record ++ more → info = record := by
  have read := readFields_eq AccountInfo.fields_sound AccountInfo.fields_blank
    (show (0 : UInt64).toNat ≤ buf.bytes.length from Nat.zero_le _)
  refine ⟨setAll AccountInfo.fields (padded AccountInfo.fields buf.bytes) {}, ?_, ?_, ?_⟩
  · rw [decodeAccountInfo, good]
    exact congrArg Except.ok read
  · exact AccountInfo.encode_setAll (padded_length _ _)
  · intro record more split
    have size := AccountInfo.encode_length record
    have cut : padded AccountInfo.fields buf.bytes = record.encode := by
      rw [padded_of_le, split, AccountInfo.widths_fields, List.take_left' size]
      rw [split, AccountInfo.widths_fields, List.length_append, size]
      omega
    rw [cut, AccountInfo.setAll_encode]

/-! ## The key -/

theorem accountBytes_spells {text : List Char} {bytes : List UInt8} (h : Spells text bytes) :
    accountBytes text = .ok bytes := by
  have same : accountBytes text = stoulPairs text := by
    induction h with
    | nil => rfl
    | byte _ _ _ ih => rw [accountBytes, stoulPairs, ih]
  rw [same, stoulPairs_spells h]

theorem spells_append {text text' : List Char} {bytes bytes' : List UInt8} (h : Spells text bytes)
    (h' : Spells text' bytes') : Spells (text ++ text') (bytes ++ bytes') := by
  induction h with
  | nil => exact h'
  | byte high low _ ih => exact .byte high low ih

/-- A key that is computed for an account is read back as the hash and the account's bytes. -/
theorem computeAccountStorageKey_named {lib : KeyLibrary} {accountIdHex : String}
    {account : List UInt8} (on : lib.initialises = true) (named : Names accountIdHex account) :
    ∃ key, computeAccountStorageKey lib accountIdHex.toList = .ok key ∧
      Codec.hexToBytes key = .ok (systemAccount ++ ((lib.blake2b128 account).1 ++ account)) := by
  obtain ⟨text, spelled, form⟩ := named
  have clean : (if accountIdHex.toList.take 2 = ['0', 'x'] then accountIdHex.toList.drop 2
      else accountIdHex.toList) = text := by
    rcases form with bare | led
    · rw [bare]
      refine if_neg fun lead => ?_
      have letter : 'x' ∈ text.take 2 := by
        rw [lead]
        exact List.mem_cons_of_mem _ List.mem_cons_self
      exact absurd (spelled.mem_digits 'x' (List.mem_of_mem_take letter)) (by decide)
    · rw [led]
      rfl
  have lead : "0x26aa394eea5630e07c48ae0c9558cef7b99d880ec681799c0cf30e8886371da9".toList =
      ['0', 'x'] ++ bytesToHex systemAccount := by decide
  have whole : Spells (bytesToHex systemAccount ++ (bytesToHex (lib.blake2b128 account).1 ++ text))
      (systemAccount ++ ((lib.blake2b128 account).1 ++ account)) :=
    spells_append (bytesToHex_spells _) (spells_append (bytesToHex_spells _) spelled)
  refine ⟨['0', 'x'] ++ (bytesToHex systemAccount ++
    (bytesToHex (lib.blake2b128 account).1 ++ text)), ?_, ?_⟩
  · rw [computeAccountStorageKey, on, clean]
    simp only [Bool.not_true, Bool.false_eq_true, if_false, accountBytes_spells spelled, lead,
      List.append_assoc]
    rfl
  · exact hexToBytes_led whole

/-! ## The call -/

variable {s t : SubstrateRpc} {seen : Seen}

/-- The value of an answer, a text. -/
def storedText : Json → Throws String
  | .null => .ok ""
  | .string value => .ok value
  | _ => .error (.runtimeError "Unexpected storage value format")

theorem ran_getStorage {storageKey : String} {result : Throws String}
    (h : Ran (getStorage storageKey) s seen result t) :
    ∃ got, Made "state_getStorage" (.array [.string storageKey]) s seen got t ∧
      result = got >>= storedText := by
  rcases ran_bind h with ⟨e, hcall, rfl⟩ | ⟨answer, mid, before, after, rfl, hcall, hend⟩
  · exact ⟨.error e, ran_rpcCall hcall, rfl⟩
  refine ⟨.ok answer, ?_⟩
  cases answer with
  | null | string =>
    obtain ⟨rfl, rfl, rfl⟩ := ran_pure hend
    rw [List.append_nil]
    exact ⟨ran_rpcCall hcall, rfl⟩
  | _ =>
    obtain ⟨rfl, rfl, rfl⟩ := ran_throw hend
    rw [List.append_nil]
    exact ⟨ran_rpcCall hcall, rfl⟩

theorem told_text {answer : Json} {text : String} (h : storedText answer = .ok text) :
    AccountTold (.ok answer)
      (if text = "" ∨ text = "null" then .ok (some {}) else decodeAccountInfo text) := by
  cases answer with
  | null =>
    cases h
    exact .absent (.inl rfl)
  | string =>
    cases h
    by_cases missing : text = "" ∨ text = "null"
    · rw [if_pos missing]
      exact .absent (.inr (missing.imp (congrArg Json.string) (congrArg Json.string)))
    rw [if_neg missing]
    cases hread : storedBytes text with
    | error e =>
      rw [decodeAccountInfo, hread]
      refine .unreadable missing hread fun bytes stored => ?_
      rw [stored.storedBytes] at hread
      cases hread
    | ok buf =>
      obtain ⟨info, told, cut, whole⟩ := decodeAccountInfo_read hread
      rw [told]
      refine .read missing hread (fun bytes stored => ?_) cut whole
      rw [stored.storedBytes] at hread
      cases hread
      rfl
  | _ => cases h

theorem told_unexpected {answer : Json} {e : Exception} (h : storedText answer = .error e) :
    AccountTold (.ok answer) (.error e) := by
  cases answer with
  | null | string => cases h
  | _ =>
    cases h
    exact .unexpected ⟨by simp, by simp⟩

/-- **An account is asked for under a key that spells its own bytes, and told as it is stored**:
a whole record is told as it was encoded, of a cut one the fields that are there. -/
theorem getAccountInfo_told {lib : KeyLibrary} {accountIdHex : String} {account : List UInt8}
    {result : Throws (Option AccountInfo)} (named : Names accountIdHex account)
    (run : Ran (getAccountInfo lib accountIdHex) s seen result t) :
    LookedUp lib account s seen result t := by
  cases started : lib.initialises with
  | false =>
    have fails : computeAccountStorageKey lib accountIdHex.toList =
        .error (.runtimeError "libsodium init failed") := by
      rw [computeAccountStorageKey, started]
      rfl
    rw [getAccountInfo, fails] at run
    obtain ⟨rfl, rfl, rfl⟩ := ran_throw run
    exact .notStarted t started
  | true =>
    obtain ⟨key, computed, spelled⟩ := computeAccountStorageKey_named started named
    rw [getAccountInfo, computed] at run
    replace run := ran_pure_bind run
    have own : Codec.hexToBytes (String.ofList key).toList =
        .ok (systemAccount ++ ((lib.blake2b128 account).1 ++ account)) := by
      rw [String.toList_ofList, spelled]
    rcases ran_bind run with ⟨e, hstored, rfl⟩ | ⟨text, mid, before, after, rfl, hstored, hend⟩
    · obtain ⟨got, call, threw⟩ := ran_getStorage hstored
      refine .asked own call ?_
      cases got with
      | error e' =>
        obtain rfl := Except.error.inj threw
        exact .failed e
      | ok answer => exact told_unexpected threw.symm
    · obtain ⟨got, call, gave⟩ := ran_getStorage hstored
      cases got with
      | error e =>
        have clash : Except.ok text = Except.error e := gave
        cases clash
      | ok answer =>
        have told := told_text gave.symm
        replace hend : Ran (if text = "" ∨ text = "null" then pure (some {})
            else Action.ofExcept (decodeAccountInfo text)) mid after result t := hend
        by_cases missing : text = "" ∨ text = "null"
        · rw [if_pos missing] at hend told
          obtain ⟨rfl, rfl, rfl⟩ := ran_pure hend
          rw [List.append_nil]
          exact .asked own call told
        · rw [if_neg missing] at hend told
          obtain ⟨rfl, rfl, rfl⟩ := ran_ofExcept hend
          rw [List.append_nil]
          exact .asked own call told

/-! ## One account -/

def zeroKeys : KeyLibrary where
  initialises := true
  blake2b128 _ := ⟨List.replicate 16 0, rfl⟩

/-- The key of the account with the one byte 1. -/
def keyOfOne : String :=
  "0x26aa394eea5630e07c48ae0c9558cef7b99d880ec681799c0cf30e8886371da9" ++
    "0000000000000000000000000000000001"

/-- Of a record cut behind its nonce, the nonce is told. -/
theorem getAccountInfo_told_nonce :
    LookedUp zeroKeys [0x01] {}
      [⟨.post (request "state_getStorage" (.array [.string keyOfOne]) 1),
        .ok (.object [("result", .string "0x07000000")])⟩]
      (.ok (some { nonce := 7 })) { requestId := 2 } :=
  @getAccountInfo_told _ _ _ zeroKeys "0x01" [0x01] _
    ⟨['0', '1'], .byte (by decide) (by decide) .nil, .inr rfl⟩ (.ask (.done _))

end SubstrateRpc

end MidnightSdk.Network
