import MidnightSdk.Crypto.StateEncryption
import MidnightSdk.Library.LittleEndian
import MidnightSdk.Wallet.EncryptedSave

/-!
# Wallet files

A wallet is saved as its bare seed, or, under a passphrase, as an encrypted record of
the seed and the addresses. Numbers of the record are written as the machine keeps
them, the low byte first.
-/

namespace MidnightSdk.Blockchain

open Cpp Crypto LittleEndian

inductive WalletType where
  | hardware
  | mnemonic
  | extendedKey
  deriving DecidableEq, Repr

structure Wallet where
  walletType : WalletType
  extendedPrivateKey : List UInt8
  addresses : List (List UInt8)
  balances : List (List UInt8 × UInt64)
  deriving DecidableEq, Repr

/-- Files by their paths. -/
abbrev Files : Type := List Char → Option (List UInt8)

/-! ## Binary streams -/

/-- `std::istringstream`: what is left to be read, and whether a read has failed. -/
structure ByteStream where
  rest : List UInt8
  failed : Bool := false

/-- `iss.read(place, n)`. A read that fails leaves what it did not get as it was before. -/
def ByteStream.read (s : ByteStream) (n : Nat) (before : List UInt8) : List UInt8 × ByteStream :=
  if s.failed then (before, s)
  else if n ≤ s.rest.length then (s.rest.take n, { s with rest := s.rest.drop n })
  else (s.rest ++ before.drop s.rest.length, { rest := [], failed := true })

theorem ByteStream.read_append {front : List UInt8} {n : Nat} (h : front.length = n)
    (rest before : List UInt8) :
    (ByteStream.mk (front ++ rest) false).read n before = (front, { rest }) := by
  have enough : n ≤ (front ++ rest).length := by
    rw [List.length_append]
    omega
  simp only [ByteStream.read, Bool.false_eq_true, if_false, if_pos enough, List.take_left' h,
    List.drop_left' h]

namespace Wallet

/-- `'MWLL'` -/
def magic : Nat := 0x4D574C4C

/-- `static_cast<uint32_t>` of a number, as it lies in memory. -/
def word (n : Nat) : List UInt8 := leBytes 4 n

/-- The length is cut to 32 bits, and as much of the address is written. -/
def addressRecord (addr : List UInt8) : List UInt8 :=
  word addr.length ++ addr.take (addr.length % 2 ^ 32)

/-- A seed of another length than 64 would be read behind its end, or cut. -/
def plaintext (w : Wallet) : List UInt8 :=
  word magic ++ word 1 ++ word 64 ++ w.extendedPrivateKey.take 64 ++ word w.addresses.length ++
    w.addresses.flatMap addressRecord

/-- `canCreate` is whether the file can be opened for writing, which empties it. -/
def save (sodium : Sodium) (random : Randomness) (canCreate : List Char → Bool) (files : Files)
    (w : Wallet) (walletPath : List Char) (passphrase : List UInt8) : Throws Unit × Files :=
  if w.extendedPrivateKey.isEmpty then
    (.error (.runtimeError "Cannot save: wallet seed is empty"), files)
  else if !canCreate walletPath then
    (.error (.runtimeError ("Cannot create wallet file: " ++ String.ofList walletPath)), files)
  else if passphrase.isEmpty then
    (.ok (), Function.update files walletPath (some w.extendedPrivateKey))
  else
    match EncryptedState.create sodium random w.plaintext passphrase with
    | .error e => (.error e, Function.update files walletPath (some []))
    | .ok encrypted => (.ok (), Function.update files walletPath (some encrypted))

/-- The loop over the addresses; `unwritten` is what `len` holds before it is read. -/
def readAddresses (unwritten : List UInt8) : Nat → ByteStream → List (List UInt8)
  | 0, _ => []
  | count + 1, s =>
    let (len, s) := s.read 4 unwritten
    let size := leValue len
    let (addr, s) := s.read size (List.replicate size 0)
    addr :: readAddresses unwritten count s

/-- The part of `load` behind the decryption. -/
def readRecord (unwritten : List UInt8) (w : Wallet) (decrypted : List UInt8) :
    Throws Unit × Wallet :=
  let (number, s) := (ByteStream.mk decrypted false).read 4 unwritten
  if leValue number ≠ magic then (.error (.runtimeError "Invalid wallet file format"), w)
  else
    let (version, s) := s.read 4 unwritten
    if leValue version ≠ 1 then (.error (.runtimeError "Unsupported wallet format version"), w)
    else
      let (seedLen, s) := s.read 4 unwritten
      if leValue seedLen ≠ 64 then
        (.error (.runtimeError "Invalid seed length in wallet file"), w)
      else
        let (seed, s) := s.read 64 (List.replicate 64 0)
        let (addrCount, s) := s.read 4 unwritten
        (.ok (), { w with
          extendedPrivateKey := seed
          addresses := readAddresses unwritten (leValue addrCount) s
          walletType := .extendedKey })

/-- The wallet is changed in place, also by a load that fails. -/
def load (sodium : Sodium) (unwritten : List UInt8) (files : Files) (w : Wallet)
    (walletPath : List Char) (passphrase : List UInt8) : Throws Unit × Wallet :=
  match files walletPath with
  | none => (.error (.runtimeError ("Cannot open wallet file: " ++ String.ofList walletPath)), w)
  | some encryptedData =>
    if encryptedData.isEmpty then
      (.error (.runtimeError ("Wallet file is empty: " ++ String.ofList walletPath)), w)
    else if passphrase.isEmpty then
      let w := { w with extendedPrivateKey := encryptedData }
      if encryptedData.length ≠ 64 then
        (.error (.runtimeError "Invalid wallet file: expected 64-byte seed"), w)
      else (.ok (), { w with walletType := .extendedKey })
    else
      match EncryptedState.decrypt sodium encryptedData passphrase with
      | .error e => (.error e, w)
      | .ok none => (.error (.runtimeError
          "Failed to decrypt wallet: invalid password or corrupted file"), w)
      | .ok (some decrypted) => readRecord unwritten w decrypted

/-! ## What is read of a record -/

theorem leValue_word (n : Nat) : leValue (word n) = n % 2 ^ 32 := leValue_leBytes 4 n

theorem word_length (n : Nat) : (word n).length = 4 := leBytes_length 4 n

/-- One address a record, cut like its length. -/
theorem readAddresses_records (unwritten : List UInt8) (rest : List UInt8) :
    ∀ (addresses : List (List UInt8)) (count : Nat), count ≤ addresses.length →
      readAddresses unwritten count (ByteStream.mk (addresses.flatMap addressRecord ++ rest) false) =
        (addresses.take count).map fun addr => addr.take (addr.length % 2 ^ 32)
  | _, 0, _ => rfl
  | [], count + 1, h => absurd h (Nat.not_succ_le_zero count)
  | addr :: addresses, count + 1, h => by
    have ih := readAddresses_records unwritten rest addresses count (Nat.le_of_succ_le_succ h)
    have size : (addr.take (addr.length % 2 ^ 32)).length = addr.length % 2 ^ 32 := by
      rw [List.length_take]
      exact Nat.min_eq_left (Nat.mod_le _ _)
    rw [List.flatMap_cons, addressRecord, List.append_assoc, List.append_assoc, readAddresses,
      ByteStream.read_append (word_length _)]
    simp only [leValue_word]
    rw [ByteStream.read_append size, ih]
    rfl

theorem readRecord_plaintext (unwritten : List UInt8) (former : Wallet) {w : Wallet}
    (hseed : w.extendedPrivateKey.length = 64) :
    readRecord unwritten former w.plaintext = (.ok (), { former with
      extendedPrivateKey := w.extendedPrivateKey
      addresses := (w.addresses.take (w.addresses.length % 2 ^ 32)).map
        fun addr => addr.take (addr.length % 2 ^ 32)
      walletType := .extendedKey }) := by
  have seed : w.extendedPrivateKey.take 64 = w.extendedPrivateKey :=
    List.take_of_length_le (by omega)
  have magicNumber : leValue (word magic) = magic := leValue_word magic
  have one : leValue (word 1) = 1 := leValue_word 1
  have sixtyFour : leValue (word 64) = 64 := leValue_word 64
  have addresses := readAddresses_records unwritten [] w.addresses (w.addresses.length % 2 ^ 32)
    (Nat.mod_le _ _)
  rw [List.append_nil] at addresses
  rw [readRecord, plaintext, seed]
  simp only [List.append_assoc, ByteStream.read_append (word_length _),
    ByteStream.read_append hseed, magicNumber, one, sixtyFour, leValue_word, addresses, ne_eq,
    not_true_eq_false, if_false]

theorem map_take_eq_iff {addresses : List (List UInt8)} :
    ((addresses.take (addresses.length % 2 ^ 32)).map fun addr =>
        addr.take (addr.length % 2 ^ 32)) = addresses ↔
      addresses.length < 2 ^ 32 ∧ ∀ addr ∈ addresses, addr.length < 2 ^ 32 := by
  have whole : addresses.length < 2 ^ 32 →
      addresses.take (addresses.length % 2 ^ 32) = addresses := by
    intro few
    rw [Nat.mod_eq_of_lt few, List.take_length]
  constructor
  · intro same
    have count := congrArg List.length same
    rw [List.length_map, List.length_take] at count
    have few : addresses.length < 2 ^ 32 := by omega
    refine ⟨few, ?_⟩
    intro addr haddr
    rw [whole few] at same
    have kept : addr.take (addr.length % 2 ^ 32) = addr :=
      List.map_inj_left.mp (same.trans (List.map_id addresses).symm) addr haddr
    have size := congrArg List.length kept
    rw [List.length_take] at size
    omega
  · rintro ⟨few, short⟩
    rw [whole few]
    refine (List.map_congr_left ?_).trans (List.map_id addresses)
    intro addr haddr
    rw [Nat.mod_eq_of_lt (short addr haddr), List.take_length]
    rfl

/-! ## What a load leaves -/

/-- The load succeeds, and the wallet has the saved seed and addresses and no balance
of its former contents. -/
structure Restored (w former : Wallet) (result : Throws Unit × Wallet) : Prop where
  done : result.1 = .ok ()
  seed : result.2.extendedPrivateKey = w.extendedPrivateKey
  addresses : result.2.addresses = w.addresses
  balances : ∀ e ∈ result.2.balances, e ∉ former.balances

section Loads
variable {sodium : Sodium} {random : Randomness} {canCreate : List Char → Bool}
  {files files' : Files} {w : Wallet} {walletPath : List Char} {passphrase : List UInt8}

/-- What a save that succeeds leaves in its file. -/
theorem file_of_save
    (saved : save sodium random canCreate files w walletPath passphrase = (.ok (), files')) :
    if passphrase = [] then files' walletPath = some w.extendedPrivateKey
    else ∃ encrypted, EncryptedState.create sodium random w.plaintext passphrase = .ok encrypted ∧
      files' walletPath = some encrypted := by
  rw [save] at saved
  split at saved
  · cases saved
  · split at saved
    · cases saved
    · split at saved
      · rename_i empty
        cases saved
        rw [if_pos (List.isEmpty_iff.mp empty), Function.update_self]
      · rename_i some_passphrase
        rw [if_neg (fun empty => some_passphrase (List.isEmpty_iff.mpr empty))]
        split at saved
        · cases saved
        · rename_i encrypted hcreated
          cases saved
          exact ⟨encrypted, hcreated, Function.update_self ..⟩

/-- A bare seed: everything else stays as it was. -/
theorem load_seed (hseed : w.extendedPrivateKey.length = 64)
    (file : files walletPath = some w.extendedPrivateKey) (unwritten : List UInt8)
    (former : Wallet) :
    load sodium unwritten files former walletPath [] = (.ok (), { former with
      extendedPrivateKey := w.extendedPrivateKey
      walletType := .extendedKey }) := by
  have some_seed : w.extendedPrivateKey.isEmpty = false := by
    rw [← Bool.not_eq_true, List.isEmpty_iff]
    rintro empty
    rw [empty] at hseed
    cases hseed
  rw [load, file]
  simp only [some_seed, Bool.false_eq_true, if_false, List.isEmpty_nil, if_true, hseed, ne_eq,
    not_true_eq_false]

/-- An encrypted record: the addresses are those of the record, the balances stay. -/
theorem load_record (hseed : w.extendedPrivateKey.length = 64) (hne : passphrase ≠ [])
    {encrypted : List UInt8}
    (hcreated : EncryptedState.create sodium random w.plaintext passphrase = .ok encrypted)
    (file : files walletPath = some encrypted) (unwritten : List UInt8) (former : Wallet) :
    load sodium unwritten files former walletPath passphrase = (.ok (), { former with
      extendedPrivateKey := w.extendedPrivateKey
      addresses := (w.addresses.take (w.addresses.length % 2 ^ 32)).map
        fun addr => addr.take (addr.length % 2 ^ 32)
      walletType := .extendedKey }) := by
  have size := EncryptedState.create_length hcreated
  have some_data : encrypted.isEmpty = false := by
    rw [← Bool.not_eq_true, List.isEmpty_iff]
    rintro rfl
    rw [List.length_nil] at size
    omega
  have some_passphrase : passphrase.isEmpty = false := by
    rw [← Bool.not_eq_true, List.isEmpty_iff]
    exact hne
  rw [load, file]
  simp only [some_data, some_passphrase, Bool.false_eq_true, if_false,
    EncryptedState.decrypt_create hcreated]
  exact readRecord_plaintext unwritten former hseed

theorem notMem_former_iff {balances : List (List UInt8 × UInt64)} :
    (∀ e ∈ balances, e ∉ balances) ↔ balances = [] := by
  constructor
  · intro none
    exact List.eq_nil_iff_forall_not_mem.mpr fun e he => none e he he
  · rintro rfl
    nofun

/-- **What was saved is loaded** into a wallet without balances that, for a bare seed,
has the addresses already; a record holds fewer than 2³² addresses. -/
theorem restored_iff (hseed : w.extendedPrivateKey.length = 64)
    (saved : save sodium random canCreate files w walletPath passphrase = (.ok (), files'))
    (unwritten : List UInt8) (former : Wallet) :
    Restored w former (load sodium unwritten files' former walletPath passphrase) ↔
      former.balances = [] ∧ (passphrase = [] → former.addresses = w.addresses) ∧
        (passphrase ≠ [] →
          w.addresses.length < 2 ^ 32 ∧ ∀ addr ∈ w.addresses, addr.length < 2 ^ 32) := by
  have file := file_of_save saved
  by_cases empty : passphrase = []
  · rw [if_pos empty] at file
    subst empty
    rw [load_seed hseed file]
    constructor
    · intro restored
      exact ⟨notMem_former_iff.mp restored.balances, fun _ => restored.addresses,
        fun other => absurd rfl other⟩
    · rintro ⟨none, same, -⟩
      exact ⟨rfl, rfl, same rfl, notMem_former_iff.mpr none⟩
  · rw [if_neg empty] at file
    obtain ⟨encrypted, hcreated, hfile⟩ := file
    rw [load_record hseed empty hcreated hfile]
    constructor
    · intro restored
      exact ⟨notMem_former_iff.mp restored.balances, fun here => absurd here empty,
        fun _ => map_take_eq_iff.mp restored.addresses⟩
    · rintro ⟨none, -, fits⟩
      exact ⟨rfl, rfl, map_take_eq_iff.mpr (fits empty), notMem_former_iff.mpr none⟩

end Loads

/-- A wallet with one address. -/
def sample (address : String) : Wallet where
  walletType := .extendedKey
  extendedPrivateKey := List.replicate 64 7
  addresses := [literal address]
  balances := []

open MidnightSdk.Wallet in
theorem restored_sample : ∃ files',
    save endSealed noRandomness (fun _ => true) (fun _ => none) (sample "new") "wallet".toList
      (literal "password") = (.ok (), files') ∧
    Restored (sample "new") (sample "old")
      (load endSealed [] files' (sample "old") "wallet".toList (literal "password")) := by
  have saved : save endSealed noRandomness (fun _ => true) (fun _ => none) (sample "new")
      "wallet".toList (literal "password") = (.ok (), _) := rfl
  refine ⟨_, saved, (restored_iff List.length_replicate saved [] (sample "old")).mpr ?_⟩
  exact ⟨rfl, by decide, fun _ => by decide⟩

open MidnightSdk.Wallet in
/-- A bare seed is loaded beside the former address. -/
theorem not_restored_sample : ∃ files',
    save endSealed noRandomness (fun _ => true) (fun _ => none) (sample "new") "wallet".toList [] =
      (.ok (), files') ∧
    (load endSealed [] files' (sample "old") "wallet".toList []).2.addresses = [literal "old"] ∧
    ¬Restored (sample "new") (sample "old")
      (load endSealed [] files' (sample "old") "wallet".toList []) := by
  refine ⟨_, rfl, rfl, ?_⟩
  intro restored
  exact absurd restored.addresses (by decide)

end Wallet

end MidnightSdk.Blockchain
