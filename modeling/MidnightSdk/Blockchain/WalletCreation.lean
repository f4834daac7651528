import MidnightSdk.Blockchain.WalletFiles
import MidnightSdk.Util.Bech32m
import MidnightSdk.Util.Hex
import MidnightSdk.Wallet.HdWallet

/-!
# Making a wallet

A wallet is made anew from a phrase, from a key or from a file, in place: its fields are
assigned one after the other, and some of them before the argument is checked.
-/

namespace MidnightSdk.Blockchain

open Cpp
open MidnightSdk.Wallet (halves indexBytes)
open MidnightSdk.Wallet.Bip39 (intSize)
open MidnightSdk.Wallet.Bech32m (lowered)

/-- `PKCS5_PBKDF2_HMAC` and `HMAC`, both with SHA-512; `none` is a call that fails. -/
structure WalletOpenSsl where
  pbkdf2 : (pass : List UInt8) → (passLen : Int) → (salt : List UInt8) → (saltLen : Int) →
    (iterations : Nat) → Option (Bytes 64)
  hmacSha512 : (key message : List UInt8) → Option (Bytes 64)

namespace Wallet

/-! ## Seeds -/

def normalizeWords (input : List UInt8) : List UInt8 :=
  [(32 : UInt8)].intercalate ((words input).map fun word => word.map lowered)

/-- The loop of `hex_decode`, two characters at a time. -/
def hexPairs : List Char → Throws (List UInt8)
  | high :: low :: rest => do
    let hi := Util.hexNibble high
    let lo := Util.hexNibble low
    if hi < 0 ∨ lo < 0 then throw (.invalidArgument "Invalid hex input")
    let out ← hexPairs rest
    return UInt8.ofNat (hi.toNat <<< 4 ||| lo.toNat) :: out
  | _ => return []

def hexDecode (hex : List Char) : Throws (List UInt8) :=
  let hex := Util.stripHexPrefix hex
  if hex.length % 2 ≠ 0 then .error (.invalidArgument "Hex input must have even length")
  else hexPairs hex

variable (ssl : WalletOpenSsl)

def hmacSha512Bytes (key message : List UInt8) : Throws (Bytes 64) :=
  match ssl.hmacSha512 key message with
  | none => .error (.runtimeError "HMAC-SHA512 failed")
  | some digest => .ok digest

def pbkdf2DeriveBytes (password salt : List UInt8) : Throws (List UInt8) :=
  let pbkdf2Salt := literal "mnemonic" ++ salt
  match ssl.pbkdf2 password (intSize password) pbkdf2Salt (intSize pbkdf2Salt) 2048 with
  | none => .error (.runtimeError "PBKDF2-HMAC-SHA512 failed")
  | some out => .ok out.1

/-! ## Addresses -/

structure Bip32Node where
  key : Bytes 32
  chain : Bytes 32

def deriveMasterNodeFromSeed (seed : List UInt8) : Throws Bip32Node := do
  let (key, chain) := halves (← hmacSha512Bytes ssl (literal "Bitcoin seed") seed)
  return { key, chain }

def deriveChildNode (parent : Bip32Node) (index : UInt32) : Throws Bip32Node := do
  let digest ← hmacSha512Bytes ssl parent.chain.1 (parent.key.1 ++ indexBytes index)
  let (key, chain) := halves digest
  return { key, chain }

def deriveRolePayload (seed : List UInt8) (account role addressIndex : UInt32) :
    Throws (Bytes 32) := do
  let node ← deriveMasterNodeFromSeed ssl seed
  let node ← deriveChildNode ssl node account
  let node ← deriveChildNode ssl node role
  let node ← deriveChildNode ssl node addressIndex
  return node.key

def roleToHrp (role : UInt32) : List UInt8 :=
  if role = 3 then literal "mn_shield-addr_preprod"
  else if role = 2 then literal "mn_dust_preprod"
  else literal "mn_addr_preprod"

/-- The path is given by its three numbers. -/
def deriveKey (w : Wallet) (account role addressIndex : UInt32) : Throws (List UInt8) := do
  if w.extendedPrivateKey.isEmpty then throw (.runtimeError "Wallet seed is not initialized")
  if w.extendedPrivateKey.length ≠ 64 then throw (.runtimeError "Wallet seed must be 64 bytes")
  let payload ← deriveRolePayload ssl w.extendedPrivateKey account role addressIndex
  return Util.Bech32m.encode (roleToHrp role) payload.1

def generateAddress (w : Wallet) (account change addressIndex : UInt32) :
    Throws (List UInt8) × Wallet :=
  match w.deriveKey ssl account change addressIndex with
  | .error e => (.error e, w)
  | .ok address => (.ok address, { w with addresses := w.addresses ++ [address] })

/-! ## Wallets -/

/-- The end of both functions: the seed is assigned, and the first address generated. -/
def assignSeed (w : Wallet) (seed : Throws (List UInt8)) : Throws Unit × Wallet :=
  match seed with
  | .error e => (.error e, w)
  | .ok seed =>
    let w := { w with extendedPrivateKey := seed, addresses := [], balances := [] }
    let (address, w) := w.generateAddress ssl 0 0 0
    (address.map fun _ => (), w)

def createFromMnemonic (w : Wallet) (mnemonic passphrase : List UInt8) : Throws Unit × Wallet :=
  let w := { w with walletType := .mnemonic }
  let normalizedMnemonic := normalizeWords mnemonic
  if normalizedMnemonic.isEmpty then
    (.error (.invalidArgument "Mnemonic cannot be empty"), w)
  else w.assignSeed ssl (pbkdf2DeriveBytes ssl normalizedMnemonic passphrase)

/-- A key that is no hex, or not of 64 bytes, is a password. -/
def seedOfXprv (xprv : List Char) (passphrase : List UInt8) : Throws (List UInt8) :=
  match hexDecode xprv with
  | .ok maybeSeed =>
    if maybeSeed.length = 64 then .ok maybeSeed
    else pbkdf2DeriveBytes ssl (bytesOf xprv) passphrase
  | .error _ => pbkdf2DeriveBytes ssl (bytesOf xprv) passphrase

def createFromXprv (w : Wallet) (xprv : List Char) (passphrase : List UInt8) :
    Throws Unit × Wallet :=
  let w := { w with walletType := .extendedKey }
  if xprv.isEmpty then
    (.error (.invalidArgument "Extended private key cannot be empty"), w)
  else w.assignSeed ssl (seedOfXprv ssl xprv passphrase)

/-! ## What is left where a call throws -/

def KeepsOnThrow (w : Wallet) (result : Throws Unit × Wallet) : Prop :=
  ∀ e, result.1 = .error e → result.2 = w

/-- Nothing was assigned that was not there: the type alone where there is no seed, and all
fields where no address comes of it. -/
structure Idle (w : Wallet) (type : WalletType) (seed : Throws (List UInt8)) : Prop where
  unseeded : ∀ e, seed = .error e → w.walletType = type
  unaddressed : ∀ s e, seed = .ok s → deriveRolePayload ssl s 0 0 0 = .error e →
    w = ⟨type, s, [], []⟩

/-- The seed a phrase stands for. -/
def seedOfMnemonic (mnemonic passphrase : List UInt8) : Throws (List UInt8) :=
  if (normalizeWords mnemonic).isEmpty then .error (.invalidArgument "Mnemonic cannot be empty")
  else pbkdf2DeriveBytes ssl (normalizeWords mnemonic) passphrase

def seedOfKey (xprv : List Char) (passphrase : List UInt8) : Throws (List UInt8) :=
  if xprv.isEmpty then .error (.invalidArgument "Extended private key cannot be empty")
  else seedOfXprv ssl xprv passphrase

section
variable {ssl} {w : Wallet}

theorem pbkdf2DeriveBytes_length {password salt seed : List UInt8}
    (h : pbkdf2DeriveBytes ssl password salt = .ok seed) : seed.length = 64 := by
  unfold pbkdf2DeriveBytes at h
  dsimp only at h
  split at h
  · cases h
  · rename_i out _
    cases h
    exact out.2

theorem seedOfMnemonic_length {mnemonic passphrase seed : List UInt8}
    (h : seedOfMnemonic ssl mnemonic passphrase = .ok seed) : seed.length = 64 := by
  unfold seedOfMnemonic at h
  split at h
  · cases h
  · exact pbkdf2DeriveBytes_length h

theorem seedOfKey_length {xprv : List Char} {passphrase seed : List UInt8}
    (h : seedOfKey ssl xprv passphrase = .ok seed) : seed.length = 64 := by
  unfold seedOfKey seedOfXprv at h
  split at h
  · cases h
  · split at h
    · split at h
      · rename_i whole
        cases h
        exact whole
      · exact pbkdf2DeriveBytes_length h
    · exact pbkdf2DeriveBytes_length h

theorem createFromMnemonic_eq (w : Wallet) (mnemonic passphrase : List UInt8) :
    w.createFromMnemonic ssl mnemonic passphrase =
      { w with walletType := .mnemonic }.assignSeed ssl
        (seedOfMnemonic ssl mnemonic passphrase) := by
  rw [createFromMnemonic, seedOfMnemonic]
  split <;> rfl

theorem createFromXprv_eq (w : Wallet) (xprv : List Char) (passphrase : List UInt8) :
    w.createFromXprv ssl xprv passphrase =
      { w with walletType := .extendedKey }.assignSeed ssl (seedOfKey ssl xprv passphrase) := by
  rw [createFromXprv, seedOfKey]
  split <;> rfl

theorem deriveKey_eq {seed : List UInt8} (h : w.extendedPrivateKey = seed) (size : seed.length = 64)
    (account role addressIndex : UInt32) : w.deriveKey ssl account role addressIndex = do
      let payload ← deriveRolePayload ssl seed account role addressIndex
      return Util.Bech32m.encode (roleToHrp role) payload.1 := by
  have some_seed : seed.isEmpty = false := by
    rw [← Bool.not_eq_true, List.isEmpty_iff]
    rintro rfl
    cases size
  rw [deriveKey, h]
  simp only [some_seed, Bool.false_eq_true, if_false, size, ne_eq, not_true_eq_false]

/-- Where no address comes of the seed, the seed is there all the same. -/
theorem assignSeed_ok {seed : List UInt8} (size : seed.length = 64) :
    w.assignSeed ssl (.ok seed) =
      match deriveRolePayload ssl seed 0 0 0 with
      | .error e => (.error e, ⟨w.walletType, seed, [], []⟩)
      | .ok payload => (.ok (), ⟨w.walletType, seed,
          [Util.Bech32m.encode (roleToHrp 0) payload.1], []⟩) := by
  simp only [assignSeed, generateAddress]
  rw [deriveKey_eq rfl size]
  cases deriveRolePayload ssl seed 0 0 0 with
  | error e => rfl
  | ok payload => rfl

theorem keepsOnThrow_of_error (e : Exception) : w.KeepsOnThrow (.error e, w) := fun _ _ => rfl

theorem keepsOnThrow_of_ok {result : Throws Unit × Wallet} (h : result.1 = .ok ()) :
    w.KeepsOnThrow result := by
  intro e failed
  rw [h] at failed
  cases failed

theorem keepsOnThrow_assignSeed_iff (w : Wallet) (type : WalletType) {seed : Throws (List UInt8)}
    (sizes : ∀ s, seed = .ok s → s.length = 64) :
    w.KeepsOnThrow ({ w with walletType := type }.assignSeed ssl seed) ↔ Idle ssl w type seed := by
  cases seed with
  | error e =>
    constructor
    · intro keeps
      have same : { w with walletType := type } = w := keeps e rfl
      refine ⟨fun _ _ => ?_, nofun⟩
      rw [← same]
    · intro idle _ _
      have same := idle.unseeded e rfl
      change { w with walletType := type } = w
      rw [← same]
  | ok s =>
    rw [assignSeed_ok (sizes s rfl)]
    cases derived : deriveRolePayload ssl s 0 0 0 with
    | error e =>
      constructor
      · intro keeps
        refine ⟨nofun, fun s' e' hs _ => ?_⟩
        cases hs
        exact (keeps e rfl).symm
      · intro idle _ _
        exact (idle.unaddressed s e rfl derived).symm
    | ok payload =>
      refine iff_of_true (keepsOnThrow_of_ok rfl) ⟨nofun, fun s' e' hs he => ?_⟩
      cases hs
      rw [derived] at he
      cases he

/-! ## Loading -/

/-- A record is checked before anything of it is assigned. -/
theorem readRecord_cases (unwritten : List UInt8) (w : Wallet) (decrypted : List UInt8) :
    (∃ e, readRecord unwritten w decrypted = (.error e, w)) ∨
      (readRecord unwritten w decrypted).1 = .ok () := by
  unfold readRecord
  dsimp only
  split
  · exact .inl ⟨_, rfl⟩
  · split
    · exact .inl ⟨_, rfl⟩
    · split
      · exact .inl ⟨_, rfl⟩
      · exact .inr rfl

theorem keepsOnThrow_readRecord (unwritten : List UInt8) (w : Wallet) (decrypted : List UInt8) :
    w.KeepsOnThrow (readRecord unwritten w decrypted) := by
  rcases readRecord_cases unwritten w decrypted with ⟨e, failed⟩ | done
  · rw [failed]
    exact keepsOnThrow_of_error e
  · exact keepsOnThrow_of_ok done

/-- Without a passphrase the seed is assigned before its length is checked. -/
theorem keepsOnThrow_load_iff (sodium : Crypto.Sodium) (unwritten : List UInt8) (files : Files)
    (w : Wallet) (walletPath : List Char) (passphrase : List UInt8) :
    w.KeepsOnThrow (load sodium unwritten files w walletPath passphrase) ↔
      (passphrase = [] → ∀ data, files walletPath = some data → data ≠ [] → data.length ≠ 64 →
        w.extendedPrivateKey = data) := by
  rw [load]
  cases file : files walletPath with
  | none =>
    refine iff_of_true (keepsOnThrow_of_error _) fun _ other hother => ?_
    cases hother
  | some data =>
    dsimp only
    split
    · rename_i empty
      refine iff_of_true (keepsOnThrow_of_error _) fun _ other hother some_data => ?_
      cases hother
      exact absurd (List.isEmpty_iff.mp empty) some_data
    · rename_i some_data
      split
      · rename_i bare
        split
        · rename_i size
          constructor
          · intro keeps _ other hother _ _
            cases hother
            have same : { w with extendedPrivateKey := data } = w := keeps _ rfl
            rw [← same]
          · intro already _ _
            have same := already (List.isEmpty_iff.mp bare) data rfl
              (fun none => some_data (List.isEmpty_iff.mpr none)) size
            change { w with extendedPrivateKey := data } = w
            rw [← same]
        · rename_i size
          refine iff_of_true (keepsOnThrow_of_ok rfl) fun _ other hother _ hsize => ?_
          cases hother
          exact absurd hsize size
      · rename_i locked
        have not_bare : passphrase ≠ [] := fun none => locked (List.isEmpty_iff.mpr none)
        refine iff_of_true ?_ fun bare => absurd bare not_bare
        split
        · exact keepsOnThrow_of_error _
        · exact keepsOnThrow_of_error _
        · exact keepsOnThrow_readRecord unwritten w _

end

/-- **Where a call that throws changes nothing.** A phrase or a key has to meet a wallet that
already is what the call makes of it up to there, and a bare file of a wrong length the same
seed. -/
theorem keepsOnThrow_iff (ssl : WalletOpenSsl) (sodium : Crypto.Sodium) (unwritten : List UInt8)
    (files : Files) (w : Wallet) (mnemonic : List UInt8) (xprv walletPath : List Char)
    (passphrase : List UInt8) :
    (w.KeepsOnThrow (w.createFromMnemonic ssl mnemonic passphrase) ∧
        w.KeepsOnThrow (w.createFromXprv ssl xprv passphrase) ∧
        w.KeepsOnThrow (load sodium unwritten files w walletPath passphrase)) ↔
      Idle ssl w .mnemonic (seedOfMnemonic ssl mnemonic passphrase) ∧
        Idle ssl w .extendedKey (seedOfKey ssl xprv passphrase) ∧
        (passphrase = [] → ∀ data, files walletPath = some data → data ≠ [] → data.length ≠ 64 →
          w.extendedPrivateKey = data) := by
  rw [createFromMnemonic_eq, createFromXprv_eq,
    keepsOnThrow_assignSeed_iff w _ fun _ => seedOfMnemonic_length,
    keepsOnThrow_assignSeed_iff w _ fun _ => seedOfKey_length, keepsOnThrow_load_iff]

theorem length_steady : (List.replicate 64 (0 : UInt8)).length = 64 := List.length_replicate

/-- Every hash is zeros. -/
def steadySsl : WalletOpenSsl where
  pbkdf2 _ _ _ _ _ := some ⟨List.replicate 64 0, length_steady⟩
  hmacSha512 _ _ := some ⟨List.replicate 64 0, length_steady⟩

open MidnightSdk.Wallet in
/-- An empty phrase is refused, and the wallet of a key has become one of a phrase; a file of
three bytes is refused, and they are the seed. -/
theorem not_keepsOnThrow_sample :
    (sample "old").createFromMnemonic steadySsl [] [] =
        (.error (.invalidArgument "Mnemonic cannot be empty"),
          { sample "old" with walletType := .mnemonic }) ∧
      load endSealed [] (fun _ => some [1, 2, 3]) (sample "old") [] [] =
        (.error (.runtimeError "Invalid wallet file: expected 64-byte seed"),
          { sample "old" with extendedPrivateKey := [1, 2, 3] }) ∧
      ¬ (sample "old").KeepsOnThrow ((sample "old").createFromMnemonic steadySsl [] []) ∧
      ¬ (sample "old").KeepsOnThrow
        (load endSealed [] (fun _ => some [1, 2, 3]) (sample "old") [] []) := by
  refine ⟨rfl, rfl, fun keeps => ?_, fun keeps => ?_⟩
  · cases congrArg walletType (keeps _ rfl)
  · cases congrArg extendedPrivateKey (keeps _ rfl)

end Wallet

end MidnightSdk.Blockchain
