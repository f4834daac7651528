import MidnightSdk.Library.FileTree
import MidnightSdk.Library.JsonTree
import MidnightSdk.Util.Hex

/-!
# The wallet store

Every wallet is one JSON file of the store directory, under its alias. A save
writes a second file beside it and moves that into its place. What the disk, the
clock and the cryptographic library answer is given; a write that was begun is
finished.
-/

namespace MidnightSdk.Blockchain.WalletManager

open Cpp FileTree HexText JsonTree

abbrev Name : Type := List Char
abbrev Path : Type := List Name
abbrev Disk (Text : Type) : Type := Tree Name Text

/-- What a call reports through its `error` argument, or its result. -/
abbrev Reported (α : Type) : Type := Except (List Char) α

/-- `PKCS5_PBKDF2_HMAC` and AES-256-GCM; `none` is a call that fails. -/
structure OpenSsl where
  pbkdf2 : (passphrase : List Char) → (salt : List UInt8) → Option (List UInt8)
  encrypt : (key nonce plaintext : List UInt8) → Option (List UInt8 × Bytes 16)
  decrypt : (key nonce ciphertext tag : List UInt8) → Option (List UInt8)
  encrypt_length {key nonce plaintext ciphertext tag} :
    encrypt key nonce plaintext = some (ciphertext, tag) → ciphertext.length = plaintext.length
  decrypt_encrypt {key nonce plaintext ciphertext tag} :
    encrypt key nonce plaintext = some (ciphertext, tag) →
      decrypt key nonce ciphertext tag = some plaintext

/-- `now_utc_iso8601`; the format has letters of its own. -/
abbrev Timestamp : Type := { text : List Char // text ≠ [] }

/-- What one call is given from outside: the time when it starts and when it writes,
the count in the temporary name, two draws of `RAND_bytes`, and what the system
says of an error. -/
structure Moment where
  createdAt : Timestamp
  updatedAt : Timestamp
  ticks : Int
  salt : Option (Bytes 16)
  nonce : Option (Bytes 12)
  message : List Char

/-! ## Names -/

def isValidAlias (walletAlias : Name) : Bool :=
  3 ≤ walletAlias.length && walletAlias.length ≤ 64 &&
    walletAlias.head?.any Char.isAlphanum && walletAlias.getLast?.any Char.isAlphanum &&
    walletAlias.all fun ch => ch.isAlphanum || ch == '.' || ch == '_' || ch == '-'

def jsonExtension : Name := ".json".toList

/-- `stem()` and `extension()` of a file name. -/
def splitName (name : Name) : Name × Name :=
  match name.reverse.dropWhile (· != '.') with
  | [] => (name, [])
  | [_] => (name, [])
  | _ :: stem =>
    if name = ['.', '.'] then (name, [])
    else (stem.reverse, '.' :: (name.reverse.takeWhile (· != '.')).reverse)

def aliasFilePath (storeDir : Path) (walletAlias : Name) : Path :=
  storeDir ++ [walletAlias ++ jsonExtension]

def tempPath (walletPath : Path) (ticks : Int) : Path :=
  walletPath.dropLast ++ [walletPath.getLastD [] ++ ".tmp.".toList ++ (toString ticks).toList]

/-- `path::string()` -/
def pathString (path : Path) : List Char := path.flatMap ('/' :: ·)

/-! ## Seeds -/

def normalizeSeedHex (seedHex : List Char) : Option (List Char) :=
  let raw := Util.stripHexPrefix seedHex
  if raw.length ≠ 64 then none
  else if raw.all Util.isXDigit then some (raw.map Char.toLower) else none

def hexEncode (bytes : List UInt8) : List Char := Util.bytesToHex bytes

def hexDecode (hex : List Char) : Option (List UInt8) := (Util.hexToBytes hex).toOption

def kdfIterations : Int32 := 200000

def unsealHint : List Char :=
  "Failed to decrypt wallet seed. Check MIDNIGHT_WALLET_STORE_PASSPHRASE.".toList

def encryptSeedHex (ssl : OpenSsl) (m : Moment) (normalizedSeedHex passphrase : List Char) :
    Reported JsonTree :=
  match hexDecode normalizedSeedHex with
  | none => .error "Failed to normalize seed before encryption".toList
  | some seedBytes =>
    if seedBytes.length ≠ 32 then .error "Failed to normalize seed before encryption".toList
    else
      match m.salt, m.nonce with
      | some salt, some nonce =>
        match ssl.pbkdf2 passphrase salt with
        | none => .error "Failed to derive wallet encryption key".toList
        | some key =>
          match ssl.encrypt key nonce seedBytes with
          | none => .error "Failed to encrypt wallet seed".toList
          | some (ciphertext, tag) => .ok <| .ofFields
              [("algorithm", .string "aes-256-gcm".toList),
                ("kdf", .string "pbkdf2-hmac-sha256".toList),
                ("iterations", .integer kdfIterations.toInt),
                ("saltHex", .string (hexEncode salt)),
                ("nonceHex", .string (hexEncode nonce)),
                ("tagHex", .string (hexEncode tag)),
                ("ciphertextHex", .string (hexEncode ciphertext))]
      | _, _ => .error "Failed to generate random values for wallet encryption".toList

/-- The text as bytes, if it is hex of that many. -/
def hexDecodeSized (hex : List Char) (size : Nat) : Option (List UInt8) :=
  (hexDecode hex).filter fun bytes => bytes.length == size

def decryptSeedHex (ssl : OpenSsl) (cipherPayload : JsonTree) (passphrase : List Char) :
    Throws (Reported (List Char)) :=
  if !cipherPayload.isObject then .ok (.error "Encrypted wallet payload is malformed".toList)
  else do
    let saltHex ← cipherPayload.valueString "saltHex" []
    let nonceHex ← cipherPayload.valueString "nonceHex" []
    let tagHex ← cipherPayload.valueString "tagHex" []
    let ciphertextHex ← cipherPayload.valueString "ciphertextHex" []
    let iterations ← cipherPayload.value JsonTree.getInt32 "iterations" kdfIterations
    if iterations ≠ kdfIterations then
      return .error "Unsupported wallet encryption iteration count".toList
    match hexDecodeSized saltHex 16, hexDecodeSized nonceHex 12, hexDecodeSized tagHex 16,
      (hexDecode ciphertextHex).filter (!·.isEmpty) with
    | some salt, some nonce, some tag, some ciphertext =>
      match ssl.pbkdf2 passphrase salt with
      | none => return .error "Failed to derive wallet encryption key".toList
      | some key =>
        match ssl.decrypt key nonce ciphertext tag with
        | none => return .error unsealHint
        | some plaintext =>
          if plaintext.length ≠ 32 then
            return .error "Decrypted wallet seed has unexpected size".toList
          return .ok (hexEncode plaintext)
    | _, _, _, _ => return .error "Encrypted wallet payload has invalid encoding".toList

/-! ## Files -/

section Files
variable {Text : Type} (format : JsonFormat Text)

/-- A directory can be opened for reading, but has nothing to read. -/
def readWalletJson (message : List Char) (disk : Disk Text) (walletPath : Path) :
    Reported JsonTree :=
  match disk.entry walletPath with
  | none => .error ("Wallet alias not found: ".toList ++ pathString walletPath)
  | some .directory => .error ("Wallet file is not valid JSON: ".toList ++ message)
  | some (.file text) =>
    match format.parse text with
    | none => .error ("Wallet file is not valid JSON: ".toList ++ message)
    | some json => .ok json

/-- `std::filesystem::remove`, whatever comes of it. -/
def removeAnyway (disk : Disk Text) (path : Path) : Disk Text := (disk.remove path).getD disk

/-- The file is there, and empty, before the payload is turned into text. -/
def writeWalletJson (m : Moment) (disk : Disk Text) (walletPath : Path) (payload : JsonTree) :
    Disk Text × Throws (Reported Unit) :=
  let temp := tempPath walletPath m.ticks
  match disk.writeFile temp format.blank with
  | none => (removeAnyway disk temp,
      .ok (.error ("Failed to write temporary wallet file: ".toList ++ pathString temp)))
  | some opened =>
    match format.dump payload with
    | .error e => (opened, .error e)
    | .ok text =>
      let written := (opened.writeFile temp text).getD opened
      let replaced :=
        if (written.entry walletPath).isSome then written.remove walletPath else some written
      match replaced with
      | none => (removeAnyway written temp,
          .ok (.error ("Failed to replace existing wallet file: ".toList ++ m.message)))
      | some free =>
        match free.rename temp walletPath with
        | none => (removeAnyway free temp,
            .ok (.error ("Failed to move wallet file into place: ".toList ++ m.message)))
        | some moved => (moved, .ok (.ok ()))

/-- The time a wallet was first saved, which an existing file tells. -/
def createdAtOf (m : Moment) (disk : Disk Text) (walletPath : Path) : Throws (List Char) :=
  match readWalletJson format m.message disk walletPath with
  | .error _ => .ok m.createdAt
  | .ok existing => do
    let existingCreatedAt ← existing.valueString "createdAt" []
    return if existingCreatedAt.isEmpty then m.createdAt else existingCreatedAt

/-- What both kinds of save do once a wallet may be saved at all; `fields` are the
payload's own. -/
def saveWallet (m : Moment) (disk : Disk Text) (storeDir : Path) (walletAlias : Name)
    (fields : Reported (List (String × JsonTree))) : Disk Text × Throws (Reported Unit) :=
  match disk.createDirectories storeDir with
  | none => (disk, .ok (.error ("Failed to create wallet store directory: ".toList ++ m.message)))
  | some disk =>
    let walletPath := aliasFilePath storeDir walletAlias
    match createdAtOf format m disk walletPath with
    | .error e => (disk, .error e)
    | .ok createdAt =>
      match fields with
      | .error e => (disk, .ok (.error e))
      | .ok fields =>
        writeWalletJson format m disk walletPath <| .ofFields <|
          fields ++ [("createdAt", .string createdAt), ("updatedAt", .string m.updatedAt)]

def invalidAlias : List Char :=
  ("Invalid wallet alias. Use 3-64 chars [A-Za-z0-9._-], starting and ending with " ++
    "alphanumeric.").toList

def saveSeedHex (ssl : OpenSsl) (passphrase : List Char) (m : Moment) (disk : Disk Text)
    (storeDir : Path) (walletAlias : Name) (seedHex network : List Char) :
    Disk Text × Throws (Reported Unit) :=
  if !isValidAlias walletAlias then (disk, .ok (.error invalidAlias))
  else
    match normalizeSeedHex seedHex with
    | none => (disk, .ok (.error
        "Seed must be exactly 32 bytes (64 hex chars, optional 0x prefix)".toList))
    | some normalizedSeed =>
      if passphrase.length < 16 then
        (disk, .ok (.error ("Set MIDNIGHT_WALLET_STORE_PASSPHRASE with at least 16 characters " ++
          "before saving wallet seeds").toList))
      else
        saveWallet format m disk storeDir walletAlias do
          let seedCipher ← encryptSeedHex ssl m normalizedSeed passphrase
          return [("version", .integer 2), ("alias", .string walletAlias), ("network", .string network),
            ("seedCipher", seedCipher)]

def saveEncrypted (m : Moment) (disk : Disk Text) (storeDir : Path) (walletAlias : Name)
    (encryptedState : List Char) : Disk Text × Throws (Reported Unit) :=
  if !isValidAlias walletAlias then (disk, .ok (.error invalidAlias))
  else
    saveWallet format m disk storeDir walletAlias <| .ok
      [("version", .integer 3), ("alias", .string walletAlias),
        ("encryptedState", .string encryptedState)]

def removeWallet (m : Moment) (disk : Disk Text) (storeDir : Path) (walletAlias : Name) :
    Disk Text × Throws (Reported Unit) :=
  if !isValidAlias walletAlias then (disk, .ok (.error invalidAlias))
  else
    let walletPath := aliasFilePath storeDir walletAlias
    match disk.remove walletPath with
    | some disk => (disk, .ok (.ok ()))
    | none =>
      if (disk.entry walletPath).isSome then
        (disk, .ok (.error ("Failed to remove wallet alias: ".toList ++ m.message)))
      else (disk, .ok (.error ("Wallet alias not found: ".toList ++ walletAlias)))

structure ManagedWalletEntry where
  walletAlias : List Char
  network : List Char
  seedHex : List Char
  createdAt : List Char
  updatedAt : List Char

/-- The seed of a payload: sealed, or plain in files of the first version. -/
def storedSeedHex (ssl : OpenSsl) (passphrase : List Char) (payload : JsonTree) :
    Throws (Reported (List Char)) :=
  match payload.find? "seedCipher" with
  | some cipherPayload =>
    if passphrase.length < 16 then
      .ok (.error ("Set MIDNIGHT_WALLET_STORE_PASSPHRASE with at least 16 characters to unlock " ++
        "wallet seeds").toList)
    else decryptSeedHex ssl cipherPayload passphrase
  | none => do return .ok (← payload.valueString "seedHex" [])

def loadWallet (ssl : OpenSsl) (passphrase message : List Char) (disk : Disk Text)
    (storeDir : Path) (walletAlias : Name) : Throws (Reported ManagedWalletEntry) :=
  if !isValidAlias walletAlias then .ok (.error invalidAlias)
  else
    match readWalletJson format message disk (aliasFilePath storeDir walletAlias) with
    | .error e => .ok (.error e)
    | .ok payload => do
      let storedAlias ← payload.valueString "alias" walletAlias
      let network ← payload.valueString "network" []
      let createdAt ← payload.valueString "createdAt" []
      let updatedAt ← payload.valueString "updatedAt" []
      match ← storedSeedHex ssl passphrase payload with
      | .error e => return .error e
      | .ok seedHex =>
        match normalizeSeedHex seedHex with
        | none => return .error ("Stored wallet seed is invalid for alias: ".toList ++ walletAlias)
        | some seedHex =>
          let stored := if storedAlias.isEmpty then walletAlias else storedAlias
          return .ok { walletAlias := stored, network, seedHex, createdAt, updatedAt }

def loadSeedHex (ssl : OpenSsl) (passphrase message : List Char) (disk : Disk Text)
    (storeDir : Path) (walletAlias : Name) : Throws (Reported (List Char)) := do
  let entry ← loadWallet format ssl passphrase message disk storeDir walletAlias
  return entry.map (·.seedHex)

end Files

/-- The alias a name of the store directory stands for. -/
def aliasOf {Text : Type} (disk : Disk Text) (storeDir : Path) (name : Name) : Option Name :=
  if !isFile (disk.entry (storeDir ++ [name])) then none
  else
    let (stem, extension) := splitName name
    if extension ≠ jsonExtension then none
    else if isValidAlias stem then some stem else none

/-- `order` is the order in which the directory is read. -/
def listAliases {Text : Type} (order : Shuffle Name) (sorter : Sorter Name) (disk : Disk Text)
    (storeDir : Path) : List Name :=
  if (disk.entry storeDir).isNone then []
  else
    sorter.run (fun a b => a < b)
      ((order.run (disk.names storeDir)).filterMap (aliasOf disk storeDir))

/-! ## Names and seeds that come back -/

theorem splitName_append (name : Name) : (splitName name).1 ++ (splitName name).2 = name := by
  have whole := List.takeWhile_append_dropWhile (p := (· != '.')) (l := name.reverse)
  rw [splitName]
  cases behind : name.reverse.dropWhile (· != '.') with
  | nil => exact List.append_nil name
  | cons dot stem =>
    cases stem with
    | nil => exact List.append_nil name
    | cons c stem =>
      have mark : dot = '.' := by
        have head := List.head?_dropWhile_not (· != '.') name.reverse
        simpa [behind] using head
      by_cases dots : name = ['.', '.']
      · simp only [if_pos dots]
        exact List.append_nil name
      · simp only [if_neg dots]
        rw [behind, mark] at whole
        have back := congrArg List.reverse whole
        rw [List.reverse_reverse] at back
        simpa using back

theorem splitName_json {stem : Name} (h : stem ≠ []) :
    splitName (stem ++ jsonExtension) = (stem, jsonExtension) := by
  obtain ⟨front, last, rfl⟩ := (List.eq_nil_or_concat stem).resolve_left h
  have reversed : (front.concat last ++ jsonExtension).reverse =
      ['n', 'o', 's', 'j'] ++ '.' :: last :: front.reverse := by
    simp [jsonExtension]
  have dots : front.concat last ++ jsonExtension ≠ ['.', '.'] := by
    intro same
    have size := congrArg List.length same
    rw [List.length_append, List.length_concat] at size
    exact absurd size (by simp [jsonExtension])
  have dropped : (['n', 'o', 's', 'j'] ++ '.' :: last :: front.reverse).dropWhile (· != '.') =
      '.' :: last :: front.reverse := by
    simp
  have taken : (['n', 'o', 's', 'j'] ++ '.' :: last :: front.reverse).takeWhile (· != '.') =
      ['n', 'o', 's', 'j'] := by
    simp
  rw [splitName, reversed, dropped]
  simp only [if_neg dots, taken]
  simp [jsonExtension]

theorem isXDigit_iff {c : Char} : Util.isXDigit c = true ↔ c ∈ digits := by
  rw [Util.isXDigit, List.contains_iff_mem]

theorem normalizeSeedHex_eq_some {seedHex normalized : List Char} :
    normalizeSeedHex seedHex = some normalized ↔
      (Util.stripHexPrefix seedHex).length = 64 ∧ (∀ c ∈ Util.stripHexPrefix seedHex, c ∈ digits) ∧
        normalized = (Util.stripHexPrefix seedHex).map Char.toLower := by
  rw [normalizeSeedHex]
  by_cases size : (Util.stripHexPrefix seedHex).length = 64
  · by_cases hex : (Util.stripHexPrefix seedHex).all Util.isXDigit = true
    · have each : ∀ c ∈ Util.stripHexPrefix seedHex, c ∈ digits := by
        intro c hc
        exact isXDigit_iff.mp (List.all_eq_true.mp hex c hc)
      simp only [size, ne_eq, not_true_eq_false, if_false, hex, if_true, true_and, Option.some.injEq]
      exact ⟨fun h => ⟨each, h.symm⟩, fun h => h.2.symm⟩
    · have some_other : ¬∀ c ∈ Util.stripHexPrefix seedHex, c ∈ digits := by
        intro each
        exact hex (List.all_eq_true.mpr fun c hc => isXDigit_iff.mpr (each c hc))
      simp [size, hex, some_other]
  · simp [size]

/-- A normalized seed stays as it is, and is what the bytes it spells are written as. -/
theorem exists_seed {seedHex normalized : List Char}
    (h : normalizeSeedHex seedHex = some normalized) :
    ∃ seedBytes, hexDecode normalized = some seedBytes ∧ seedBytes.length = 32 ∧
      hexEncode seedBytes = normalized ∧ normalizeSeedHex normalized = some normalized := by
  obtain ⟨size, hex, rfl⟩ := normalizeSeedHex_eq_some.mp h
  obtain ⟨seedBytes, spelled⟩ := exists_spells hex (by omega)
  have written := Util.bytesToHex_of_spells spelled
  rw [← written]
  have bytes := spelled.length
  have spelled := Util.bytesToHex_spells seedBytes
  have bare : Util.stripHexPrefix (Util.bytesToHex seedBytes) = Util.bytesToHex seedBytes :=
    @Util.stripHexPrefix_digits [] _ (by simp) spelled.mem_digits
  refine ⟨seedBytes, ?_, by omega, rfl, ?_⟩
  · rw [hexDecode, Util.hexToBytes_spells spelled]
    rfl
  · rw [normalizeSeedHex_eq_some, bare]
    exact ⟨by rw [spelled.length]; omega, spelled.mem_digits, (Util.toLower_bytesToHex _).symm⟩

theorem hexDecode_hexEncode (bytes : List UInt8) : hexDecode (hexEncode bytes) = some bytes := by
  rw [hexDecode, hexEncode, Util.hexToBytes_spells (Util.bytesToHex_spells bytes)]
  rfl

theorem hexDecodeSized_hexEncode {bytes : List UInt8} {size : Nat} (h : bytes.length = size) :
    hexDecodeSized (hexEncode bytes) size = some bytes := by
  rw [hexDecodeSized, hexDecode_hexEncode, Option.filter_some, if_pos (beq_iff_eq.mpr h)]

section Seal
variable {ssl : OpenSsl} {m : Moment} {normalized passphrase : List Char} {payload : JsonTree}

/-- What a seed is sealed in. -/
theorem encryptSeedHex_eq_ok (h : encryptSeedHex ssl m normalized passphrase = .ok payload) :
    ∃ (seedBytes key ciphertext : List UInt8) (salt : Bytes 16) (nonce : Bytes 12) (tag : Bytes 16),
      hexDecode normalized = some seedBytes ∧ seedBytes.length = 32 ∧
      ssl.pbkdf2 passphrase salt = some key ∧
      ssl.encrypt key nonce seedBytes = some (ciphertext, tag) ∧
      payload = .ofFields
        [("algorithm", .string "aes-256-gcm".toList),
          ("kdf", .string "pbkdf2-hmac-sha256".toList),
          ("iterations", .integer kdfIterations.toInt),
          ("saltHex", .string (hexEncode salt)),
          ("nonceHex", .string (hexEncode nonce)),
          ("tagHex", .string (hexEncode tag)),
          ("ciphertextHex", .string (hexEncode ciphertext))] := by
  rw [encryptSeedHex] at h
  cases decoded : hexDecode normalized with
  | none =>
    rw [decoded] at h
    cases h
  | some seedBytes =>
    by_cases size : seedBytes.length = 32
    · simp only [decoded, size, ne_eq, not_true_eq_false, if_false] at h
      split at h
      · rename_i salt nonce _ _
        split at h
        · cases h
        · rename_i key hkey
          split at h
          · cases h
          · rename_i ciphertext tag sealed'
            cases h
            exact ⟨seedBytes, key, ciphertext, salt, nonce, tag, rfl, size, hkey, sealed', rfl⟩
      · cases h
    · simp only [decoded, size, ne_eq, not_false_eq_true, if_true] at h
      cases h

/-- Under the same passphrase the seed comes out again. -/
theorem decryptSeedHex_encryptSeedHex
    (h : encryptSeedHex ssl m normalized passphrase = .ok payload) :
    ∃ seedBytes, hexDecode normalized = some seedBytes ∧
      decryptSeedHex ssl payload passphrase = .ok (.ok (hexEncode seedBytes)) := by
  obtain ⟨seedBytes, key, ciphertext, salt, nonce, tag, decoded, size, hkey, sealed', rfl⟩ :=
    encryptSeedHex_eq_ok h
  refine ⟨seedBytes, decoded, ?_⟩
  generalize hpayload : JsonTree.ofFields _ = payload
  have saltHex : payload.valueString "saltHex" [] = .ok (hexEncode salt) :=
    hpayload ▸ valueString_ofFields (by simp) rfl []
  have nonceHex : payload.valueString "nonceHex" [] = .ok (hexEncode nonce) :=
    hpayload ▸ valueString_ofFields (by simp) rfl []
  have tagHex : payload.valueString "tagHex" [] = .ok (hexEncode tag) :=
    hpayload ▸ valueString_ofFields (by simp) rfl []
  have ciphertextHex : payload.valueString "ciphertextHex" [] = .ok (hexEncode ciphertext) :=
    hpayload ▸ valueString_ofFields (by simp) rfl []
  have iterations : payload.value getInt32 "iterations" kdfIterations = .ok kdfIterations := by
    rw [← hpayload, value_ofFields (by simp) rfl]
    exact getInt32_toInt _
  have object : payload.isObject = true := by
    rw [← hpayload]
    rfl
  have full : ciphertext.isEmpty = false := by
    have length := ssl.encrypt_length sealed'
    cases ciphertext with
    | nil =>
      rw [List.length_nil] at length
      omega
    | cons b rest => rfl
  simp only [decryptSeedHex, object, Bool.not_true, Bool.false_eq_true, if_false, saltHex, nonceHex,
    tagHex, ciphertextHex, iterations, ok_bind, ne_eq, not_true_eq_false,
    hexDecodeSized_hexEncode salt.2, hexDecodeSized_hexEncode nonce.2, hexDecodeSized_hexEncode tag.2,
    hexDecode_hexEncode, Option.filter_some, full, Bool.not_false, if_true, hkey,
    ssl.decrypt_encrypt sealed', size]
  rfl

theorem plain_encryptSeedHex (h : encryptSeedHex ssl m normalized passphrase = .ok payload) :
    payload.Plain := by
  obtain ⟨seedBytes, key, ciphertext, salt, nonce, tag, -, -, -, -, rfl⟩ := encryptSeedHex_eq_ok h
  apply Plain.ofFields
  simp only [List.mem_cons, List.not_mem_nil, or_false, forall_eq_or_imp, forall_eq]
  exact ⟨.string _, .string _, .integer (by decide) (by decide), .string _, .string _, .string _, .string _⟩

end Seal

end MidnightSdk.Blockchain.WalletManager
