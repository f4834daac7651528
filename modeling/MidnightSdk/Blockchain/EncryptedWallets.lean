import MidnightSdk.Blockchain.WalletStore
import MidnightSdk.Wallet.EncryptedSave

/-!
# Encrypted states in the wallet store

The store takes the facade's encrypted save as a text and reads it back with a
base64 decoder of its own.
-/

namespace MidnightSdk.Blockchain.WalletManager

open Cpp Crypto FileTree JsonTree Wallet

/-- Character by character the facade's decoder, the end of a text included. -/
def base64DecodeState (input : List Char) : Option (List UInt8) := some (decodeLoop [] (bytesOf input))

/-- The decrypted state is a text of bytes. -/
def loadEncrypted {Text : Type} (format : JsonFormat Text) (sodium : Sodium) (message : List Char)
    (disk : Disk Text) (storeDir : Path) (walletAlias : Name) (password : List UInt8) :
    Throws (Reported (List UInt8)) :=
  if !isValidAlias walletAlias then .ok (.error invalidAlias)
  else
    match readWalletJson format message disk (aliasFilePath storeDir walletAlias) with
    | .error e => .ok (.error e)
    | .ok payload => do
      let version ← payload.value getInt32 "version" 1
      if version ≠ 3 then
        return .error ("Wallet is not in encrypted format (version ".toList ++
          (toString version.toInt).toList ++ ")".toList)
      let encryptedState ← payload.valueString "encryptedState" []
      if encryptedState.isEmpty then
        return .error "Wallet file is missing encrypted state data".toList
      match base64DecodeState encryptedState with
      | none => return .error "Failed to decode encrypted state - invalid base64".toList
      | some decoded => do
        match ← EncryptedState.decrypt sodium decoded password with
        | none => return .error "Failed to decrypt wallet - wrong password or corrupted data".toList
        | some decrypted => return .ok decrypted

/-! ## What is stored is there -/

section Stored
variable {Text : Type} {format : JsonFormat Text} {m : Moment} {disk disk' : Disk Text}
  {storeDir : Path} {walletAlias : Name}

/-- Whatever was on the disk: a payload whose storing succeeds is in the wallet's file. -/
theorem file?_writeWalletJson {payload : JsonTree}
    (h : writeWalletJson format m disk (aliasFilePath storeDir walletAlias) payload =
      (disk', .ok (.ok ()))) :
    ∃ text, format.dump payload = .ok text ∧
      disk'.file? (aliasFilePath storeDir walletAlias) = some text := by
  have apart := @tempPath_ne storeDir walletAlias walletAlias m.ticks
  rw [writeWalletJson] at h
  generalize tempPath (aliasFilePath storeDir walletAlias) m.ticks = temp at h apart
  dsimp only at h
  cases hopened : disk.writeFile temp format.blank with
  | none =>
    rw [hopened] at h
    cases h
  | some opened =>
    rw [hopened] at h
    cases hdump : format.dump payload with
    | error e =>
      rw [hdump] at h
      cases h
    | ok text =>
      simp only [hdump] at h
      have fileOpened : opened.entry temp = some (.file format.blank) := by
        rw [Tree.entry_writeFile hopened, if_pos rfl]
      obtain ⟨written, hwritten⟩ := Tree.exists_overwrite fileOpened text
      rw [hwritten, Option.getD_some] at h
      split at h
      · cases h
      · rename_i cleared hcleared
        have fileCleared : cleared.entry temp = some (.file text) := by
          have fileWritten : written.entry temp = some (.file text) := by
            rw [Tree.entry_writeFile hwritten, if_pos rfl]
          split at hcleared
          · rw [Tree.entry_remove hcleared, if_neg apart, fileWritten]
          · cases hcleared
            exact fileWritten
        split at h
        · cases h
        · rename_i moved hmoved
          cases h
          exact ⟨text, rfl, Tree.file?_rename fileCleared apart hmoved⟩

theorem file?_saveEncrypted {encryptedState : List Char}
    (h : saveEncrypted format m disk storeDir walletAlias encryptedState = (disk', .ok (.ok ()))) :
    isValidAlias walletAlias = true ∧ ∃ createdAt text,
      format.dump (.ofFields [("version", .integer 3), ("alias", .string walletAlias),
        ("encryptedState", .string encryptedState), ("createdAt", .string createdAt),
        ("updatedAt", .string m.updatedAt)]) = .ok text ∧
      disk'.file? (aliasFilePath storeDir walletAlias) = some text := by
  rw [saveEncrypted] at h
  cases valid : isValidAlias walletAlias with
  | false =>
    rw [valid] at h
    cases h
  | true =>
    rw [valid, saveWallet] at h
    simp only [Bool.not_true, Bool.false_eq_true, if_false] at h
    split at h
    · cases h
    · split at h
      · cases h
      · rename_i createdAt _
        exact ⟨rfl, createdAt, file?_writeWalletJson h⟩

/-- After a save the state is decoded and decrypted from the text that was saved. -/
theorem loadEncrypted_saved (sodium : Sodium) (message : List Char) (password : List UInt8)
    {encryptedState : List Char} (hne : encryptedState ≠ [])
    (h : saveEncrypted format m disk storeDir walletAlias encryptedState = (disk', .ok (.ok ()))) :
    loadEncrypted format sodium message disk' storeDir walletAlias password = do
      match ← EncryptedState.decrypt sodium (decodeLoop [] (bytesOf encryptedState)) password with
      | none => return .error "Failed to decrypt wallet - wrong password or corrupted data".toList
      | some decrypted => return .ok decrypted := by
  obtain ⟨valid, createdAt, text, dumped, file⟩ := file?_saveEncrypted h
  have plain : (JsonTree.ofFields [("version", .integer 3), ("alias", .string walletAlias),
      ("encryptedState", .string encryptedState), ("createdAt", .string createdAt),
      ("updatedAt", .string m.updatedAt)]).Plain := by
    apply Plain.ofFields
    simp only [List.mem_cons, List.not_mem_nil, or_false, forall_eq_or_imp, forall_eq]
    exact ⟨.integer (by decide) (by decide), .string _, .string _, .string _, .string _⟩
  have read := format.parse_dump plain dumped
  generalize hpayload : JsonTree.ofFields _ = payload at read
  have version : payload.value getInt32 "version" 1 = .ok 3 := by
    rw [← hpayload, value_ofFields (by simp) rfl]
    rfl
  have state : payload.valueString "encryptedState" [] = .ok encryptedState :=
    hpayload ▸ valueString_ofFields (by simp) rfl []
  have some_state : encryptedState.isEmpty = false := by
    rw [← Bool.not_eq_true, List.isEmpty_iff]
    exact hne
  simp only [loadEncrypted, valid, Bool.not_true, Bool.false_eq_true, if_false, readWalletJson,
    Tree.file?_eq_some.mp file, read, version, state, ok_bind, some_state, base64DecodeState,
    ne_eq, not_true_eq_false]

end Stored

/-! ## The facade's saves -/

theorem base64DecodeState_encode_iff (x : List UInt8) :
    base64DecodeState (textOf (base64Encode x)) = some x ↔ x.length % 3 = 0 := by
  rw [base64DecodeState, bytesOf_textOf]
  exact base64Decode_encode_iff x

theorem base64Encode_ne_nil : ∀ {x : List UInt8}, x ≠ [] → base64Encode x ≠ []
  | [], h => absurd rfl h
  | [_], _ => by simp [base64Encode, encodeTail]
  | [_, _], _ => by simp [base64Encode, encodeTail]
  | a :: b :: c :: rest, _ => by simp [base64Encode, sextets]

section Facade
variable {Text : Type} {format : JsonFormat Text} {m : Moment} {disk disk' : Disk Text}
  {storeDir : Path} {walletAlias : Name} {sodium : Sodium} {text : JsonText} {random : Randomness}
  {w : StoredFacade} {now : UInt64} {password saved : List UInt8}

theorem loadEncrypted_serializeEncrypted
    (exact_box : ∀ {box nonce key plaintext}, sodium.secretboxOpen box nonce key = some plaintext →
      sodium.secretbox plaintext nonce key = some box)
    (h : w.serializeEncrypted sodium text random now password = .ok saved)
    (stored : saveEncrypted format m disk storeDir walletAlias (textOf saved) =
      (disk', .ok (.ok ()))) (message : List Char) :
    loadEncrypted format sodium message disk' storeDir walletAlias password =
        .ok (.ok (w.serialize text now)) ↔ (w.serialize text now).length % 3 = 0 := by
  obtain ⟨created, hcreated, rfl⟩ := serializeEncrypted_eq_ok h
  have size := EncryptedState.create_length hcreated
  have written : textOf (base64Encode created) ≠ [] := by
    have some_bytes : created ≠ [] := List.ne_nil_of_length_pos (by omega)
    rw [textOf, ne_eq, List.map_eq_nil_iff]
    exact base64Encode_ne_nil some_bytes
  obtain ⟨whole, tail, garbled, hsplit, hdecoded, htail, hgarbled, hne⟩ :=
    decodeLoop_base64Encode created
  rw [loadEncrypted_saved sodium message password written stored, bytesOf_textOf, hdecoded]
  constructor
  · intro loaded
    by_contra hmod
    obtain ⟨key, kept, hkey, hbox, rfl⟩ := garbled_box hcreated hsplit (by omega)
    have box := sodium.secretbox_length hbox
    have long : tagSize ≤ (kept ++ garbled).length := by
      rw [List.length_append, hgarbled, ← List.length_append, box]
      omega
    rw [List.append_assoc, List.append_assoc,
      EncryptedState.decrypt_layout random.salt_length random.nonce_length long hkey] at loaded
    cases opened : sodium.secretboxOpen (kept ++ garbled) random.nonce key with
    | none =>
      rw [opened] at loaded
      cases loaded
    | some plaintext =>
      rw [opened] at loaded
      cases loaded
      -- only one box holds this state under this nonce and key
      have same := Option.some.inj ((exact_box opened).symm.trans hbox)
      have some_tail : tail ≠ [] := by
        rintro rfl
        rw [List.length_nil] at htail
        omega
      exact hne some_tail (List.append_cancel_left same)
  · intro hmod
    obtain rfl : tail = [] := List.length_eq_zero_iff.mp (by omega)
    obtain rfl : garbled = [] := List.length_eq_zero_iff.mp hgarbled
    rw [← hsplit, EncryptedState.decrypt_create hcreated]
    rfl

end Facade

/-- **The store's decoder gives back exactly the texts without a tail**, and so the store
the states whose text has none. -/
theorem loadEncrypted_iff (sodium : Sodium)
    (exact_box : ∀ {box nonce key plaintext}, sodium.secretboxOpen box nonce key = some plaintext →
      sodium.secretbox plaintext nonce key = some box) :
    (∀ x, base64DecodeState (textOf (base64Encode x)) = some x ↔ x.length % 3 = 0) ∧
    ∀ {Text : Type} (format : JsonFormat Text) (text : JsonText) (random : Randomness)
      (w : StoredFacade) (now : UInt64) (password saved : List UInt8) (m : Moment)
      (disk disk' : Disk Text) (storeDir : Path) (walletAlias : Name) (message : List Char),
      w.serializeEncrypted sodium text random now password = .ok saved →
      saveEncrypted format m disk storeDir walletAlias (textOf saved) = (disk', .ok (.ok ())) →
      (loadEncrypted format sodium message disk' storeDir walletAlias password =
        .ok (.ok (w.serialize text now)) ↔ (w.serialize text now).length % 3 = 0) := by
  refine ⟨base64DecodeState_encode_iff, ?_⟩
  intro Text format text random w now password saved m disk disk' storeDir walletAlias message h
    stored
  exact loadEncrypted_serializeEncrypted exact_box h stored message

theorem base64Encode_ascii : ∀ x : List UInt8, ∀ c ∈ base64Encode x, c.toNat < 0x80 := by
  have letter (n : UInt8) : (b64Char n).toNat < 0x80 := by
    have all : b64Chars.Forall fun c => c.toNat < 0x80 := by decide
    rw [b64Char]
    cases found : b64Chars[n.toNat]? with
    | none => decide
    | some c => exact List.forall_iff_forall_mem.mp all c (List.mem_of_getElem? found)
  have letters (vs : List UInt8) : ∀ c ∈ vs.map b64Char, c.toNat < 0x80 := by
    intro c hc
    obtain ⟨v, -, rfl⟩ := List.mem_map.mp hc
    exact letter v
  have tail (bytes : List UInt8) : ∀ c ∈ encodeTail bytes, c.toNat < 0x80 := by
    intro c hc
    rcases List.mem_append.mp hc with hc | hc
    · exact letters _ c hc
    · rw [(List.mem_replicate.mp hc).2]
      decide
  intro x
  induction x using base64Encode.induct with
  | case1 a b c rest ih =>
    intro d hd
    rcases List.mem_append.mp hd with hd | hd
    · exact letters _ d hd
    · exact ih d hd
  | case2 => nofun
  | case3 bytes long short =>
    rw [base64Encode]
    · exact tail bytes
    · exact long
    · exact short

/-- On an empty disk a facade's save can be stored. -/
theorem saveEncrypted_empty (x : List UInt8) :
    ∃ disk', saveEncrypted JsonFormat.values noon Tree.empty ["wallets".toList]
      "alice-01".toList (textOf (base64Encode x)) = (disk', .ok (.ok ())) := by
  obtain ⟨made, hmade⟩ : ∃ made, (Tree.empty : Disk (Option JsonTree)).createDirectories
      ["wallets".toList] = some made := Option.isSome_iff_exists.mp (by decide)
  have absent : made.entry (aliasFilePath ["wallets".toList] "alice-01".toList) = none := by
    rw [entry_createDirectories_wallet hmade]
    exact Tree.entry_empty (by decide)
  have free : made.entry (tempPath (aliasFilePath ["wallets".toList] "alice-01".toList)
      noon.ticks) ≠ some .directory := by
    rw [Tree.entry_createDirectories hmade, if_neg]
    · rw [Tree.entry_empty (by decide)]
      nofun
    · rintro ⟨above, -⟩
      exact absurd above.length_le (by decide)
  have letters : utf8 (textOf (base64Encode x)) = true := by
    apply utf8_of_ascii
    intro c hc
    obtain ⟨b, hb, rfl⟩ := List.mem_map.mp hc
    rw [toNat_ofNat_byte]
    exact base64Encode_ascii x b hb
  obtain ⟨text, dumped⟩ : ∃ text, JsonFormat.values.dump (.ofFields
      ([("version", .integer 3), ("alias", .string "alice-01".toList),
        ("encryptedState", .string (textOf (base64Encode x)))] ++
        [("createdAt", .string noon.createdAt), ("updatedAt", .string noon.updatedAt)])) =
      .ok text := by
    apply JsonFormat.values.dump_writable
    rw [writable_ofFields (by simp)]
    simp only [List.mem_append, List.mem_cons, List.not_mem_nil, or_false, or_imp, forall_and,
      forall_eq, writable, letters]
    decide
  have valid : isValidAlias "alice-01".toList = true := by decide
  have created : createdAtOf JsonFormat.values noon made
      (aliasFilePath ["wallets".toList] "alice-01".toList) = .ok noon.createdAt.1 := by
    rw [createdAtOf, readWalletJson, absent]
  simp only [saveEncrypted, valid, Bool.not_true, Bool.false_eq_true, if_false, saveWallet, hmade,
    created]
  exact writeWalletJson_done (Tree.directory_of_createDirectories hmade)
    (by rw [absent]; nofun) free dumped

theorem endSealed_exact {box nonce key plaintext : List UInt8}
    (h : endSealed.secretboxOpen box nonce key = some plaintext) :
    endSealed.secretbox plaintext nonce key = some box := by
  change (if _ then some (box.drop tagSize) else none) = _ at h
  split at h
  · rename_i tagged
    cases h
    change some (endTag (box.drop tagSize) ++ box.drop tagSize) = some box
    rw [← tagged, List.take_append_drop]
  · cases h

theorem loadEncrypted_new : ∃ saved disk',
    StoredFacade.serializeEncrypted endSealed newSave noRandomness {} 10 (literal "password") =
      .ok saved ∧
    saveEncrypted JsonFormat.values noon Tree.empty ["wallets".toList] "alice-01".toList
      (textOf saved) = (disk', .ok (.ok ())) ∧
    loadEncrypted JsonFormat.values endSealed [] disk' ["wallets".toList] "alice-01".toList
      (literal "password") = .ok (.ok (saveText [])) := by
  have written := serializeEncrypted_endSealed newSave {} 10 (literal "password")
  obtain ⟨disk', stored⟩ := saveEncrypted_empty (currentVersion :: noRandomness.salt ++
    (noRandomness.nonce ++ (endTag (StoredFacade.serialize newSave {} 10) ++
      StoredFacade.serialize newSave {} 10)))
  have loaded := (loadEncrypted_iff endSealed endSealed_exact).2 JsonFormat.values newSave
    noRandomness {} 10 (literal "password") _ noon Tree.empty disk' ["wallets".toList]
    "alice-01".toList [] written stored
  rw [serialize_newSave] at loaded
  exact ⟨_, disk', written, stored, loaded.mpr saveText_length⟩

theorem base64DecodeState_garbles :
    base64DecodeState (textOf (base64Encode [102])) ≠ some [102] := by decide

end MidnightSdk.Blockchain.WalletManager
