import MidnightSdk.Library.Ed25519
import MidnightSdk.Library.Sha256
import MidnightSdk.Signing.KeyManager

/-!
# Loading what was saved

The private key, the public key and the type come back from a key file that was
kept up to its last line break. The seed does not: no line of the file says it,
and none is read.
-/

namespace MidnightSdk.Signing.KeyManager

open BigEndian Cpp Crypto HexText TextSearch

/-! ## Hex text -/

theorem nibblePairs_spells {text : List Char} {bytes : List UInt8} (h : Spells text bytes) :
    nibblePairs text = some bytes := by
  induction h with
  | nil => rfl
  | @byte hi lo text b bytes high low _ ih =>
    have hb := b.toNat_lt
    have whole : (b.toNat / 16) <<< 4 ||| b.toNat % 16 = b.toNat := by
      have below : b.toNat % 16 < 2 ^ 4 := Nat.mod_lt _ (by decide)
      rw [← Nat.shiftLeft_add_eq_or_of_lt below, Nat.shiftLeft_eq]
      omega
    rw [nibblePairs, Zk.hexNibble_eq, Zk.hexNibble_eq, Util.hexNibble_eq high,
      Util.hexNibble_eq low, if_neg (by omega), ih, Option.map_some, Int.toNat_natCast,
      Int.toNat_natCast, whole, UInt8.ofNat_toNat]

theorem hexToBytes_prefixedHex (bytes : List UInt8) :
    hexToBytes (prefixedHex bytes) = some bytes := by
  have spelled := Util.bytesToHex_spells bytes
  have length := spelled.length
  have marked : ['0', 'x'].isPrefixOf (prefixedHex bytes) = true :=
    List.isPrefixOf_iff_prefix.mpr (List.prefix_append _ _)
  rw [hexToBytes]
  simp only [marked, if_true]
  change (if (Util.bytesToHex bytes).length % 2 ≠ 0 then none
    else nibblePairs (Util.bytesToHex bytes)) = some bytes
  rw [if_neg (by omega), nibblePairs_spells spelled]

theorem newline_not_mem_prefixedHex (bytes : List UInt8) : '\n' ∉ prefixedHex bytes := by
  rw [prefixedHex, List.mem_append, not_or]
  exact ⟨by decide, EncryptedKey.not_mem_of_digits (EncryptedKey.digits_bytesToHex bytes)
    (by decide)⟩

/-! ## The mark -/

theorem mark_not_mem_toJson (e : EncryptedKey) : '[' ∉ e.toJson := by
  have hex (bytes : List UInt8) : '[' ∉ Util.bytesToHex bytes :=
    EncryptedKey.not_mem_of_digits (EncryptedKey.digits_bytesToHex bytes) (by decide)
  have version : '[' ∉ e.version.toNat.repr.toList :=
    EncryptedKey.not_mem_of_digits (EncryptedKey.digits_repr e.version) (by decide)
  simp only [EncryptedKey.toJson, List.mem_append, hex, version, not_or, not_false_eq_true,
    and_true]
  decide

theorem find_metadataMark (e : EncryptedKey) (rest : List Char) :
    find metadataMark (e.toJson ++ ['\n'] ++ metadataMark ++ rest) =
      some (e.toJson.length + 1) := by
  have front : '[' ∉ e.toJson ++ ['\n'] := by
    rw [List.mem_append, not_or]
    exact ⟨mark_not_mem_toJson e, by decide⟩
  have here : find metadataMark (metadataMark ++ rest) = some 0 :=
    find_of_prefix (List.prefix_append _ _)
  have found : find metadataMark (e.toJson ++ ['\n'] ++ (metadataMark ++ rest)) =
      (find metadataMark (metadataMark ++ rest)).map (· + (e.toJson ++ ['\n']).length) :=
    find_append front
  rw [List.append_assoc, found, here]
  simp

/-! ## The lines -/

/-- The metadata up to where the public key starts. -/
def header (type : KeyType) : List Char :=
  ['\n'] ++ ("type=".toList ++ type.toInt.repr.toList ++ ['\n']) ++ "public_key=".toList

def loaded (type : KeyType) (publicKey : List Char) : Metadata :=
  ⟨⟨type, publicKey, [], []⟩, []⟩

theorem readLine_publicKey (state : Metadata) (value : List Char) :
    readLine state ("public_key=".toList ++ value) =
      .ok { state with keypair := { state.keypair with publicKey := value } } := rfl

theorem lines_header {type : KeyType} (h : type ∈ KeyType.named) (text : List Char) :
    ((header type ++ text).splitOn '\n').foldlM readLine .empty =
      (("public_key=".toList ++ text).splitOn '\n').foldlM readLine (loaded type []) := by
  have first (rest : List Char) : ('\n' :: rest).splitOn '\n' = [] :: rest.splitOn '\n' :=
    List.splitOn_append_cons_self_of_not_mem List.not_mem_nil rest
  have second (rest : List Char) :
      (("type=".toList ++ type.toInt.repr.toList) ++ '\n' :: rest).splitOn '\n' =
        ("type=".toList ++ type.toInt.repr.toList) :: rest.splitOn '\n' := by
    apply List.splitOn_append_cons_self_of_not_mem
    revert type
    decide
  have layout : header type ++ text = '\n' :: (("type=".toList ++ type.toInt.repr.toList) ++
      '\n' :: ("public_key=".toList ++ text)) := by
    simp [header]
  have blank : readLine .empty [] = .ok .empty := rfl
  have line : readLine .empty ("type=".toList ++ type.toInt.repr.toList) = .ok (loaded type []) := by
    simp only [KeyType.named, List.mem_cons, List.not_mem_nil, or_false] at h
    rcases h with rfl | rfl | rfl | rfl | rfl <;> rfl
  rw [layout, first, second, List.foldlM_cons, blank, ok_bind, List.foldlM_cons, line, ok_bind]

theorem readMetadata_header {type : KeyType} (h : type ∈ KeyType.named) {publicKey : List Char}
    (hkey : '\n' ∉ publicKey) :
    readMetadata (header type ++ publicKey) = .ok (loaded type publicKey) ∧
      readMetadata (header type ++ (publicKey ++ ['\n'])) = .ok (loaded type publicKey) := by
  have single : '\n' ∉ "public_key=".toList ++ publicKey := by
    rw [List.mem_append, not_or]
    exact ⟨by decide, hkey⟩
  constructor
  · rw [readMetadata, lines_header h, List.splitOn_eq_singleton single, List.foldlM_cons,
      readLine_publicKey]
    rfl
  · rw [readMetadata, lines_header h, ← List.append_assoc,
      List.splitOn_append_cons_self_of_not_mem single, List.foldlM_cons, readLine_publicKey]
    rfl

/-- A file cut in front of the public key has none. -/
theorem publicKey_cut {type : KeyType} (h : type ∈ KeyType.named) {m : ℕ}
    (hm : m < (header type).length) {state : Metadata}
    (hread : readMetadata ((header type).take m) = .ok state) : state.keypair.publicKey = [] := by
  have all : ∀ type ∈ KeyType.named, ∀ m < (header type).length,
      (readMetadata ((header type).take m)).toOption.all
        (fun state => state.keypair.publicKey == []) = true := by
    decide
  have here := all type h m hm
  rw [hread] at here
  exact beq_iff_eq.mp here

/-! ## The file -/

/-- `encrypt_key` and `decrypt_key` undo one another. -/
def KeyCipher.Correct (cipher : KeyCipher) : Prop :=
  ∀ draw keyBytes password config e,
    cipher.encryptKey draw keyBytes password config = some e →
      cipher.decryptKey e password = some keyBytes

def metadataText (e : EncryptedKey) (k : Keypair) : List Char :=
  header k.type ++ (k.publicKey ++ ['\n']) ++
    (if k.seed.isEmpty then [] else "seed_encrypted=".toList ++ e.toJson ++ ['\n'])

theorem fileText_eq (e : EncryptedKey) (k : Keypair) :
    fileText e k = e.toJson ++ ['\n'] ++ metadataMark ++ metadataText e k := by
  simp only [fileText, metadataText, header, List.append_assoc]

theorem front_length (e : EncryptedKey) :
    (e.toJson ++ ['\n'] ++ metadataMark).length = e.toJson.length + 1 + 16 := by
  rw [List.length_append, List.length_append]
  rfl

variable {cipher : KeyCipher} {e : EncryptedKey} {password : List UInt8} {k k' : Keypair}

/-- A file cut at the mark or before it is not a key file; behind the mark the metadata
is cut. -/
theorem loadKey_cut (metaText : List Char) (m : ℕ) :
    loadKey cipher (some ((e.toJson ++ ['\n'] ++ metadataMark ++ metaText).take m)) password =
        some k' ↔
      (e.toJson ++ ['\n'] ++ metadataMark).length ≤ m ∧ ∃ state privateKey,
        readMetadata (metaText.take (m - (e.toJson ++ ['\n'] ++ metadataMark).length)) = .ok state ∧
        decryptHexKey cipher e password = some privateKey ∧
        k' = { state.keypair with privateKey } := by
  have line : (e.toJson ++ ['\n']).length = e.toJson.length + 1 := by
    rw [List.length_append, List.length_singleton]
  by_cases hm : (e.toJson ++ ['\n'] ++ metadataMark).length ≤ m
  · rw [List.take_append, List.take_of_length_le hm]
    generalize metaText.take (m - (e.toJson ++ ['\n'] ++ metadataMark).length) = kept
    have front : (e.toJson ++ ['\n'] ++ metadataMark ++ kept).take (e.toJson.length + 1) =
        e.toJson ++ ['\n'] := by
      rw [List.append_assoc, List.take_left' line]
    have back : (e.toJson ++ ['\n'] ++ metadataMark ++ kept).drop (e.toJson.length + 1 + 16) =
        kept := List.drop_left' (front_length e)
    rw [loadKey]
    simp only [Option.bind_eq_bind, Option.bind_some, find_metadataMark, front, back,
      EncryptedKey.fromJson_append, Option.bind_eq_some_iff, hm, true_and]
    constructor
    · rintro ⟨state, hstate, privateKey, hkey, whole⟩
      cases read : readMetadata kept with
      | error exception =>
        rw [read] at hstate
        cases hstate
      | ok state' =>
        rw [read] at hstate
        cases hstate
        cases whole
        exact ⟨state, privateKey, rfl, hkey, rfl⟩
    · rintro ⟨state, privateKey, hstate, hkey, rfl⟩
      exact ⟨state, by rw [hstate]; rfl, privateKey, hkey, rfl⟩
  · simp only [hm, false_and, iff_false]
    intro loaded
    rw [loadKey, Option.bind_eq_bind, Option.bind_some, Option.bind_eq_bind,
      Option.bind_eq_some_iff] at loaded
    obtain ⟨pos, found, -⟩ := loaded
    have whole := find_append_right found
      ((e.toJson ++ ['\n'] ++ metadataMark ++ metaText).drop m)
    rw [List.take_append_drop, find_metadataMark, Option.some.injEq] at whole
    have fits := (prefix_of_find found).length_le
    have size : metadataMark.length = 16 := rfl
    rw [List.length_drop, List.length_take, size] at fits
    rw [front_length] at hm
    omega

/-- What all the generators make of the bytes of their keys. -/
theorem Produced.fields (h : Produced k) : k.type ∈ KeyType.named ∧
    ∃ publicKey privateKey, k.publicKey = prefixedHex publicKey ∧
      k.privateKey = prefixedHex privateKey := by
  have caught_fields {priv pub : ℕ} {type : KeyType} {answer : Throws (Bytes priv × Bytes pub)}
      (hnamed : type ∈ KeyType.named) (hk : caught type answer = some k) :
      k.type ∈ KeyType.named ∧ ∃ publicKey privateKey, k.publicKey = prefixedHex publicKey ∧
        k.privateKey = prefixedHex privateKey := by
    cases answer with
    | error exception => cases hk
    | ok keys =>
      cases hk
      exact ⟨hnamed, keys.2.1, keys.1.1, rfl, rfl⟩
  cases h with
  | @sr25519 hasSodium answer _ h =>
    cases hasSodium with
    | false => cases h
    | true => exact caught_fields (by decide) (Except.ok.inj h)
  | @ed25519 hasSodium answer _ h =>
    cases hasSodium with
    | false => cases h
    | true =>
      have hnamed : KeyType.ed25519 ∈ KeyType.named := by decide
      obtain ⟨keys, -, hk⟩ := bind_eq_ok.mp h
      cases hk
      exact ⟨hnamed, keys.1.1, keys.2.1, rfl, rfl⟩
  | bip340 h => exact caught_fields (by decide) h
  | ecdsa h => exact caught_fields (by decide) h
  | bls h => exact caught_fields (by decide) h
  | @imported hasSodium lib seedPhrase type _ hnamed h =>
    cases hasSodium with
    | false => cases h
    | true =>
      obtain ⟨keys, -, hk⟩ := bind_eq_ok.mp h
      cases hk
      exact ⟨hnamed, keys.1.1, keys.2.1, rfl, rfl⟩

theorem saveKey_eq_true {draw : cipher.Draw} {file : KeyFile} {content : List Char}
    (h : saveKey cipher draw file k password = (true, some content)) :
    ∃ e, encryptHexKey cipher draw k.privateKey password saveConfig = some e ∧
      content = (fileText e k).take file.kept := by
  rw [saveKey] at h
  split at h
  · cases h
  · rename_i e he
    split at h
    · cases h
    · cases h
      exact ⟨e, he, rfl⟩

theorem decryptHexKey_encryptHexKey (correct : cipher.Correct) {draw : cipher.Draw}
    {config : KeyEncryptionConfig} {bytes : List UInt8}
    (h : encryptHexKey cipher draw (prefixedHex bytes) password config = some e) :
    decryptHexKey cipher e password = some (prefixedHex bytes) := by
  rw [encryptHexKey, hexToBytes_prefixedHex] at h
  rw [decryptHexKey, correct _ _ _ _ _ h, Option.map_some]

/-- No line sets the seed. -/
theorem readLine_seed {state state' : Metadata} {line : List Char}
    (h : readLine state line = .ok state') : state'.keypair.seed = state.keypair.seed := by
  rw [readLine] at h
  split at h
  · cases h
    rfl
  · dsimp only at h
    split at h
    · obtain ⟨number, -, hstate⟩ := bind_eq_ok.mp h
      cases hstate
      rfl
    · split at h
      · cases h
        rfl
      · split at h <;> cases h <;> rfl

theorem readMetadata_seed {metaSection : List Char} {state : Metadata}
    (h : readMetadata metaSection = .ok state) : state.keypair.seed = [] := by
  have run (lines : List (List Char)) {start : Metadata}
      (hrun : lines.foldlM readLine start = .ok state) :
      state.keypair.seed = start.keypair.seed := by
    induction lines generalizing start with
    | nil =>
      cases hrun
      rfl
    | cons line lines ih =>
      rw [List.foldlM_cons] at hrun
      obtain ⟨next, hline, hrest⟩ := bind_eq_ok.mp hrun
      rw [ih hrest, readLine_seed hline]
  exact run _ h

/-- The public key is read back when at most the line break behind it is missing. -/
theorem publicKey_take {type : KeyType} (h : type ∈ KeyType.named) {publicKey : List Char}
    (hkey : '\n' ∉ publicKey) (hne : publicKey ≠ []) {m : ℕ} {state : Metadata}
    (hread : readMetadata ((header type ++ (publicKey ++ ['\n'])).take m) = .ok state)
    (same : state.keypair.publicKey = publicKey) : (header type ++ publicKey).length ≤ m := by
  by_contra short
  rw [List.length_append] at short
  by_cases hm : m < (header type).length
  · rw [List.take_append_of_le_length (Nat.le_of_lt hm)] at hread
    exact hne (same.symm.trans (publicKey_cut h hm hread))
  · have part : (publicKey ++ ['\n']).take (m - (header type).length) =
        publicKey.take (m - (header type).length) :=
      List.take_append_of_le_length (by omega)
    have unbroken : '\n' ∉ publicKey.take (m - (header type).length) :=
      fun hmem => hkey (List.mem_of_mem_take hmem)
    rw [List.take_append, List.take_of_length_le (Nat.le_of_not_lt hm), part,
      (readMetadata_header h unbroken).1, Except.ok.injEq] at hread
    subst hread
    have length := congrArg List.length same
    simp only [loaded, List.length_take] at length
    omega

theorem readMetadata_take {type : KeyType} (h : type ∈ KeyType.named) {publicKey : List Char}
    (hkey : '\n' ∉ publicKey) {m : ℕ} (hm : (header type ++ publicKey).length ≤ m) :
    readMetadata ((header type ++ (publicKey ++ ['\n'])).take m) = .ok (loaded type publicKey) := by
  obtain ⟨unbroken, broken⟩ := readMetadata_header h hkey
  rw [← List.append_assoc] at broken ⊢
  rw [List.take_append, List.take_of_length_le hm]
  rcases Nat.eq_zero_or_pos (m - (header type ++ publicKey).length) with none | some
  · rw [none, List.take_zero, List.append_nil, unbroken]
  · rw [List.take_of_length_le some, broken]

/-- **What is loaded of a saved key**: the key itself, when it has no seed and the file
kept all but its last line break. -/
theorem loadKey_saveKey_iff (correct : cipher.Correct) (produced : Produced k)
    {draw : cipher.Draw} {file : KeyFile} {content : List Char}
    (saved : saveKey cipher draw file k password = (true, some content)) :
    loadKey cipher (some content) password = some k ↔
      k.seed = [] ∧ ∀ e, encryptHexKey cipher draw k.privateKey password saveConfig = some e →
        (fileText e k).length ≤ file.kept + 1 := by
  obtain ⟨hnamed, publicBytes, privateBytes, hpublic, hprivate⟩ := produced.fields
  have unbroken : '\n' ∉ k.publicKey := hpublic ▸ newline_not_mem_prefixedHex publicBytes
  have nonempty : k.publicKey ≠ [] := by
    rw [hpublic]
    exact List.cons_ne_nil _ _
  obtain ⟨e, encrypted, rfl⟩ := saveKey_eq_true saved
  have decrypted : decryptHexKey cipher e password = some k.privateKey := by
    rw [hprivate] at encrypted ⊢
    exact decryptHexKey_encryptHexKey correct encrypted
  rw [fileText_eq, loadKey_cut, decrypted]
  have text (hseed : k.seed = []) : metadataText e k = header k.type ++ (k.publicKey ++ ['\n']) := by
    rw [metadataText, hseed]
    exact List.append_nil _
  have total (hseed : k.seed = []) : (fileText e k).length =
      (e.toJson ++ ['\n'] ++ metadataMark).length + (header k.type ++ k.publicKey).length + 1 := by
    have line : (header k.type ++ k.publicKey ++ ['\n']).length =
        (header k.type ++ k.publicKey).length + 1 := List.length_append
    rw [fileText_eq, text hseed, ← List.append_assoc (header k.type), List.length_append, line,
      Nat.add_assoc]
  constructor
  · rintro ⟨marked, state, privateKey, hread, -, whole⟩
    have hseed : k.seed = [] := by
      rw [whole]
      exact readMetadata_seed hread
    rw [text hseed] at hread
    have enough := publicKey_take hnamed unbroken nonempty hread (by rw [whole])
    refine ⟨hseed, fun e' he' => ?_⟩
    cases encrypted.symm.trans he'
    rw [total hseed]
    omega
  · rintro ⟨hseed, kept⟩
    have enough := kept e encrypted
    rw [total hseed] at enough
    refine ⟨by omega, loaded k.type k.publicKey, k.privateKey, ?_, rfl, ?_⟩
    · rw [text hseed]
      exact readMetadata_take hnamed unbroken (by omega)
    · rw [loaded, ← hseed]

/-- A cipher that keeps the key beside the password. -/
def plainCipher : KeyCipher where
  Draw := Unit
  encryptKey _ keyBytes password _ :=
    if password.isEmpty then none
    else some { salt := password, nonce := [], ciphertext := keyBytes, tag := [] }
  decryptKey e password := if e.salt = password then some e.ciphertext else none

theorem plainCipher_correct : plainCipher.Correct := by
  intro draw keyBytes password config e h
  simp only [plainCipher] at h ⊢
  split at h
  · cases h
  · cases h
    rw [if_pos rfl]

/-- The BIP-340 key pair of the scalar 12. -/
def twelveKeypair : Keypair where
  type := .bip340
  publicKey := "0xd01115d548e7561b15c38f004d734633687cf4419620095bc5b0f47070afe85a".toList
  privateKey := "0x000000000000000000000000000000000000000000000000000000000000000c".toList
  seed := []

theorem twelveKeypair_produced : Produced twelveKeypair := by
  have generated : generateBip340Key (.ok (⟨beBytes 32 12, beBytes_length 32 12⟩,
      ⟨beBytes 32 0xd01115d548e7561b15c38f004d734633687cf4419620095bc5b0f47070afe85a,
        beBytes_length 32 _⟩)) = some twelveKeypair := by
    decide
  exact .bip340 generated

def twelveFile : List Char :=
  fileText { salt := literal "secret", nonce := [], ciphertext := beBytes 32 12, tag := [] }
    twelveKeypair

theorem saveKey_twelve : saveKey plainCipher () ⟨true, 1000⟩ twelveKeypair (literal "secret") =
    (true, some twelveFile) := by
  decide +kernel

theorem loadKey_saveKey_twelve :
    loadKey plainCipher (some twelveFile) (literal "secret") = some twelveKeypair ↔
      twelveKeypair.seed = [] ∧ ∀ e,
        encryptHexKey plainCipher () twelveKeypair.privateKey (literal "secret") saveConfig =
          some e → (fileText e twelveKeypair).length ≤ 1000 + 1 :=
  loadKey_saveKey_iff plainCipher_correct twelveKeypair_produced saveKey_twelve

def phrase : List UInt8 :=
  literal "legal winner thank year wave sausage worth useful legal winner thank yellow"

/-- The seed that the phrase gives, and its public key. -/
def phraseSeed : Bytes 32 :=
  ⟨beBytes 32 0x837643b2241e4204303149551d7591618fb37b91ea59098014e593836f1056af,
    beBytes_length 32 _⟩

def phrasePublicKey : Bytes 32 :=
  ⟨beBytes 32 0xab67019b821a6d28c5d9e3b97c4d638f4a57ad5c72c61b73f7a83aa679045ccc,
    beBytes_length 32 _⟩

theorem seedKey_length (seed : Bytes 32) : (Ed25519.publicKey seed.1).length = 32 :=
  Ed25519.publicKey_length _

def phraseLibraries : SeedLibraries where
  hmacSha256 key data := ⟨Sha256.hmac key data, Sha256.hmac_length key data⟩
  keypairFromSeed seed := .ok (⟨Ed25519.publicKey seed.1, seedKey_length seed⟩,
    ⟨seed.1 ++ Ed25519.publicKey seed.1, by
      rw [List.length_append, seed.2, Ed25519.publicKey_length]⟩)

def phraseKeypair : Keypair :=
  keypair .ed25519 phrasePublicKey.1 (phraseSeed.1 ++ phrasePublicKey.1) phrase

def phraseFile : List Char :=
  fileText { salt := literal "secret", nonce := [], ciphertext := phraseSeed.1 ++ phrasePublicKey.1,
             tag := [] } phraseKeypair

/-- A key that was imported from a phrase is loaded without it. -/
theorem phrase_lost :
    importFromSeed true phraseLibraries phrase .ed25519 = .ok (some phraseKeypair) ∧
      plainCipher.Correct ∧
      saveKey plainCipher () ⟨true, 2000⟩ phraseKeypair (literal "secret") =
        (true, some phraseFile) ∧
      loadKey plainCipher (some phraseFile) (literal "secret") =
        some { phraseKeypair with seed := [] } ∧
      phraseKeypair.seed ≠ [] := by
  have derived : deriveSeedBytesFromPhrase phraseLibraries phrase = phraseSeed := by decide +kernel
  have public_key : Ed25519.publicKey phraseSeed.1 = phrasePublicKey.1 := by decide +kernel
  refine ⟨?_, plainCipher_correct, by decide +kernel, by decide +kernel, by decide⟩
  rw [importFromSeed, if_neg (by decide), derived]
  simp only [phraseLibraries, ok_bind, public_key]
  rfl

end MidnightSdk.Signing.KeyManager
