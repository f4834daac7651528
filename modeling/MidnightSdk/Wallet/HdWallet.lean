import MidnightSdk.Wallet.Bech32mEncoder
import MidnightSdk.Wallet.Bip39

/-!
# The hierarchical wallet

Keys derived from a seed, level by level. A dust key is the derived key reduced
by a modulus; the table of the modulus and the encoder of the address each read
their bytes from another end.
-/

namespace MidnightSdk.Wallet

open Cpp LittleEndian Address Bech32m

/-- `BN_bin2bn` -/
def bnBin2bn (bytes : List UInt8) : Nat := leValue bytes.reverse

/-- `bn_to_bytes32`; every number written is below `2^256`. -/
def bnToBytes32 (bn : Nat) : Bytes 32 := ⟨(leBytes 32 bn).reverse, by simp⟩

def secp256k1Order : List UInt8 := [
  0xFF, 0xFF, 0xFF, 0xFF, 0xFF, 0xFF, 0xFF, 0xFF,
  0xFF, 0xFF, 0xFF, 0xFF, 0xFF, 0xFF, 0xFF, 0xFE,
  0xBA, 0xAE, 0xDC, 0xE6, 0xAF, 0x48, 0xA0, 0x3B,
  0xBF, 0xD2, 0x5E, 0x8C, 0xD0, 0x36, 0x41, 0x41]

def blsField : List UInt8 := [
  0x01, 0x00, 0x00, 0x00, 0xFF, 0xFF, 0xFF, 0xFE,
  0xB4, 0xDA, 0x02, 0x53, 0x5B, 0xA0, 0x8D, 0x9E,
  0x80, 0x9D, 0xD8, 0x33, 0x7D, 0x48, 0x97, 0x29,
  0x53, 0xE7, 0xDE, 0x73, 0x00, 0x00, 0x00, 0x00]

def blsReduce (scalar : Bytes 32) : Bytes 32 :=
  bnToBytes32 (bnBin2bn scalar.1 % bnBin2bn blsField)

def secpAdd (a b : Bytes 32) : Bytes 32 :=
  bnToBytes32 ((bnBin2bn a.1 + bnBin2bn b.1) % bnBin2bn secp256k1Order)

/-- What the wallet calls of its libraries. `secpMul` gives the coordinates of a
multiple of the generator, and none for the point at infinity. -/
structure HdCrypto where
  sha256 : List UInt8 → Vector UInt8 32
  pbkdf2 : Bip39.Pbkdf2
  hmacSha512 : (key data : List UInt8) → Bytes 64
  secpMul : Nat → Option (Nat × Nat)

theorem take_length (out : Bytes 64) : (out.1.take 32).length = 32 := by
  rw [List.length_take, out.2]
  rfl

theorem drop_length (out : Bytes 64) : (out.1.drop 32).length = 32 := by
  rw [List.length_drop, out.2]

/-- Both halves of a MAC. -/
def halves (out : Bytes 64) : Bytes 32 × Bytes 32 :=
  (⟨out.1.take 32, take_length out⟩, ⟨out.1.drop 32, drop_length out⟩)

def hardenedBit : UInt32 := 0x80000000

def indexBytes (index : UInt32) : List UInt8 :=
  [((index >>> 24) &&& 0xFF).toUInt8, ((index >>> 16) &&& 0xFF).toUInt8,
    ((index >>> 8) &&& 0xFF).toUInt8, (index &&& 0xFF).toUInt8]

def bip32Child (lib : HdCrypto) (privKey chainCode : Bytes 32) (index : UInt32) (hardened : Bool)
    (pub33 : Option (Bytes 33)) : Throws (Bytes 32 × Bytes 32) := do
  let start ←
    if hardened then pure (0x00 :: privKey.1)
    else match pub33 with
      | some pub => pure pub.1
      | none => throw (.runtimeError "pubkey required for normal derivation")
  let data := start ++ indexBytes index
  let (tweak, childChain) := halves (lib.hmacSha512 chainCode.1 data)
  return (secpAdd privKey tweak, childChain)

def secpPubkey (lib : HdCrypto) (priv : Bytes 32) : Throws (Bytes 33) :=
  match lib.secpMul (bnBin2bn priv.1) with
  | none => .error (.runtimeError "EC_POINT_get_affine_coordinates failed")
  | some (x, y) =>
    .ok ⟨(if y % 2 = 1 then 0x03 else 0x02) :: (bnToBytes32 x).1, by
      rw [List.length_cons, (bnToBytes32 x).2]⟩

inductive Role where
  | nightExternal
  | nightInternal
  | dust
  | zswap
  | metadata
  deriving DecidableEq, Repr

def Role.value : Role → UInt32
  | .nightExternal => 0
  | .nightInternal => 1
  | .dust => 2
  | .zswap => 3
  | .metadata => 4

structure KeyPair where
  secretKey : List UInt8
  publicKey : List UInt8
  address : List UInt8
  deriving DecidableEq, Repr

structure HdWallet where
  seed : List UInt8
  masterKey : Bytes 32
  masterChain : Bytes 32

structure ChainNode where
  key : Bytes 32
  chainCode : Bytes 32

namespace HdWallet

def fromSeed (lib : HdCrypto) (seed : List UInt8) : Throws HdWallet := do
  if seed.length ≠ 64 then throw (.runtimeError "Seed must be 64 bytes")
  let (masterKey, masterChain) := halves (lib.hmacSha512 (literal "Bitcoin seed") seed)
  return { seed, masterKey, masterChain }

def fromMnemonic (lib : HdCrypto) (m p : List UInt8) : Throws HdWallet := do
  if !Bip39.validateMnemonic lib.sha256 m then throw (.runtimeError "Invalid BIP39 mnemonic")
  fromSeed lib (Bip39.mnemonicToSeed lib.pbkdf2 m p)

def derivePath (w : HdWallet) (lib : HdCrypto) (acc : UInt32) (role : Role) (idx : UInt32) :
    Throws ChainNode := do
  let r1 ← bip32Child lib w.masterKey w.masterChain (44 + hardenedBit) true none
  let r2 ← bip32Child lib r1.1 r1.2 (2400 + hardenedBit) true none
  let r3 ← bip32Child lib r2.1 r2.2 (acc + hardenedBit) true none
  let pub3 ← secpPubkey lib r3.1
  let r4 ← bip32Child lib r3.1 r3.2 role.value false (some pub3)
  let pub4 ← secpPubkey lib r4.1
  let r5 ← bip32Child lib r4.1 r4.2 idx false (some pub4)
  return ⟨r5.1, r5.2⟩

def deriveDust (w : HdWallet) (lib : HdCrypto) (acc idx : UInt32) : Throws KeyPair := do
  let node ← w.derivePath lib acc .dust idx
  let dustScalar := blsReduce node.key
  let address ← encodeDust dustScalar.1 .preProd
  return { secretKey := node.key.1, publicKey := dustScalar.1, address }

/-! ## Mnemonics -/

theorem fromSeed_ok (lib : HdCrypto) {seed : List UInt8} (h : seed.length = 64) :
    ∃ w, fromSeed lib seed = .ok w := by
  rw [fromSeed, if_neg (not_not.mpr h)]
  exact ⟨_, rfl⟩

theorem fromMnemonic_ok_iff (lib : HdCrypto) (m p : List UInt8) :
    (∃ w, fromMnemonic lib m p = .ok w) ↔ Bip39.validateMnemonic lib.sha256 m = true := by
  rw [fromMnemonic]
  cases Bip39.validateMnemonic lib.sha256 m with
  | false => exact iff_of_false (fun ⟨w, h⟩ => by cases h) (by decide)
  | true => exact iff_of_true (fromSeed_ok lib (by rw [Bip39.mnemonicToSeed]; simp)) rfl

/-- **What is accepted, and which seeds agree.** A phrase is judged as it should be
unless its words are right and its checksum is wrong; accepted phrases of the same
words have one seed exactly when they are handed over as one text. -/
theorem mnemonic_law_iff (lib : HdCrypto) :
    (∀ m, (Bip39.validateMnemonic lib.sha256 m = true ↔ Bip39.Valid lib.sha256 m) ↔
      (Bip39.Listed m → Bip39.ChecksumRight lib.sha256 m)) ∧
    (∀ m p, (∃ w, fromMnemonic lib m p = .ok w) ↔ Bip39.validateMnemonic lib.sha256 m = true) ∧
    ∀ m m' p, Bip39.validateMnemonic lib.sha256 m = true →
      Bip39.validateMnemonic lib.sha256 m' = true → words m = words m' →
      ((∀ pbkdf2, Bip39.mnemonicToSeed pbkdf2 m p = Bip39.mnemonicToSeed pbkdf2 m' p) ↔
        Bip39.handed m = Bip39.handed m') := by
  refine ⟨?_, fromMnemonic_ok_iff lib, ?_⟩
  · intro m
    rw [Bip39.validateMnemonic_iff, Bip39.Valid]
    constructor
    · exact fun law listed => (law.mp listed).2
    · exact fun right => ⟨fun listed => ⟨listed, right listed⟩, And.left⟩
  · intro m m' p _ _ _
    exact Bip39.mnemonicToSeed_eq_iff m m' p

/-- SHA-256 of sixteen zero bytes. -/
def zeroEntropyHash : Vector UInt8 32 := #v[
  0x37, 0x47, 0x08, 0xff, 0xf7, 0x71, 0x9d, 0xd5,
  0x97, 0x9e, 0xc8, 0x75, 0xd5, 0x6c, 0xd2, 0x28,
  0x6f, 0x6d, 0x3c, 0xf7, 0xec, 0x31, 0x7a, 0x3b,
  0x25, 0x63, 0x2a, 0xab, 0x28, 0xec, 0x37, 0xbb]

/-- Twelve times the first word, with the given blanks between. -/
def twelveTimes (blanks : List UInt8) : List UInt8 :=
  List.intercalate blanks (List.replicate 12 (literal "abandon"))

theorem words_twelveTimes :
    words (twelveTimes [32]) = List.replicate 12 (literal "abandon") ∧
      words (twelveTimes [32, 32]) = List.replicate 12 (literal "abandon") := by
  constructor <;> decide

/-- The last word's checksum bits are zero and the hash's are not; a second blank
changes the seed. -/
theorem checksum_ignored :
    Bip39.validateMnemonic (fun _ => zeroEntropyHash) (twelveTimes [32]) = true ∧
    ¬ Bip39.Valid (fun _ => zeroEntropyHash) (twelveTimes [32]) ∧
    Bip39.validateMnemonic (fun _ => zeroEntropyHash) (twelveTimes [32, 32]) = true ∧
    words (twelveTimes [32]) = words (twelveTimes [32, 32]) ∧
    ∃ pbkdf2, Bip39.mnemonicToSeed pbkdf2 (twelveTimes [32]) [] ≠
      Bip39.mnemonicToSeed pbkdf2 (twelveTimes [32, 32]) [] := by
  obtain ⟨single, double⟩ := words_twelveTimes
  have first : ∀ w ∈ List.replicate 12 (literal "abandon"), w ∈ bip39Wordlist := by
    intro w hw
    rw [List.eq_of_mem_replicate hw]
    decide
  have counted : (List.replicate 12 (literal "abandon")).length ∈ Bip39.wordCounts := by decide
  refine ⟨?_, ?_, ?_, single.trans double.symm, ?_⟩
  · rw [Bip39.validateMnemonic_iff, Bip39.Listed, single]
    exact ⟨counted, first⟩
  · rintro ⟨-, entropy, -, hlast⟩
    rw [Bip39.placeBits, single] at hlast
    dsimp only at hlast
    exact absurd hlast (by decide)
  · rw [Bip39.validateMnemonic_iff, Bip39.Listed, double]
    exact ⟨counted, first⟩
  · by_contra hnone
    simp only [not_exists, not_not] at hnone
    have same := (Bip39.mnemonicToSeed_eq_iff _ _ _).mp hnone
    rw [Bip39.handed_eq_iff (by decide) (by decide)] at same
    exact absurd same (by decide)

/-! ## Dust keys -/

/-- The order of the BLS scalars. -/
def blsOrder : Nat := 0x73eda753299d7d483339d80809a1d80553bda402fffe5bfeffffffff00000001

/-- The public key is the key's remainder, and so is what the address carries. -/
def DustKeyLaw (key : Bytes 32) (kp : KeyPair) : Prop :=
  bnBin2bn kp.publicKey = bnBin2bn key.1 % blsOrder ∧
  bnBin2bn kp.publicKey < blsOrder ∧
  ∃ payload, decode kp.address = .ok (getHrp "dust" .preProd, payload) ∧
    payload = Compact.encode (bnBin2bn key.1 % blsOrder)

theorem bnBin2bn_lt (bytes : Bytes 32) : bnBin2bn bytes.1 < 256 ^ 32 := by
  have below := leValue_lt bytes.1.reverse
  rwa [List.length_reverse, bytes.2] at below

theorem bnBin2bn_bnToBytes32 {n : Nat} (h : n < 256 ^ 32) : bnBin2bn (bnToBytes32 n).1 = n := by
  rw [bnBin2bn, bnToBytes32, List.reverse_reverse, leValue_leBytes_of_lt h]

theorem bnToBytes32_bnBin2bn (bytes : Bytes 32) : bnToBytes32 (bnBin2bn bytes.1) = bytes := by
  apply Subtype.ext
  have back := leBytes_leValue bytes.1.reverse
  rw [List.length_reverse, bytes.2] at back
  change (leBytes 32 (bnBin2bn bytes.1)).reverse = bytes.1
  rw [bnBin2bn, back, List.reverse_reverse]

/-- The two readings of some bytes agree when they read the same from both ends. -/
theorem leValue_eq_bnBin2bn_iff (bytes : List UInt8) :
    leValue bytes = bnBin2bn bytes ↔ bytes.reverse = bytes := by
  constructor
  · intro same
    have back := leBytes_leValue bytes.reverse
    rw [← bnBin2bn, List.length_reverse, ← same, leBytes_leValue] at back
    exact back.symm
  · intro same
    rw [bnBin2bn, same]

/-- The number the table is read as. -/
example : bnBin2bn blsField =
    0x01000000FFFFFFFEB4DA02535BA08D9E809DD8337D48972953E7DE7300000000 := by
  decide

theorem deriveDust_eq {w : HdWallet} {lib : HdCrypto} {acc idx : UInt32} {node : ChainNode}
    (h : w.derivePath lib acc .dust idx = .ok node) :
    w.deriveDust lib acc idx = .ok {
      secretKey := node.key.1, publicKey := (blsReduce node.key).1,
      address := encode (getHrp "dust" .preProd) (lenNibbles 32 :: (blsReduce node.key).1) } := by
  have length := (blsReduce node.key).2
  have some : (blsReduce node.key).1 ≠ [] := by
    intro hnil
    rw [hnil] at length
    cases length
  rw [deriveDust, h]
  simp only [bind, Except.bind, encodeDust_eq some, length]
  rfl

/-- The address carries a number exactly when it is of 32 bytes and the bytes are
those of the number, least significant first. -/
theorem payload_canonical_iff (bytes : Bytes 32) {n : Nat} (hn : n < 256 ^ 32) :
    lenNibbles 32 :: bytes.1 = Compact.encode n ↔
      leValue bytes.1 = n ∧ bytes.1.getLast? ≠ some 0 := by
  constructor
  · intro same
    have decoded := Compact.decode_encode (Nat.lt_of_lt_of_le hn (by decide)) []
    rw [List.append_nil, ← same] at decoded
    have counted : Compact.decode (lenNibbles 32 :: bytes.1) = Compact.takeLe 32 bytes.1 := rfl
    rw [counted, Compact.takeLe_eq_some, List.take_of_length_le (Nat.le_of_eq bytes.2)] at decoded
    have value := decoded.2.1
    rw [← value] at same
    exact ⟨value, (Bech32mEncoder.canonical_iff bytes.2).mp same⟩
  · rintro ⟨rfl, hlast⟩
    exact (Bech32mEncoder.canonical_iff bytes.2).mpr hlast

theorem dustKeyLaw_iff_bytes {key : Bytes 32} {kp : KeyPair}
    (hpublic : kp.publicKey = (blsReduce key).1)
    (haddress : kp.address = encode (getHrp "dust" .preProd) (lenNibbles 32 :: (blsReduce key).1)) :
    DustKeyLaw key kp ↔ bnBin2bn (blsReduce key).1 = bnBin2bn key.1 % blsOrder ∧
      leValue (blsReduce key).1 = bnBin2bn key.1 % blsOrder ∧
      (blsReduce key).1.getLast? ≠ some 0 := by
  have small : bnBin2bn key.1 % blsOrder < 256 ^ 32 :=
    Nat.lt_of_le_of_lt (Nat.mod_le _ _) (bnBin2bn_lt key)
  rw [DustKeyLaw, hpublic, haddress, decode_encode (getHrp_ne_nil _ _) (getHrp_lower .preProd).2.2,
    ← payload_canonical_iff _ small]
  constructor
  · rintro ⟨reduced, -, payload, hread, hcanonical⟩
    obtain ⟨-, rfl⟩ := Prod.mk.inj (Except.ok.inj hread)
    exact ⟨reduced, hcanonical⟩
  · rintro ⟨reduced, hcanonical⟩
    exact ⟨reduced, reduced ▸ Nat.mod_lt _ (by decide), _, rfl, hcanonical⟩

/-- Two remainders of a number of 32 bytes agree only if nothing is taken off: the
order and its double are no multiples of the table's number. -/
theorem lt_of_mod_eq {n : Nat} (hn : n < 256 ^ 32) (h : n % bnBin2bn blsField = n % blsOrder) :
    n < bnBin2bn blsField := by
  have pos : 0 < bnBin2bn blsField := by decide
  have taken : bnBin2bn blsField * (n / bnBin2bn blsField) = blsOrder * (n / blsOrder) := by
    have table := Nat.div_add_mod n (bnBin2bn blsField)
    have order := Nat.div_add_mod n blsOrder
    rw [h] at table
    exact Nat.add_right_cancel (table.trans order.symm)
  have few : n / blsOrder < 3 := Nat.div_lt_of_lt_mul (Nat.lt_of_lt_of_le hn (by decide))
  have counts : ∀ q < 3, q = 0 ∨ q = 1 ∨ q = 2 := by omega
  rcases counts _ few with none | once | twice
  · rw [none, Nat.mul_zero] at taken
    rw [← Nat.div_eq_zero_iff_lt pos]
    exact (Nat.mul_eq_zero.mp taken).resolve_left pos.ne'
  · rw [once] at taken
    exact absurd (Dvd.intro _ taken) (by decide)
  · rw [twice] at taken
    exact absurd (Dvd.intro _ taken) (by decide)

/-- The last byte is not zero when the number read from it is of 32 bytes. -/
theorem getLast_ne_zero_iff (bytes : Bytes 32) :
    bytes.1.getLast? ≠ some 0 ↔ 256 ^ 31 ≤ leValue bytes.1 := by
  obtain ⟨bytes, length⟩ := bytes
  cases bytes using List.reverseRecOn with
  | nil => cases length
  | append_singleton front b =>
    rw [List.length_append, List.length_singleton] at length
    have rest : front.length = 31 := by omega
    rw [List.getLast?_concat, ne_eq, Option.some_inj]
    constructor
    · intro hb
      rw [← rest]
      exact Compact.pow_le_leValue front hb
    · rintro large rfl
      have below := leValue_lt front
      rw [rest] at below
      rw [leValue_concat, UInt8.toNat_zero, Nat.mul_zero, Nat.add_zero] at large
      omega

theorem blsReduce_of_lt {key : Bytes 32} (h : bnBin2bn key.1 < bnBin2bn blsField) :
    blsReduce key = key := by
  rw [blsReduce, Nat.mod_eq_of_lt h, bnToBytes32_bnBin2bn]

theorem dustBytes_iff (key : Bytes 32) :
    (bnBin2bn (blsReduce key).1 = bnBin2bn key.1 % blsOrder ∧
      leValue (blsReduce key).1 = bnBin2bn key.1 % blsOrder ∧
      (blsReduce key).1.getLast? ≠ some 0) ↔
    key.1.reverse = key.1 ∧ 256 ^ 31 ≤ bnBin2bn key.1 ∧ bnBin2bn key.1 < bnBin2bn blsField := by
  constructor
  · rintro ⟨stored, carried, hlast⟩
    have written : bnBin2bn (blsReduce key).1 = bnBin2bn key.1 % bnBin2bn blsField :=
      bnBin2bn_bnToBytes32 (Nat.lt_of_le_of_lt (Nat.mod_le _ _) (bnBin2bn_lt key))
    have small := lt_of_mod_eq (bnBin2bn_lt key) (written.symm.trans stored)
    rw [blsReduce_of_lt small] at stored carried hlast
    have same := carried.trans stored.symm
    refine ⟨(leValue_eq_bnBin2bn_iff _).mp same, ?_, small⟩
    rw [← same]
    exact (getLast_ne_zero_iff key).mp hlast
  · rintro ⟨palindrome, large, small⟩
    have same := (leValue_eq_bnBin2bn_iff key.1).mpr palindrome
    have below : bnBin2bn blsField < blsOrder := by decide
    rw [blsReduce_of_lt small, Nat.mod_eq_of_lt (Nat.lt_trans small below), getLast_ne_zero_iff]
    exact ⟨rfl, same, same ▸ large⟩

/-- **When a dust key is right.** Below the number that the table is read as, the
key reads the same from both ends, and its first byte is not zero. -/
theorem deriveDust_law_iff (lib : HdCrypto) (w : HdWallet) (acc idx : UInt32) {node : ChainNode}
    (h : w.derivePath lib acc .dust idx = .ok node) :
    (∃ kp, w.deriveDust lib acc idx = .ok kp ∧ DustKeyLaw node.key kp) ↔
      node.key.1.reverse = node.key.1 ∧ 256 ^ 31 ≤ bnBin2bn node.key.1 ∧
        bnBin2bn node.key.1 < bnBin2bn blsField := by
  rw [← dustBytes_iff, deriveDust_eq h]
  constructor
  · rintro ⟨kp, hkp, law⟩
    obtain rfl := Except.ok.inj hkp
    exact (dustKeyLaw_iff_bytes rfl rfl).mp law
  · intro bytes
    exact ⟨_, rfl, (dustKeyLaw_iff_bytes rfl rfl).mpr bytes⟩

/-- A library whose MAC is zero and whose points have zero coordinates: every key
derived is the one it is derived from. -/
def stillCrypto : HdCrypto where
  sha256 _ := Vector.replicate 32 0
  pbkdf2 := Bip39.Pbkdf2.telling (0, [])
  hmacSha512 _ _ := ⟨List.replicate 64 0, rfl⟩
  secpMul _ := some (0, 0)

/-- A wallet with the given master key. -/
def withMaster (key : Bytes 32) : HdWallet := ⟨[], key, ⟨List.replicate 32 0, rfl⟩⟩

theorem secpAdd_zero {key : Bytes 32} (h : bnBin2bn key.1 < bnBin2bn secp256k1Order) :
    secpAdd key (halves ⟨List.replicate 64 0, rfl⟩).1 = key := by
  have zero : bnBin2bn (halves ⟨List.replicate 64 0, rfl⟩).1.1 = 0 := by decide
  rw [secpAdd, zero, Nat.add_zero, Nat.mod_eq_of_lt h, bnToBytes32_bnBin2bn]

theorem bip32Child_still {key : Bytes 32} (h : bnBin2bn key.1 < bnBin2bn secp256k1Order)
    (chain : Bytes 32) (index : UInt32) (pub : Bytes 33) :
    bip32Child stillCrypto key chain index true none =
      .ok (key, (halves ⟨List.replicate 64 0, rfl⟩).2) ∧
    bip32Child stillCrypto key chain index false (some pub) =
      .ok (key, (halves ⟨List.replicate 64 0, rfl⟩).2) := by
  have added : (Except.ok (secpAdd key (halves ⟨List.replicate 64 0, rfl⟩).1,
      (halves ⟨List.replicate 64 0, rfl⟩).2) : Throws (Bytes 32 × Bytes 32)) =
        .ok (key, (halves ⟨List.replicate 64 0, rfl⟩).2) := by
    rw [secpAdd_zero h]
  exact ⟨added, added⟩

/-- A path on which every level gives its key back. -/
theorem derivePath_fixed {w : HdWallet} {lib : HdCrypto} {key chain : Bytes 32} {pub : Bytes 33}
    (hmaster : w.masterKey = key) (hpub : secpPubkey lib key = pure pub)
    (hhardened : ∀ chain' index, bip32Child lib key chain' index true none = pure (key, chain))
    (hnormal : ∀ chain' index, bip32Child lib key chain' index false (some pub) = pure (key, chain))
    (acc idx : UInt32) (role : Role) : w.derivePath lib acc role idx = pure ⟨key, chain⟩ := by
  simp only [derivePath, hmaster, hhardened, hpub, hnormal, pure_bind]

theorem derivePath_still (key : Bytes 32) (h : bnBin2bn key.1 < bnBin2bn secp256k1Order)
    (acc idx : UInt32) (role : Role) : ∃ chain,
    (withMaster key).derivePath stillCrypto acc role idx = .ok ⟨key, chain⟩ := by
  have point : ∃ pub, secpPubkey stillCrypto key = .ok pub := ⟨_, rfl⟩
  obtain ⟨pub, hpub⟩ := point
  refine ⟨(halves ⟨List.replicate 64 0, rfl⟩).2, derivePath_fixed rfl hpub ?_ ?_ acc idx role⟩
  · intro chain index
    exact (bip32Child_still h chain index pub).1
  · intro chain index
    exact (bip32Child_still h chain index pub).2

/-- The least key that is right. -/
theorem deriveDust_law_least :
    (∃ kp, (withMaster ⟨1 :: List.replicate 30 0 ++ [1], rfl⟩).deriveDust stillCrypto 0 0 = .ok kp ∧
      DustKeyLaw ⟨1 :: List.replicate 30 0 ++ [1], rfl⟩ kp) ↔
    (1 :: List.replicate 30 (0 : UInt8) ++ [1]).reverse = 1 :: List.replicate 30 0 ++ [1] ∧
      256 ^ 31 ≤ bnBin2bn (1 :: List.replicate 30 0 ++ [1]) ∧
      bnBin2bn (1 :: List.replicate 30 0 ++ [1]) < bnBin2bn blsField := by
  have small : bnBin2bn (1 :: List.replicate 30 0 ++ [1]) < bnBin2bn secp256k1Order := by decide
  obtain ⟨chain, h⟩ := derivePath_still ⟨1 :: List.replicate 30 0 ++ [1], rfl⟩ small 0 0 .dust
  exact deriveDust_law_iff stillCrypto _ 0 0 h

/-- The key one: its address carries `2^248`. -/
theorem dust_key_swapped :
    (∃ kp, (withMaster ⟨List.replicate 31 0 ++ [1], rfl⟩).deriveDust stillCrypto 0 0 = .ok kp) ∧
    ¬ ∃ kp, (withMaster ⟨List.replicate 31 0 ++ [1], rfl⟩).deriveDust stillCrypto 0 0 = .ok kp ∧
      DustKeyLaw ⟨List.replicate 31 0 ++ [1], rfl⟩ kp := by
  have small : bnBin2bn (List.replicate 31 0 ++ [1]) < bnBin2bn secp256k1Order := by decide
  obtain ⟨chain, h⟩ := derivePath_still ⟨List.replicate 31 0 ++ [1], rfl⟩ small 0 0 .dust
  rw [deriveDust_eq h]
  refine ⟨⟨_, rfl⟩, ?_⟩
  rintro ⟨kp, hkp, law⟩
  obtain rfl := Except.ok.inj hkp
  exact absurd ((dustBytes_iff _).mp ((dustKeyLaw_iff_bytes rfl rfl).mp law)).1 (by decide)

end HdWallet

end MidnightSdk.Wallet
