import MidnightSdk.Wallet.Addresses

/-!
# Shielded addresses

A shielded address is a pair of keys with a network. One is read from a text
for a network the caller expects; what the text says of its network is not
compared with it, and the result carries the text for the expected one.
-/

namespace MidnightSdk.Wallet

open Cpp Bech32m Address

/-- The bytes of a key, none before one is assigned. -/
structure KeyBytes where
  bytes : List UInt8 := []
  sized : bytes.length = 32 ∨ bytes = [] := by simp
  deriving DecidableEq

namespace KeyBytes

def keyLength : Nat := 32

def isValid (key : KeyBytes) : Bool := key.bytes.length == keyLength

def ofBytes (misfit : Nat → String) (data : List UInt8) : Throws KeyBytes :=
  if h : data.length = keyLength then .ok ⟨data, Or.inl h⟩
  else .error (.invalidArgument (misfit data.length))

theorem ofBytes_eq {data : List UInt8} (h : data.length = 32) (misfit : Nat → String) :
    ofBytes misfit data = .ok ⟨data, Or.inl h⟩ :=
  dif_pos h

end KeyBytes

abbrev ShieldedCoinPublicKey := KeyBytes

def ShieldedCoinPublicKey.ofBytes : List UInt8 → Throws ShieldedCoinPublicKey :=
  KeyBytes.ofBytes fun size => "Coin public key needs to be 32 bytes long, got " ++ toString size

abbrev ShieldedEncryptionPublicKey := KeyBytes

def ShieldedEncryptionPublicKey.ofBytes : List UInt8 → Throws ShieldedEncryptionPublicKey :=
  KeyBytes.ofBytes fun size => "Encryption public key needs to be 32 bytes long, got " ++
    toString size ++ " — this is critical for security!"

structure ShieldedAddress where
  coinKey : ShieldedCoinPublicKey := {}
  encryptKey : ShieldedEncryptionPublicKey := {}
  network : Network := .preProd
  encoded : List UInt8 := []

namespace ShieldedAddress

/-- The constructor. -/
def make (coinKey : ShieldedCoinPublicKey) (encryptKey : ShieldedEncryptionPublicKey)
    (network : Network) : Throws ShieldedAddress := do
  if !coinKey.isValid then
    throw (.invalidArgument "Invalid coin public key in ShieldedAddress")
  if !encryptKey.isValid then
    throw (.invalidArgument "Invalid encryption public key in ShieldedAddress")
  let encoded ← encodeShielded coinKey.bytes encryptKey.bytes network
  return { coinKey, encryptKey, network, encoded }

/-- What `fromString` tries. -/
def tryFromString (address : List UInt8) (expectedNetwork : Network) :
    Throws (Option ShieldedAddress) := do
  let decoded ← decodeShielded address
  if decoded.coinPublicKey.length ≠ 32 ∨ decoded.encryptionPublicKey.length ≠ 32 then
    return none
  let coinKey ← ShieldedCoinPublicKey.ofBytes decoded.coinPublicKey
  let encKey ← ShieldedEncryptionPublicKey.ofBytes decoded.encryptionPublicKey
  let result ← make coinKey encKey expectedNetwork
  return some result

def fromString (address : List UInt8) (expectedNetwork : Network) : Option ShieldedAddress :=
  match tryFromString address expectedNetwork with
  | .ok result => result
  | .error _ => none

/-- `to_string` -/
def toText (a : ShieldedAddress) : Throws (List UInt8) :=
  if a.encoded.isEmpty then encodeShielded a.coinKey.bytes a.encryptKey.bytes a.network
  else .ok a.encoded

theorem make_eq {coin enc : List UInt8} (hcoin : coin.length = 32) (henc : enc.length = 32)
    (network : Network) : make ⟨coin, Or.inl hcoin⟩ ⟨enc, Or.inl henc⟩ network =
      .ok ⟨⟨coin, Or.inl hcoin⟩, ⟨enc, Or.inl henc⟩, network,
        encode (getHrp "shield-addr" network) (coin ++ enc)⟩ := by
  have valid {bytes : List UInt8} (h : bytes.length = 32) :
      (!KeyBytes.isValid ⟨bytes, Or.inl h⟩) = false := by
    simp [KeyBytes.isValid, KeyBytes.keyLength, h]
  rw [make, valid hcoin, valid henc, encodeShielded_eq hcoin henc]
  rfl

/-- A text that decodes to keys is taken for the expected network. -/
theorem tryFromString_eq {address hrp data : List UInt8} (hdecode : decode address = .ok (hrp, data))
    (hstart : literal "mn_shield-addr" <+: hrp) (hfits : data.length = 64) (network : Network) :
    ∃ a : ShieldedAddress, tryFromString address network = .ok (some a) ∧
      a.coinKey.bytes = data.take 32 ∧ a.encryptKey.bytes = data.drop 32 ∧ a.network = network ∧
      a.encoded = encode (getHrp "shield-addr" network) data := by
  have read := decodeShielded_eq_ok.mpr ⟨hrp, data, hdecode, hstart, hfits, rfl⟩
  have coin : (data.take 32).length = 32 := by rw [List.length_take]; omega
  have enc : (data.drop 32).length = 32 := by rw [List.length_drop]; omega
  refine ⟨⟨⟨data.take 32, Or.inl coin⟩, ⟨data.drop 32, Or.inl enc⟩, network,
    encode (getHrp "shield-addr" network) (data.take 32 ++ data.drop 32)⟩, ?_, rfl, rfl, rfl, ?_⟩
  · rw [tryFromString, read]
    simp only [bind, Except.bind, coin, enc, ShieldedCoinPublicKey.ofBytes,
      ShieldedEncryptionPublicKey.ofBytes, KeyBytes.ofBytes_eq coin, KeyBytes.ofBytes_eq enc,
      make_eq coin enc]
    rfl
  · rw [List.take_append_drop]

/-- The keys are those of the text, the network is the expected one. -/
theorem fromString_eq_some {address : List UInt8} {network : Network} {a : ShieldedAddress}
    (h : fromString address network = some a) :
    ∃ hrp data, decode address = .ok (hrp, data) ∧ literal "mn_shield-addr" <+: hrp ∧
      data.length = 64 ∧ a.coinKey.bytes = data.take 32 ∧ a.encryptKey.bytes = data.drop 32 ∧
      a.network = network ∧ a.encoded = encode (getHrp "shield-addr" network) data := by
  cases hread : decodeShielded address with
  | error e =>
    rw [fromString, tryFromString, hread] at h
    cases h
  | ok keys =>
    obtain ⟨hrp, data, hdecode, hstart, hfits, rfl⟩ := decodeShielded_eq_ok.mp hread
    obtain ⟨made, htry, hmade⟩ := tryFromString_eq hdecode hstart hfits network
    rw [fromString, htry] at h
    obtain rfl := Option.some.inj h
    exact ⟨hrp, data, hdecode, hstart, hfits, hmade⟩

theorem toText_eq {a : ShieldedAddress} {hrp data : List UInt8} (h : a.encoded = encode hrp data) :
    a.toText = .ok (encode hrp data) := by
  have some : a.encoded.isEmpty = false := by
    rw [h, encode]
    simp
  rw [toText, some, if_neg (by decide), h]

/-! ## The network of the text -/

/-- What is accepted for a network is an address of that network: it carries the
keys of the text and is written as the text in lower case. -/
def NetworkLaw (address : List UInt8) (network : Network) : Prop :=
  (∀ a, fromString address network = some a → ∃ data,
    decode address = .ok (getHrp "shield-addr" network, data) ∧
    a.coinKey.bytes ++ a.encryptKey.bytes = data ∧ a.toText = .ok (address.map lowered)) ∧
  ∀ other data, decode address = .ok (getHrp "shield-addr" other, data) → other ≠ network →
    fromString address network = none

theorem networkSuffix_injective {network other : Network}
    (h : networkSuffix network = networkSuffix other) : network = other := by
  revert h
  cases network <;> cases other <;> decide

theorem getHrp_injective {type : String} {network other : Network}
    (h : getHrp type network = getHrp type other) : network = other := by
  rw [getHrp_eq, getHrp_eq] at h
  exact networkSuffix_injective (List.append_cancel_left h)

theorem shieldedHrp_eq (network : Network) :
    literal "mn_shield-addr" ++ networkSuffix network = getHrp "shield-addr" network :=
  (getHrp_eq "shield-addr" network).symm

/-- **When the network is right.** The text has nothing but the expected network
behind its kind, and nothing is lost behind its last byte. -/
theorem networkLaw_iff (address : List UInt8) (network : Network) :
    NetworkLaw address network ↔ ∀ hrp data, decode address = .ok (hrp, data) →
      literal "mn_shield-addr" <+: hrp → data.length = 64 →
        hrp = literal "mn_shield-addr" ++ networkSuffix network ∧
          NoStrayBits (dataWords address) := by
  constructor
  · rintro ⟨law, -⟩ hrp data hdecode hstart hfits
    obtain ⟨a, htry, -, -, -, hencoded⟩ := tryFromString_eq hdecode hstart hfits network
    have accepted : fromString address network = some a := by rw [fromString, htry]
    obtain ⟨data', hdecode', -, htext⟩ := law a accepted
    obtain ⟨rfl, rfl⟩ := Prod.mk.inj (Except.ok.inj (hdecode.symm.trans hdecode'))
    rw [toText_eq hencoded, Except.ok.injEq, encode_eq_lowered_iff hdecode] at htext
    exact ⟨(shieldedHrp_eq network).symm, htext.2⟩
  · intro right
    constructor
    · intro a haccepted
      obtain ⟨hrp, data, hdecode, hstart, hfits, hcoin, henc, -, hencoded⟩ :=
        fromString_eq_some haccepted
      obtain ⟨rfl, hstray⟩ := right hrp data hdecode hstart hfits
      rw [shieldedHrp_eq] at hdecode
      refine ⟨data, hdecode, ?_, ?_⟩
      · rw [hcoin, henc, List.take_append_drop]
      · rw [toText_eq hencoded, (encode_eq_lowered_iff hdecode data).mpr ⟨rfl, hstray⟩]
    · intro other data hdecode hother
      by_contra hsome
      obtain ⟨a, haccepted⟩ := Option.ne_none_iff_exists'.mp hsome
      obtain ⟨hrp, data', hdecode', hstart, hfits, -⟩ := fromString_eq_some haccepted
      obtain ⟨rfl, rfl⟩ := Prod.mk.inj (Except.ok.inj (hdecode.symm.trans hdecode'))
      have named := (right _ data hdecode hstart hfits).1
      rw [shieldedHrp_eq] at named
      exact hother (getHrp_injective named)

/-- A preview address is taken for one of mainnet and written as one. -/
theorem network_replaced : ¬ NetworkLaw
    (encode (getHrp "shield-addr" .preview) (List.replicate 64 0)) .mainnet := by
  have reads : decode (encode (getHrp "shield-addr" .preview) (List.replicate 64 0)) =
      .ok (getHrp "shield-addr" .preview, List.replicate 64 0) :=
    decode_encode (getHrp_ne_nil _ _) (getHrp_lower .preview).2.1 _
  have start : literal "mn_shield-addr" <+: getHrp "shield-addr" .preview :=
    ⟨networkSuffix .preview, shieldedHrp_eq .preview⟩
  obtain ⟨a, htry, -⟩ := tryFromString_eq reads start rfl .mainnet
  rintro ⟨-, refused⟩
  have none := refused .preview _ reads (by decide)
  rw [fromString, htry] at none
  cases none

end ShieldedAddress

end MidnightSdk.Wallet
