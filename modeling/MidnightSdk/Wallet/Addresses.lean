import MidnightSdk.Wallet.Bech32mTexts

/-!
# Addresses

Keys as text: the readable part names the kind of address and the network,
mainnet by saying nothing. The decoders compare only how the readable part
starts, and they read the bytes with whatever stands behind the last one.
-/

namespace MidnightSdk.Wallet

open Cpp

inductive Network where
  | mainnet
  | preview
  | preProd
  | testnet
  | devNet
  | qaNet
  | undeployed
  deriving DecidableEq, Repr

def networkToString : Network → String
  | .mainnet => "mainnet"
  | .preview => "preview"
  | .preProd => "preprod"
  | .testnet => "testnet"
  | .devNet => "devnet"
  | .qaNet => "qanet"
  | .undeployed => "undeployed"

def networkFromString (name : String) : Network :=
  let n := String.ofList (name.toList.map Char.toLower)
  if n = "mainnet" then .mainnet
  else if n = "preview" then .preview
  else if n = "preprod" then .preProd
  else if n = "testnet" then .testnet
  else if n = "devnet" then .devNet
  else if n = "qanet" then .qaNet
  else if n = "undeployed" then .undeployed
  else .preview

theorem networkFromString_toString (network : Network) :
    networkFromString (networkToString network) = network := by
  cases network <;> decide

namespace Address

open Bech32m

def getHrp (type : String) (network : Network) : List UInt8 :=
  let hrp := literal "mn_" ++ literal type
  if network ≠ .mainnet then hrp ++ literal "_" ++ literal (networkToString network) else hrp

/-! ## Encoding -/

def encodeUnshielded (pubkey : List UInt8) (network : Network) : Throws (List UInt8) := do
  if pubkey.length ≠ 32 then
    throw (.runtimeError "Unshielded address needs to be 32 bytes long")
  return encode (getHrp "addr" network) pubkey

def encodeShielded (coinPk encPk : List UInt8) (network : Network) : Throws (List UInt8) := do
  if coinPk.length ≠ 32 ∨ encPk.length ≠ 32 then
    throw (.runtimeError "Shielded address keys must be 32 bytes each")
  return encode (getHrp "shield-addr" network) (coinPk ++ encPk)

/-- The byte in front of a scalar; the size is a `size_t`. -/
def lenNibbles (size : Nat) : UInt8 := ((UInt64.ofNat size - 4) <<< 2 ||| 0x03).toUInt8

def encodeDust (dustScalarLe : List UInt8) (network : Network) : Throws (List UInt8) := do
  if dustScalarLe.isEmpty then throw (.runtimeError "Dust scalar data must not be empty")
  let scaleEncoded := lenNibbles dustScalarLe.length :: dustScalarLe
  return encode (getHrp "dust" network) scaleEncoded

def encodeDustFromPubkey (pubkey : List UInt8) (network : Network) : Throws (List UInt8) := do
  if pubkey.length ≠ 32 then throw (.runtimeError "Dust public key must be 32 bytes")
  encodeDust pubkey network

/-! ## Decoding -/

/-- What the decoders share: the start of the readable part, compared over its
own length, and the size of the data. -/
def payload (start notOfKind : String) (fits : Nat → Bool) (misfit : String) (address : List UInt8) :
    Throws (List UInt8) := do
  let result ← decode address
  if result.1.take (literal start).length ≠ literal start then throw (.runtimeError notOfKind)
  if !fits result.2.length then throw (.runtimeError misfit)
  return result.2

def decodeUnshielded (address : List UInt8) : Throws (List UInt8) :=
  payload "mn_addr" "Not a Midnight unshielded address (expected mn_addr HRP)" (· == 32)
    "Invalid unshielded address: expected 32 bytes of data" address

structure ShieldedAddressData where
  coinPublicKey : List UInt8
  encryptionPublicKey : List UInt8
  deriving DecidableEq, Repr

def decodeShielded (address : List UInt8) : Throws ShieldedAddressData := do
  let data ← payload "mn_shield-addr" "Not a Midnight shielded address (expected mn_shield-addr HRP)"
    (· == 64) "Invalid shielded address: expected 64 bytes of data" address
  return ⟨data.take 32, data.drop 32⟩

def decodeDust (address : List UInt8) : Throws (List UInt8) := do
  let data ← payload "mn_dust" "Not a Midnight dust address (expected mn_dust HRP)" (33 ≤ ·)
    "Invalid dust address: SCALE data too short" address
  return data.drop 1

/-! ## Readable parts -/

/-- What stands behind the kind of an address. -/
def networkSuffix (network : Network) : List UInt8 :=
  if network ≠ .mainnet then literal "_" ++ literal (networkToString network) else []

theorem getHrp_eq (type : String) (network : Network) :
    getHrp type network = literal "mn_" ++ literal type ++ networkSuffix network := by
  unfold getHrp networkSuffix
  split <;> simp

theorem getHrp_ne_nil (type : String) (network : Network) : getHrp type network ≠ [] := by
  rw [getHrp_eq]
  simp [literal]

theorem getHrp_lower (network : Network) :
    (∀ c ∈ getHrp "addr" network, isUpper c = false) ∧
      (∀ c ∈ getHrp "shield-addr" network, isUpper c = false) ∧
      ∀ c ∈ getHrp "dust" network, isUpper c = false := by
  have all : ((getHrp "addr" network ++ (getHrp "shield-addr" network ++
      getHrp "dust" network)).all fun c => !isUpper c) = true := by
    cases network <;> rfl
  have lower {c : UInt8} (hc : c ∈ getHrp "addr" network ++ (getHrp "shield-addr" network ++
      getHrp "dust" network)) : isUpper c = false := by
    simpa using List.all_eq_true.mp all c hc
  refine ⟨fun c hc => lower (List.mem_append_left _ hc), fun c hc => ?_, fun c hc => ?_⟩
  · exact lower (List.mem_append_right _ (List.mem_append_left _ hc))
  · exact lower (List.mem_append_right _ (List.mem_append_right _ hc))

def networkSuffixes : List (List UInt8) :=
  ["", "_preview", "_preprod", "_testnet", "_devnet", "_qanet", "_undeployed"].map literal

/-- Behind `start` stands nothing, or an underscore and a network's name. -/
def NamesNetwork (start : String) (hrp : List UInt8) : Prop :=
  ∃ rest ∈ networkSuffixes, hrp = literal start ++ rest

theorem networkSuffix_mem (network : Network) : networkSuffix network ∈ networkSuffixes := by
  cases network <;> simp [networkSuffix, networkSuffixes, networkToString, literal]

theorem mem_networkSuffixes {rest : List UInt8} (h : rest ∈ networkSuffixes) :
    ∃ network, networkSuffix network = rest := by
  simp only [networkSuffixes, List.map_cons, List.map_nil, List.mem_cons, List.not_mem_nil,
    or_false] at h
  rcases h with rfl | rfl | rfl | rfl | rfl | rfl | rfl
  · exact ⟨.mainnet, rfl⟩
  · exact ⟨.preview, rfl⟩
  · exact ⟨.preProd, rfl⟩
  · exact ⟨.testnet, rfl⟩
  · exact ⟨.devNet, rfl⟩
  · exact ⟨.qaNet, rfl⟩
  · exact ⟨.undeployed, rfl⟩

theorem namesNetwork_iff {type start : String} (h : literal start = literal "mn_" ++ literal type)
    (hrp : List UInt8) : NamesNetwork start hrp ↔ ∃ network, hrp = getHrp type network := by
  constructor
  · rintro ⟨rest, hrest, rfl⟩
    obtain ⟨network, rfl⟩ := mem_networkSuffixes hrest
    exact ⟨network, by rw [getHrp_eq, h]⟩
  · rintro ⟨network, rfl⟩
    exact ⟨_, networkSuffix_mem network, by rw [getHrp_eq, h]⟩

/-! ## What is accepted -/

theorem payload_eq_ok {start notOfKind misfit : String} {fits : Nat → Bool}
    {address key : List UInt8} :
    payload start notOfKind fits misfit address = .ok key ↔
      ∃ hrp, decode address = .ok (hrp, key) ∧ literal start <+: hrp ∧ fits key.length = true := by
  unfold payload
  rw [bind_eq_ok]
  constructor
  · rintro ⟨⟨hrp, data⟩, hdecode, h⟩
    by_cases hstart : hrp.take (literal start).length ≠ literal start
    · rw [if_pos hstart] at h
      cases h
    · cases hfits : fits data.length with
      | false =>
        rw [if_neg hstart, hfits] at h
        cases h
      | true =>
        rw [if_neg hstart, hfits] at h
        obtain rfl := Except.ok.inj h
        exact ⟨hrp, hdecode, List.prefix_iff_eq_take.mpr (not_not.mp hstart).symm, hfits⟩
  · rintro ⟨hrp, hdecode, hstart, hfits⟩
    refine ⟨(hrp, key), hdecode, ?_⟩
    rw [if_neg (not_not.mpr (List.prefix_iff_eq_take.mp hstart).symm), hfits]
    rfl

theorem decodeUnshielded_eq_ok {address key : List UInt8} :
    decodeUnshielded address = .ok key ↔
      ∃ hrp, decode address = .ok (hrp, key) ∧ literal "mn_addr" <+: hrp ∧ key.length = 32 := by
  rw [decodeUnshielded, payload_eq_ok]
  simp only [beq_iff_eq]

theorem decodeShielded_eq_ok {address : List UInt8} {keys : ShieldedAddressData} :
    decodeShielded address = .ok keys ↔
      ∃ hrp data, decode address = .ok (hrp, data) ∧ literal "mn_shield-addr" <+: hrp ∧
        data.length = 64 ∧ keys = ⟨data.take 32, data.drop 32⟩ := by
  rw [decodeShielded, bind_eq_ok]
  simp only [payload_eq_ok, beq_iff_eq]
  constructor
  · rintro ⟨data, ⟨hrp, hdecode, hstart, hfits⟩, h⟩
    exact ⟨hrp, data, hdecode, hstart, hfits, (Except.ok.inj h).symm⟩
  · rintro ⟨hrp, data, hdecode, hstart, hfits, rfl⟩
    exact ⟨data, ⟨hrp, hdecode, hstart, hfits⟩, rfl⟩

theorem decodeDust_eq_ok {address scalar : List UInt8} :
    decodeDust address = .ok scalar ↔
      ∃ hrp data, decode address = .ok (hrp, data) ∧ literal "mn_dust" <+: hrp ∧
        33 ≤ data.length ∧ scalar = data.drop 1 := by
  rw [decodeDust, bind_eq_ok]
  simp only [payload_eq_ok, decide_eq_true_eq]
  constructor
  · rintro ⟨data, ⟨hrp, hdecode, hstart, hfits⟩, h⟩
    exact ⟨hrp, data, hdecode, hstart, hfits, (Except.ok.inj h).symm⟩
  · rintro ⟨hrp, data, hdecode, hstart, hfits, rfl⟩
    exact ⟨data, ⟨hrp, hdecode, hstart, hfits⟩, rfl⟩

/-- The fourth character tells the kinds apart. -/
theorem fourth_eq {start : String} {hrp : List UInt8} {c : UInt8} (h : literal start <+: hrp)
    (hc : (literal start)[3]? = some c) : hrp[3]? = some c := by
  obtain ⟨rest, rfl⟩ := h
  rw [List.getElem?_append_left (List.getElem?_eq_some_iff.mp hc).1, hc]

/-- A text is accepted as one kind of address at most. -/
def OneKind (address : List UInt8) : Prop :=
  (∀ key keys, decodeUnshielded address = .ok key → decodeShielded address ≠ .ok keys) ∧
  (∀ key scalar, decodeUnshielded address = .ok key → decodeDust address ≠ .ok scalar) ∧
  ∀ keys scalar, decodeShielded address = .ok keys → decodeDust address ≠ .ok scalar

theorem oneKind (address : List UInt8) : OneKind address := by
  have apart {start other : String} {c d : UInt8} {hrp hrp' data data' : List UInt8}
      (hdecode : decode address = .ok (hrp, data)) (hdecode' : decode address = .ok (hrp', data'))
      (hstart : literal start <+: hrp) (hother : literal other <+: hrp')
      (hc : (literal start)[3]? = some c) (hd : (literal other)[3]? = some d) : c = d := by
    obtain ⟨rfl, -⟩ := Prod.mk.inj (Except.ok.inj (hdecode.symm.trans hdecode'))
    exact Option.some.inj ((fourth_eq hstart hc).symm.trans (fourth_eq hother hd))
  refine ⟨?_, ?_, ?_⟩
  · intro key keys hkey hkeys
    obtain ⟨hrp, hdecode, hstart, -⟩ := decodeUnshielded_eq_ok.mp hkey
    obtain ⟨hrp', data', hdecode', hstart', -⟩ := decodeShielded_eq_ok.mp hkeys
    exact absurd (apart hdecode hdecode' hstart hstart' rfl rfl) (by decide)
  · intro key scalar hkey hscalar
    obtain ⟨hrp, hdecode, hstart, -⟩ := decodeUnshielded_eq_ok.mp hkey
    obtain ⟨hrp', data', hdecode', hstart', -⟩ := decodeDust_eq_ok.mp hscalar
    exact absurd (apart hdecode hdecode' hstart hstart' rfl rfl) (by decide)
  · intro keys scalar hkeys hscalar
    obtain ⟨hrp, data, hdecode, hstart, -⟩ := decodeShielded_eq_ok.mp hkeys
    obtain ⟨hrp', data', hdecode', hstart', -⟩ := decodeDust_eq_ok.mp hscalar
    exact absurd (apart hdecode hdecode' hstart hstart' rfl rfl) (by decide)

/-! ## Accepted addresses -/

/-- What is read from a text is of a known network, and encodes to the text in
lower case for that network. -/
def Faithful {α : Type} (type : String) (address : List UInt8) (read : Throws α)
    (encodeAs : α → Network → Throws (List UInt8)) : Prop :=
  ∀ key, read = .ok key → ∃ network data, decode address = .ok (getHrp type network, data) ∧
    encodeAs key network = .ok (address.map lowered)

def AddressLaw (address : List UInt8) : Prop :=
  Faithful "addr" address (decodeUnshielded address) encodeUnshielded ∧
  Faithful "shield-addr" address (decodeShielded address)
    (fun keys => encodeShielded keys.coinPublicKey keys.encryptionPublicKey) ∧
  Faithful "dust" address (decodeDust address) encodeDust ∧
  OneKind address

/-- One kind of address: `unpack` makes the key of the data, and `pack` is what
the encoder makes of that key. -/
theorem faithful_iff {α : Type} {type start : String} {address : List UInt8} {read : Throws α}
    {encodeAs : α → Network → Throws (List UInt8)} {fits : List UInt8 → Prop}
    {unpack : List UInt8 → α} {pack : List UInt8 → List UInt8}
    (hname : literal start = literal "mn_" ++ literal type)
    (hread : ∀ key, read = .ok key ↔ ∃ hrp data, decode address = .ok (hrp, data) ∧
      literal start <+: hrp ∧ fits data ∧ key = unpack data)
    (hencode : ∀ data network, fits data →
      encodeAs (unpack data) network = .ok (encode (getHrp type network) (pack data))) :
    Faithful type address read encodeAs ↔
      ∀ hrp data, decode address = .ok (hrp, data) → literal start <+: hrp → fits data →
        NamesNetwork start hrp ∧ NoStrayBits (dataWords address) ∧ pack data = data := by
  constructor
  · intro faithful hrp data hdecode hstart hfits
    obtain ⟨network, data', hdecode', htext⟩ :=
      faithful (unpack data) ((hread _).mpr ⟨hrp, data, hdecode, hstart, hfits, rfl⟩)
    obtain ⟨rfl, rfl⟩ := Prod.mk.inj (Except.ok.inj (hdecode.symm.trans hdecode'))
    rw [hencode data network hfits, Except.ok.injEq, encode_eq_lowered_iff hdecode] at htext
    exact ⟨(namesNetwork_iff hname _).mpr ⟨network, rfl⟩, htext.2, htext.1⟩
  · intro faithful key hkey
    obtain ⟨hrp, data, hdecode, hstart, hfits, rfl⟩ := (hread key).mp hkey
    obtain ⟨hnames, hstray, hpack⟩ := faithful hrp data hdecode hstart hfits
    obtain ⟨network, rfl⟩ := (namesNetwork_iff hname hrp).mp hnames
    refine ⟨network, data, hdecode, ?_⟩
    rw [hencode data network hfits, Except.ok.injEq, encode_eq_lowered_iff hdecode]
    exact ⟨hpack, hstray⟩

theorem encodeUnshielded_eq {key : List UInt8} (h : key.length = 32) (network : Network) :
    encodeUnshielded key network = .ok (encode (getHrp "addr" network) key) := by
  rw [encodeUnshielded, if_neg (not_not.mpr h)]
  rfl

theorem encodeShielded_eq {coinPk encPk : List UInt8} (hcoin : coinPk.length = 32)
    (henc : encPk.length = 32) (network : Network) : encodeShielded coinPk encPk network =
      .ok (encode (getHrp "shield-addr" network) (coinPk ++ encPk)) := by
  rw [encodeShielded, if_neg (by simp [hcoin, henc])]
  rfl

theorem encodeDust_eq {scalar : List UInt8} (h : scalar ≠ []) (network : Network) :
    encodeDust scalar network =
      .ok (encode (getHrp "dust" network) (lenNibbles scalar.length :: scalar)) := by
  rw [encodeDust, if_neg (by simpa using h)]
  rfl

theorem unshielded_faithful_iff (address : List UInt8) :
    Faithful "addr" address (decodeUnshielded address) encodeUnshielded ↔
      ∀ hrp data, decode address = .ok (hrp, data) → literal "mn_addr" <+: hrp →
        data.length = 32 → NamesNetwork "mn_addr" hrp ∧ NoStrayBits (dataWords address) ∧
          id data = data := by
  refine faithful_iff rfl ?_ fun data network hfits => encodeUnshielded_eq hfits network
  intro key
  rw [decodeUnshielded_eq_ok]
  constructor
  · rintro ⟨hrp, hdecode, hstart, hfits⟩
    exact ⟨hrp, key, hdecode, hstart, hfits, rfl⟩
  · rintro ⟨hrp, data, hdecode, hstart, hfits, rfl⟩
    exact ⟨hrp, hdecode, hstart, hfits⟩

theorem shielded_faithful_iff (address : List UInt8) :
    Faithful "shield-addr" address (decodeShielded address)
      (fun keys => encodeShielded keys.coinPublicKey keys.encryptionPublicKey) ↔
      ∀ hrp data, decode address = .ok (hrp, data) → literal "mn_shield-addr" <+: hrp →
        data.length = 64 → NamesNetwork "mn_shield-addr" hrp ∧ NoStrayBits (dataWords address) ∧
          data.take 32 ++ data.drop 32 = data := by
  refine faithful_iff rfl (fun keys => decodeShielded_eq_ok) ?_
  intro data network hfits
  exact encodeShielded_eq (by rw [List.length_take]; omega) (by rw [List.length_drop]; omega) network

theorem dust_faithful_iff (address : List UInt8) :
    Faithful "dust" address (decodeDust address) encodeDust ↔
      ∀ hrp data, decode address = .ok (hrp, data) → literal "mn_dust" <+: hrp →
        33 ≤ data.length → NamesNetwork "mn_dust" hrp ∧ NoStrayBits (dataWords address) ∧
          lenNibbles (data.drop 1).length :: data.drop 1 = data := by
  refine faithful_iff rfl (fun scalar => decodeDust_eq_ok) ?_
  intro data network hfits
  refine encodeDust_eq ?_ network
  intro hnil
  have := congrArg List.length hnil
  rw [List.length_drop, List.length_nil] at this
  omega

/-- The byte in front of the rest is the one put there. -/
theorem cons_drop_eq_iff (data : List UInt8) :
    lenNibbles (data.drop 1).length :: data.drop 1 = data ↔
      data.head? = some (lenNibbles (data.length - 1)) := by
  cases data with
  | nil => simp
  | cons b rest => simp [eq_comm]

/-- **Which texts keep to the law.** An accepted text names a known network behind
its kind, nothing is lost behind its last byte and, in a dust address, the byte in
front of the scalar is the one for its size. -/
theorem addressLaw_iff (address : List UInt8) :
    AddressLaw address ↔ ∀ hrp data, decode address = .ok (hrp, data) →
      (literal "mn_addr" <+: hrp → data.length = 32 →
        NamesNetwork "mn_addr" hrp ∧ NoStrayBits (dataWords address)) ∧
      (literal "mn_shield-addr" <+: hrp → data.length = 64 →
        NamesNetwork "mn_shield-addr" hrp ∧ NoStrayBits (dataWords address)) ∧
      (literal "mn_dust" <+: hrp → 33 ≤ data.length →
        NamesNetwork "mn_dust" hrp ∧ NoStrayBits (dataWords address) ∧
          data.head? = some (lenNibbles (data.length - 1))) := by
  rw [AddressLaw, unshielded_faithful_iff, shielded_faithful_iff, dust_faithful_iff]
  simp only [id_eq, List.take_append_drop, cons_drop_eq_iff, and_true, oneKind]
  constructor
  · rintro ⟨unshielded, shielded, dust⟩ hrp data hdecode
    exact ⟨unshielded hrp data hdecode, shielded hrp data hdecode, dust hrp data hdecode⟩
  · intro law
    exact ⟨fun hrp data h => (law hrp data h).1, fun hrp data h => (law hrp data h).2.1,
      fun hrp data h => (law hrp data h).2.2⟩

/-- A readable part that goes on behind `mn_addr` is accepted. -/
theorem unknown_hrp_accepted :
    decodeUnshielded (encode (literal "mn_addrx") (List.replicate 32 0)) =
      .ok (List.replicate 32 0) ∧
    ¬ AddressLaw (encode (literal "mn_addrx") (List.replicate 32 0)) := by
  have reads : decode (encode (literal "mn_addrx") (List.replicate 32 0)) =
      .ok (literal "mn_addrx", List.replicate 32 0) :=
    decode_encode (by decide) (by simp [literal, isUpper]) _
  have start : literal "mn_addr" <+: literal "mn_addrx" := by decide
  refine ⟨decodeUnshielded_eq_ok.mpr ⟨_, reads, start, rfl⟩, ?_⟩
  intro law
  obtain ⟨⟨rest, hrest, hname⟩, -⟩ := (unshielded_faithful_iff _).mp law.1 _ _ reads start rfl
  have split : literal "mn_addr" ++ literal "x" = literal "mn_addr" ++ rest := hname
  obtain rfl := List.append_cancel_left split
  exact absurd hrest (by decide)

/-! ## Dust addresses of any size -/

theorem payload_of_decode {start notOfKind misfit : String} {fits : Nat → Bool}
    {address hrp data : List UInt8} (hdecode : decode address = .ok (hrp, data))
    (hstart : literal start <+: hrp) :
    payload start notOfKind fits misfit address =
      if fits data.length then .ok data else .error (.runtimeError misfit) := by
  have named : hrp.take (literal start).length = literal start :=
    (List.prefix_iff_eq_take.mp hstart).symm
  rw [payload, hdecode, ok_bind]
  dsimp only
  rw [if_neg (not_not.mpr named)]
  cases fits data.length <;> rfl

/-- **Which scalars come back.** The encoder takes every scalar that is not empty;
the decoder refuses the texts of those that are shorter than a key. -/
theorem dust_comes_back (scalar : List UInt8) (network : Network) (h : scalar ≠ []) :
    ∃ address, encodeDust scalar network = .ok address ∧
      (32 ≤ scalar.length → decodeDust address = .ok scalar) ∧
      (scalar.length < 32 → decodeDust address =
        .error (.runtimeError "Invalid dust address: SCALE data too short")) := by
  have start : literal "mn_dust" <+: getHrp "dust" network := by
    rw [getHrp_eq]
    exact ⟨networkSuffix network, rfl⟩
  have reads := decode_encode (getHrp_ne_nil "dust" network) (getHrp_lower network).2.2
    (lenNibbles scalar.length :: scalar)
  refine ⟨_, encodeDust_eq h network, ?_, ?_⟩
  · intro long
    rw [decodeDust, payload_of_decode reads start, if_pos (by simpa using long)]
    rfl
  · intro short
    rw [decodeDust, payload_of_decode reads start, if_neg (by simpa using short)]
    rfl

theorem dust_comes_back_key :
    ∃ address, encodeDust (List.replicate 32 7) .preview = .ok address ∧
      decodeDust address = .ok (List.replicate 32 7) := by
  obtain ⟨address, hencode, hlong, -⟩ :=
    dust_comes_back (List.replicate 32 7) .preview (List.cons_ne_nil _ _)
  exact ⟨address, hencode, hlong (by simp)⟩

/-- A scalar of one byte is encoded and not read back. -/
theorem short_dust_refused :
    ∃ address, encodeDust [1] .preview = .ok address ∧ decodeDust address ≠ .ok [1] := by
  have reads := decode_encode (getHrp_ne_nil "dust" .preview) (getHrp_lower .preview).2.2
    [lenNibbles 1, 1]
  refine ⟨_, encodeDust_eq (List.cons_ne_nil 1 []) .preview, ?_⟩
  intro h
  obtain ⟨hrp, data, hdecode, -, hlong, -⟩ := decodeDust_eq_ok.mp h
  obtain ⟨-, rfl⟩ := Prod.mk.inj (Except.ok.inj (reads.symm.trans hdecode))
  exact absurd hlong (by decide)

end Address

end MidnightSdk.Wallet
