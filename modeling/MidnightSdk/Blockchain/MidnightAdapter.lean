import MidnightSdk.Util.Bech32m
import MidnightSdk.Util.Hex
import MidnightSdk.Wallet.Addresses

/-!
# Addresses of the blockchain adapter

The adapter makes and checks addresses with tables of its own: a network's
number stands for a readable part, and a readable part is known by how it starts.
-/

namespace MidnightSdk.Blockchain

open Cpp HexText Wallet Wallet.Bech32m Wallet.Address

/-- The loop is the shared decoder's, with `false` for its error. -/
def hexToFixedBytes (hexInput : List Char) (outSize : Nat) : Option (List UInt8) :=
  let hex := Util.stripHexPrefix hexInput
  if hex.length ≠ outSize * 2 then none else (Util.hexPairs hex).toOption

def hexToBytes32 (hexInput : List Char) : Option (List UInt8) := hexToFixedBytes hexInput 32

/-- `hrp.rfind(start, 0) == 0` for one of the starts. -/
def hasSupportedHrp (hrp : List UInt8) : Bool :=
  (literal "mn_addr_").isPrefixOf hrp || (literal "mn_shield-addr_").isPrefixOf hrp ||
    (literal "mn_dust_").isPrefixOf hrp

/-- The loop over the data part; `strchr` finds the first place. -/
def charsetPlaces (chars : List UInt8) : Option (List UInt8) :=
  chars.mapM fun ch => (Util.Bech32m.kBech32Charset.idxOf? ch).map UInt8.ofNat

def bech32mValidateAddress (address : List UInt8) : Bool :=
  if address.isEmpty then false
  else if address.any fun c => c < 33 || c > 126 then false
  else if address.any isLower && address.any isUpper then false
  else
    let lower := address.map lowered
    match rfind separator lower with
    | none => false
    | some sep =>
      if sep = 0 ∨ sep + 7 > lower.length then false
      else
        let hrp := lower.take sep
        if !hasSupportedHrp hrp then false
        else
          match charsetPlaces (lower.drop (sep + 1)) with
          | none => false
          | some data =>
            Util.Bech32m.polymod (Util.Bech32m.hrpExpand hrp ++ data) == Util.Bech32m.kBech32mConst

/-- No address is the empty text. -/
def createAddress (publicKey : List Char) (networkId : UInt8) : List UInt8 :=
  if publicKey.isEmpty then []
  else
    match hexToBytes32 publicKey with
    | none => []
    | some payload =>
      let hrp := if networkId = 0 then literal "mn_addr_preprod" else literal "mn_addr_mainnet"
      Util.Bech32m.encode hrp payload

def validateAddress (address : List UInt8) : Bool := bech32mValidateAddress address

/-! ## Making an address -/

theorem createAddress_spells {lead hex : List Char} {key : List UInt8}
    (hlead : lead ∈ [[], ['0', 'x'], ['0', 'X']]) (hkey : key.length = 32) (h : Spells hex key)
    (networkId : UInt8) : createAddress (lead ++ hex) networkId =
      encode (if networkId = 0 then literal "mn_addr_preprod" else literal "mn_addr_mainnet") key := by
  have length := h.length
  have some : (lead ++ hex).isEmpty = false := by
    rw [List.isEmpty_eq_false_iff_exists_mem]
    cases hex with
    | nil =>
      rw [List.length_nil] at length
      omega
    | cons c hex => exact ⟨c, by simp⟩
  have read : hexToBytes32 (lead ++ hex) = .some key := by
    rw [hexToBytes32, hexToFixedBytes, Util.stripHexPrefix_digits hlead h.mem_digits,
      Util.hexPairs_spells h, if_neg (by omega)]
    rfl
  rw [createAddress, some, read, if_neg (by decide)]
  exact Util.Bech32m.encode_eq _ _

/-! ## Checking an address -/

theorem charsetPlaces_charset {vs : List UInt8} (h : ∀ v ∈ vs, v.toNat < 32) :
    charsetPlaces (vs.map charsetAt) = some vs := by
  have place : ∀ v : UInt8, v.toNat < 32 →
      (Util.Bech32m.kBech32Charset.idxOf? (charsetAt v)).map UInt8.ofNat = some v :=
    forall_byte (by decide +kernel)
  induction vs with
  | nil => rfl
  | cons v vs ih =>
    obtain ⟨hv, hvs⟩ := List.forall_mem_cons.mp h
    have rest := ih hvs
    unfold charsetPlaces at rest ⊢
    rw [List.map_cons, List.mapM_cons, place v hv, rest]
    rfl

theorem encode_graph {hrp : List UInt8} (hgraph : ∀ c ∈ hrp, (c < 33 || c > 126) = false)
    (data : List UInt8) : (encode hrp data).any (fun c => c < 33 || c > 126) = false := by
  have drawn : ∀ v : UInt8, v.toNat < 32 → (charsetAt v < 33 || charsetAt v > 126) = false :=
    forall_byte (by decide +kernel)
  rw [List.any_eq_false]
  intro c hc
  rw [Bool.not_eq_true]
  rcases mem_encode hc with h | rfl | ⟨v, hv, rfl⟩
  · exact hgraph c h
  · rfl
  · exact drawn v hv

/-- Of what the encoder writes, the start of the readable part decides. -/
theorem validate_encode {hrp : List UInt8} (hname : hrp ≠ [])
    (hlower : ∀ c ∈ hrp, isUpper c = false)
    (hgraph : ∀ c ∈ hrp, (c < 33 || c > 126) = false) (data : List UInt8) :
    validateAddress (encode hrp data) = hasSupportedHrp hrp := by
  have text : encode hrp data = hrp ++ separator ::
      (toWords data ++ createChecksum hrp (toWords data)).map charsetAt := by
    rw [encode, List.map_append]
  have some : (encode hrp data).isEmpty = false := by
    rw [text]
    simp
  have room : ¬ (hrp.length = 0 ∨ hrp.length + 7 > (encode hrp data).length) := by
    rw [text, List.length_append, List.length_cons, List.length_map, List.length_append,
      length_createChecksum, List.length_eq_zero_iff]
    exact not_or.mpr ⟨hname, by rw [checksumSize]; omega⟩
  have checked : verifyChecksum hrp (toWords data ++ createChecksum hrp (toWords data)) = true :=
    (verifyChecksum_iff hrp (length_createChecksum _ _) (createChecksum_lt _ _)).mpr rfl
  rw [validateAddress, bech32mValidateAddress, some, encode_graph hgraph, any_isUpper_encode hlower,
    map_lowered (encode_lower hlower data), Bool.and_false]
  simp only [Bool.false_eq_true, if_false, rfind_encode]
  rw [if_neg room, text, drop_separator, List.take_left, charsetPlaces_charset (drawn_lt hrp data)]
  cases hasSupportedHrp hrp with
  | false => rfl
  | true =>
    rw [Util.Bech32m.polymod_eq]
    exact checked

/-! ## The wallet's addresses -/

/-- A mainnet address has nothing behind its kind. -/
theorem hasSupportedHrp_iff (network : Network) :
    (hasSupportedHrp (getHrp "addr" network) = true ↔ network ≠ .mainnet) ∧
      (hasSupportedHrp (getHrp "shield-addr" network) = true ↔ network ≠ .mainnet) := by
  cases network <;> decide

theorem getHrp_graph (network : Network) :
    (∀ c ∈ getHrp "addr" network, (c < 33 || c > 126) = false) ∧
      ∀ c ∈ getHrp "shield-addr" network, (c < 33 || c > 126) = false := by
  cases network <;> simp [getHrp, literal, networkToString]

theorem adapterHrp_plain (networkId : UInt8) :
    (if networkId = 0 then literal "mn_addr_preprod" else literal "mn_addr_mainnet") ≠ [] ∧
      ∀ c ∈ if networkId = 0 then literal "mn_addr_preprod" else literal "mn_addr_mainnet",
        isUpper c = false := by
  split <;> simp [literal, isUpper]

theorem adapterHrp_eq_iff (networkId : UInt8) (network : Network) :
    (if networkId = 0 then literal "mn_addr_preprod" else literal "mn_addr_mainnet") =
      getHrp "addr" network ↔ networkId = 0 ∧ network = .preProd := by
  by_cases hid : networkId = 0
  · rw [if_pos hid, and_iff_right hid]
    cases network <;> decide
  · rw [if_neg hid]
    cases network <;> simp [hid, getHrp, literal, networkToString]

/-- **When the adapter agrees with the wallet.** It takes an address exactly when
the address is not one of mainnet, and it makes the same one exactly for preprod
under the number zero. -/
theorem adapter_agrees_iff {key coinPk encPk : List UInt8} (hkey : key.length = 32)
    (hcoin : coinPk.length = 32) (henc : encPk.length = 32) (network : Network)
    {lead hex : List Char} (hlead : lead ∈ [[], ['0', 'x'], ['0', 'X']]) (hhex : Spells hex key)
    (networkId : UInt8) :
    ∃ unshielded shielded, encodeUnshielded key network = .ok unshielded ∧
      encodeShielded coinPk encPk network = .ok shielded ∧
      (validateAddress unshielded = true ↔ network ≠ .mainnet) ∧
      (validateAddress shielded = true ↔ network ≠ .mainnet) ∧
      (createAddress (lead ++ hex) networkId = unshielded ↔
        networkId = 0 ∧ network = .preProd) := by
  obtain ⟨lowerAddr, lowerShielded, -⟩ := getHrp_lower network
  refine ⟨_, _, encodeUnshielded_eq hkey network, encodeShielded_eq hcoin henc network, ?_, ?_, ?_⟩
  · rw [validate_encode (getHrp_ne_nil _ _) lowerAddr (getHrp_graph network).1]
    exact (hasSupportedHrp_iff network).1
  · rw [validate_encode (getHrp_ne_nil _ _) lowerShielded (getHrp_graph network).2]
    exact (hasSupportedHrp_iff network).2
  · rw [createAddress_spells hlead hkey hhex, ← adapterHrp_eq_iff]
    obtain ⟨named, lower⟩ := adapterHrp_plain networkId
    constructor
    · exact fun same => (encode_inj named (getHrp_ne_nil _ _) lower lowerAddr same).1
    · exact fun same => by rw [same]

theorem adapter_agrees_preprod :
    ∃ unshielded shielded, encodeUnshielded (List.replicate 32 0) .preProd = .ok unshielded ∧
      encodeShielded (List.replicate 32 0) (List.replicate 32 0) .preProd = .ok shielded ∧
      (validateAddress unshielded = true ↔ Network.preProd ≠ .mainnet) ∧
      (validateAddress shielded = true ↔ Network.preProd ≠ .mainnet) ∧
      (createAddress ([] ++ Util.bytesToHex (List.replicate 32 0)) 0 = unshielded ↔
        (0 : UInt8) = 0 ∧ Network.preProd = .preProd) :=
  adapter_agrees_iff rfl rfl rfl .preProd (by simp) (Util.bytesToHex_spells _) 0

/-- The mainnet address of a key is refused, and the adapter makes another one. -/
theorem mainnet_address_refused :
    ∃ unshielded, encodeUnshielded (List.replicate 32 0) .mainnet = .ok unshielded ∧
      validateAddress unshielded = false ∧
      createAddress (Util.bytesToHex (List.replicate 32 0)) 1 ≠ unshielded := by
  refine ⟨_, encodeUnshielded_eq rfl _, ?_, ?_⟩
  · rw [validate_encode (getHrp_ne_nil _ _) (getHrp_lower .mainnet).1 (getHrp_graph .mainnet).1]
    decide
  · have bare : [] ∈ [[], ['0', 'x'], ['0', 'X']] := by simp
    rw [← List.nil_append (Util.bytesToHex _), createAddress_spells bare rfl
      (Util.bytesToHex_spells _)]
    intro same
    have hrps := (encode_inj (adapterHrp_plain 1).1 (getHrp_ne_nil _ _) (adapterHrp_plain 1).2
      (getHrp_lower .mainnet).1 same).1
    exact absurd ((adapterHrp_eq_iff 1 .mainnet).mp hrps).1 (by decide)

end MidnightSdk.Blockchain
