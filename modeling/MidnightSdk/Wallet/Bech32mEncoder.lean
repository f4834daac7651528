import MidnightSdk.Codec.ScaleEncoder
import MidnightSdk.Wallet.Addresses

/-!
# The second address encoder

A class of its own encodes addresses from keys. Its texts are those of the
wallet's encoder; its dust payload drops leading zeros and keeps the bytes with
the most significant one first.
-/

namespace MidnightSdk.Wallet

open Cpp LittleEndian Bech32m Address

namespace Bech32mEncoder

/-- The same loop as `toWords`. -/
def bytesToWords (data : List UInt8) : List UInt8 := toWordsLoop 0 0 data

def encodeRaw (hrp wordsIn : List UInt8) : List UInt8 :=
  let allValues := expandHrp hrp ++ wordsIn ++ [0, 0, 0, 0, 0, 0]
  let checksum := polymod allValues ^^^ 0x2BC830A3
  let resultWords := wordsIn ++
    (List.range 6).map fun i => ((checksum >>> UInt32.ofNat (5 * (5 - i))) &&& 31).toUInt8
  hrp ++ separator :: resultWords.map charsetAt

def encode (hrp data : List UInt8) : List UInt8 := encodeRaw hrp (bytesToWords data)

/-- The bytes the loop leaves: from the first one that is not zero, and the last
one in any case. -/
def significant : List UInt8 → List UInt8
  | [] => []
  | [b] => [b]
  | b :: c :: rest => if b = 0 then significant (c :: rest) else b :: c :: rest

/-- The bytes come most significant first, and there is one at least. -/
def scaleBigintEncodeBe (bigintBe : List UInt8) : List UInt8 :=
  let bytes := significant bigintBe
  let actual := bytes.length
  if actual ≤ 4 then
    let val : UInt64 := bytes.foldl (fun val b => (val <<< 8) ||| b.toUInt64) 0
    if val < 0x40 then [(val <<< 2).toUInt8]
    else if val < 0x4000 then [((val >>> 8) <<< 2 ||| 0x01).toUInt8, (val &&& 0xFF).toUInt8]
    else if val < 0x40000000 then
      [((val >>> 24) <<< 2 ||| 0x02).toUInt8, ((val >>> 16) &&& 0xFF).toUInt8,
        ((val >>> 8) &&& 0xFF).toUInt8, (val &&& 0xFF).toUInt8]
    else lenNibbles actual :: bytes
  else lenNibbles actual :: bytes

/-- The scalar has 32 bytes. -/
def scalarLeToBe32 (le : List UInt8) : List UInt8 := (le.take 32).reverse

def encodeDustFromScalar (scalarLe : List UInt8) (network : String) : List UInt8 :=
  let be := scalarLeToBe32 scalarLe
  let scale := scaleBigintEncodeBe be
  let hrp := literal "mn_dust" ++
    (if network = "" ∨ network = "mainnet" then [] else literal "_" ++ literal network)
  encode hrp scale

/-! ## Its texts -/

theorem encode_eq (hrp data : List UInt8) : encode hrp data = Bech32m.encode hrp data := by
  rw [encode, encodeRaw, List.map_append]
  rfl

theorem dustHrp_eq (network : Network) :
    literal "mn_dust" ++ (if networkToString network = "" ∨ networkToString network = "mainnet"
      then [] else literal "_" ++ literal (networkToString network)) = getHrp "dust" network := by
  cases network <;> decide

theorem encodeDustFromScalar_eq {scalar : List UInt8} (h : scalar.length = 32) (network : Network) :
    encodeDustFromScalar scalar (networkToString network) =
      Bech32m.encode (getHrp "dust" network) (scaleBigintEncodeBe scalar.reverse) := by
  rw [encodeDustFromScalar, scalarLeToBe32, List.take_of_length_le (Nat.le_of_eq h), dustHrp_eq]
  exact encode_eq _ _

/-! ## The dust payloads -/

theorem significant_of_ne_zero {b : UInt8} (hb : b ≠ 0) (rest : List UInt8) :
    significant (b :: rest) = b :: rest := by
  cases rest with
  | nil => rfl
  | cons c rest => rw [significant, if_neg hb]

theorem significant_length_le (bytes : List UInt8) : (significant bytes).length ≤ bytes.length := by
  fun_induction significant bytes with
  | case1 => exact Nat.le_refl _
  | case2 b => exact Nat.le_refl _
  | case3 c rest ih => exact Nat.le_succ_of_le ih
  | case4 b c rest hb => exact Nat.le_refl _

theorem length_scaleBigintEncodeBe_le (bytes : List UInt8) :
    (scaleBigintEncodeBe bytes).length ≤ max 4 ((significant bytes).length + 1) := by
  unfold scaleBigintEncodeBe
  dsimp only
  split_ifs <;> simp only [List.length_cons, List.length_nil] <;> omega

theorem scaleBigintEncodeBe_of_ne_zero {b : UInt8} (hb : b ≠ 0) {rest : List UInt8}
    (hlong : 4 ≤ rest.length) :
    scaleBigintEncodeBe (b :: rest) = lenNibbles (rest.length + 1) :: b :: rest := by
  rw [scaleBigintEncodeBe, significant_of_ne_zero hb]
  exact if_neg (by rw [List.length_cons]; omega)

/-- With a leading zero the second payload is shorter than the first. -/
theorem length_scaleBigintEncodeBe_zero {rest : List UInt8} (hlong : 4 ≤ rest.length) :
    (scaleBigintEncodeBe (0 :: rest)).length ≤ rest.length + 1 := by
  have short : (significant (0 :: rest)).length ≤ rest.length := by
    cases rest with
    | nil => simp at hlong
    | cons c rest =>
      rw [significant, if_pos rfl]
      exact significant_length_le _
  have := length_scaleBigintEncodeBe_le (0 :: rest)
  omega

theorem payloads_eq_iff {scalar : List UInt8} (h : scalar.length = 32) :
    scaleBigintEncodeBe scalar.reverse = lenNibbles 32 :: scalar ↔
      scalar.getLast? ≠ some 0 ∧ scalar.reverse = scalar := by
  rw [← List.head?_reverse]
  have length : scalar.reverse.length = 32 := by rw [List.length_reverse, h]
  cases hbe : scalar.reverse with
  | nil => simp [hbe] at length
  | cons b rest =>
    rw [hbe, List.length_cons] at length
    rw [List.head?_cons, ne_eq, Option.some_inj]
    by_cases hb : b = 0
    · subst hb
      have long : 4 ≤ rest.length := by omega
      have short := length_scaleBigintEncodeBe_zero long
      refine ⟨fun same => ?_, fun both => absurd rfl both.1⟩
      rw [same, List.length_cons, h] at short
      omega
    · rw [scaleBigintEncodeBe_of_ne_zero hb (by omega), length, List.cons_inj_right]
      exact (and_iff_right hb).symm

/-- The first payload is the canonical form of the numbers of 32 bytes. -/
theorem canonical_iff {scalar : List UInt8} (h : scalar.length = 32) :
    lenNibbles 32 :: scalar = Compact.encode (leValue scalar) ↔ scalar.getLast? ≠ some 0 := by
  cases scalar using List.reverseRecOn with
  | nil => simp at h
  | append_singleton front b =>
    rw [List.length_append, List.length_singleton] at h
    rw [List.getLast?_concat, ne_eq, Option.some_inj]
    by_cases hb : b = 0
    · have small : leValue (front ++ [b]) < 256 ^ 31 := by
        have below := leValue_lt front
        rw [hb, leValue_concat]
        simpa [show front.length = 31 by omega] using below
      have short := Compact.encode_length_le (by decide) small
      refine ⟨fun same => ?_, fun hne => absurd hb hne⟩
      rw [← same, List.length_cons, List.length_append, List.length_singleton] at short
      omega
    · have length : front.length = 31 := by omega
      rw [Compact.encode_leValue front hb (by omega), length]
      exact iff_of_true rfl hb

/-! ## Both encoders -/

/-- Both encoders make one address, which carries the canonical compact form of
the scalar; a number of 64 bits has the bytes of the SCALE encoder. -/
def DustLaw (scalar : List UInt8) (network : Network) : Prop :=
  ∃ payload, encodeDust scalar network =
      .ok (encodeDustFromScalar scalar (networkToString network)) ∧
    decode (encodeDustFromScalar scalar (networkToString network)) =
      .ok (getHrp "dust" network, payload) ∧
    payload = Compact.encode (leValue scalar) ∧
    ∀ value : UInt64, value.toNat = leValue scalar →
      payload = (Codec.ScaleEncoder.encodeCompact {} value).buffer

theorem encodeDust_eq_iff {scalar : List UInt8} (h : scalar.length = 32) (network : Network) :
    encodeDust scalar network = .ok (encodeDustFromScalar scalar (networkToString network)) ↔
      scalar.getLast? ≠ some 0 ∧ scalar.reverse = scalar := by
  have some : scalar ≠ [] := by
    rintro rfl
    cases h
  have lower := (getHrp_lower network).2.2
  have named := getHrp_ne_nil "dust" network
  rw [encodeDust_eq some, h, encodeDustFromScalar_eq h, ← payloads_eq_iff h, Except.ok.injEq]
  constructor
  · exact fun same => (encode_inj named named lower lower same).2.symm
  · exact fun same => by rw [same]

/-- **When the dust encoders agree.** The scalar's last byte is not zero, and it
reads the same from both ends. -/
theorem dustLaw_iff (scalar : List UInt8) (h : scalar.length = 32) (network : Network) :
    DustLaw scalar network ↔ scalar.getLast? ≠ some 0 ∧ scalar.reverse = scalar := by
  rw [DustLaw, encodeDust_eq_iff h]
  constructor
  · rintro ⟨payload, agree, -⟩
    exact agree
  · intro agree
    have same := (payloads_eq_iff h).mpr agree
    have canonical := (canonical_iff h).mpr agree.1
    refine ⟨lenNibbles 32 :: scalar, agree, ?_, canonical, ?_⟩
    · rw [encodeDustFromScalar_eq h, same]
      exact decode_encode (getHrp_ne_nil _ _) (getHrp_lower network).2.2 _
    · intro value hvalue
      rw [Codec.ScaleEncoder.encodeCompact_buffer, hvalue, ← canonical]
      rfl

/-- A scalar whose bytes are all alike. -/
theorem dustLaw_ones : DustLaw (List.replicate 32 1) .preProd ↔
    (List.replicate 32 (1 : UInt8)).getLast? ≠ some 0 ∧
      (List.replicate 32 (1 : UInt8)).reverse = List.replicate 32 1 :=
  dustLaw_iff (List.replicate 32 1) rfl .preProd

/-- The number one: the first encoder spends 32 bytes on it, the second one byte. -/
theorem dust_encoders_disagree : ¬ DustLaw (1 :: List.replicate 31 0) .preProd := by
  rintro ⟨payload, agree, -⟩
  exact ((encodeDust_eq_iff rfl .preProd).mp agree).1 (by decide)

end Bech32mEncoder

end MidnightSdk.Wallet
