import MidnightSdk.Library.Cpp
import MidnightSdk.Library.PolyChecksum
import MidnightSdk.Library.Regroup

/-!
# Bech32m

Addresses as text: a readable part, the last `1`, the bytes in groups of five
bits, and six symbols that bring a shift register to a fixed value. An `int` is
32 bits in two's complement; texts are byte lists.
-/

namespace MidnightSdk.Wallet.Bech32m

open Cpp PolyChecksum Regroup

def charset : List UInt8 := literal "qpzry9x8gf2tvdw0s3jn54khce6mua7l"

def charsetRev : List Int := [
  -1, -1, -1, -1, -1, -1, -1, -1, -1, -1, -1, -1, -1, -1, -1, -1,
  -1, -1, -1, -1, -1, -1, -1, -1, -1, -1, -1, -1, -1, -1, -1, -1,
  -1, -1, -1, -1, -1, -1, -1, -1, -1, -1, -1, -1, -1, -1, -1, -1,
  15, -1, 10, 17, 21, 20, 26, 30,  7,  5, -1, -1, -1, -1, -1, -1,
  -1, 29, -1, 24, 13, 25,  9,  8, 23, -1, 18, 22, 31, 27, 19, -1,
   1,  0,  3, 16, 11, 28, 12, 14,  6,  4,  2, -1, -1, -1, -1, -1,
  -1, 29, -1, 24, 13, 25,  9,  8, 23, -1, 18, 22, 31, 27, 19, -1,
   1,  0,  3, 16, 11, 28, 12, 14,  6,  4,  2, -1, -1, -1, -1, -1]

def bech32mConst : UInt32 := 0x2bc830a3

def checksumSize : Nat := 6

/-- `'1'` -/
def separator : UInt8 := 49

/-! ## The checksum -/

def polymodStep (c : UInt32) (v : UInt8) : UInt32 :=
  let c0 := (c >>> 25).toUInt8
  let c := ((c &&& 0x1ffffff) <<< 5) ^^^ v.toUInt32
  let c := if c0 &&& 1 ≠ 0 then c ^^^ 0x3b6a57b2 else c
  let c := if c0 &&& 2 ≠ 0 then c ^^^ 0x26508e6d else c
  let c := if c0 &&& 4 ≠ 0 then c ^^^ 0x1ea119fa else c
  let c := if c0 &&& 8 ≠ 0 then c ^^^ 0x3d4233dd else c
  if c0 &&& 16 ≠ 0 then c ^^^ 0x2a1462b3 else c

def polymod (v : List UInt8) : UInt32 := v.foldl polymodStep 1

def expandHrp (hrp : List UInt8) : List UInt8 :=
  (hrp.map fun (c : UInt8) => c >>> 5) ++ 0 :: hrp.map fun (c : UInt8) => c &&& 0x1f

def createChecksum (hrp values : List UInt8) : List UInt8 :=
  let enc := expandHrp hrp ++ values ++ List.replicate checksumSize 0
  let mod := polymod enc ^^^ bech32mConst
  (List.range checksumSize).map fun i => ((mod >>> UInt32.ofNat (5 * (5 - i))) &&& 31).toUInt8

def verifyChecksum (hrp values : List UInt8) : Bool :=
  polymod (expandHrp hrp ++ values) == bech32mConst

/-! ## Groups of five bits -/

/-- The inner loop of both directions: groups leave at the high end of the low
`bits` bits. The first argument is at least the number of rounds. -/
def drain (width : Nat) (acc : BitVec 32) : Nat → Nat → List UInt8 × Nat
  | 0, bits => ([], bits)
  | fuel + 1, bits =>
    if bits ≥ width then
      let bits := bits - width
      let value := acc.sshiftRight bits &&& BitVec.ofNat 32 (2 ^ width - 1)
      let (ret, left) := drain width acc fuel bits
      (UInt8.ofBitVec (value.setWidth 8) :: ret, left)
    else ([], bits)

def toWordsLoop : BitVec 32 → Nat → List UInt8 → List UInt8
  | acc, bits, [] =>
    if bits > 0 then [UInt8.ofBitVec (((acc <<< (5 - bits)) &&& 31#32).setWidth 8)] else []
  | acc, bits, value :: data =>
    let acc := (acc <<< 8) ||| value.toBitVec.setWidth 32
    let (ret, left) := drain 5 acc (bits + 8) (bits + 8)
    ret ++ toWordsLoop acc left data

def toWords (data : List UInt8) : List UInt8 := toWordsLoop 0 0 data

/-- The test of the bits left at the end has no effect, whatever its outcome. -/
def fromWordsLoop : BitVec 32 → Nat → List UInt8 → Throws (List UInt8)
  | _, _, [] => .ok []
  | acc, bits, value :: words => do
    if value >>> 5 ≠ 0 then throw (.runtimeError "Invalid word value in Bech32m data")
    let acc := (acc <<< 5) ||| value.toBitVec.setWidth 32
    let (ret, left) := drain 8 acc (bits + 5) (bits + 5)
    let rest ← fromWordsLoop acc left words
    return ret ++ rest

def fromWords (words : List UInt8) : Throws (List UInt8) := fromWordsLoop 0 0 words

/-! ## Texts -/

def charsetAt (v : UInt8) : UInt8 := (charset[v.toNat]?).getD 0

def encode (hrp data : List UInt8) : List UInt8 :=
  let values := toWords data
  let checksum := createChecksum hrp values
  hrp ++ separator :: (values.map charsetAt ++ checksum.map charsetAt)

def isLower (c : UInt8) : Bool := 97 ≤ c && c ≤ 122

def isUpper (c : UInt8) : Bool := 65 ≤ c && c ≤ 90

/-- `c - 'A' + 'a'` of a capital. -/
def lowered (c : UInt8) : UInt8 := if isUpper c then c - 65 + 97 else c

def rev (c : UInt8) : Int := (charsetRev[c.toNat]?).getD (-1)

/-- The loop over the data part. -/
def decodeValues : List UInt8 → Throws (List UInt8)
  | [] => .ok []
  | c :: rest => do
    if c ≥ 128 then throw (.runtimeError "Invalid Bech32m character")
    if rev c = -1 then throw (.runtimeError "Invalid Bech32m character")
    let values ← decodeValues rest
    return UInt8.ofNat (rev c).toNat :: values

/-- The separator's place, if the checksum fits behind it and something is before. -/
def separatorAt (text : List UInt8) : Option Nat := do
  let pos ← rfind separator text
  if pos = 0 ∨ pos + checksumSize ≥ text.length then none else some pos

def decode (text : List UInt8) : Throws (List UInt8 × List UInt8) := do
  let some pos := separatorAt text
    | throw (.runtimeError "Invalid Bech32m string: missing or invalid separator")
  if text.any isLower && text.any isUpper then
    throw (.runtimeError "Invalid Bech32m string: mixed case")
  let hrp := (text.take pos).map lowered
  let values ← decodeValues (text.drop (pos + 1))
  if !verifyChecksum hrp values then throw (.runtimeError "Invalid Bech32m checksum")
  let data ← fromWords (values.take (values.length - checksumSize))
  return (hrp, data)

/-! ## The register -/

/-- What the five high bits feed back. -/
def generator (c0 : UInt8) : UInt32 :=
  (if c0 &&& 1 ≠ 0 then 0x3b6a57b2 else 0) ^^^ (if c0 &&& 2 ≠ 0 then 0x26508e6d else 0) ^^^
    (if c0 &&& 4 ≠ 0 then 0x1ea119fa else 0) ^^^ (if c0 &&& 8 ≠ 0 then 0x3d4233dd else 0) ^^^
    (if c0 &&& 16 ≠ 0 then 0x2a1462b3 else 0)

def feedback (x : Nat) : Nat := (generator (UInt8.ofNat x)).toNat

theorem feedback_lt (x : Nat) : feedback x < 2 ^ (5 * (5 + 1)) := by
  have all : ∀ c0, (generator c0).toNat < 2 ^ (5 * (5 + 1)) := forall_byte (by decide +kernel)
  exact all _

theorem polymodStep_eq (c : UInt32) (v : UInt8) :
    polymodStep c v =
      (((c &&& 0x1ffffff) <<< 5) ^^^ v.toUInt32) ^^^ generator (c >>> 25).toUInt8 := by
  have branch (p : Prop) [Decidable p] (x g : UInt32) :
      (if p then x ^^^ g else x) = x ^^^ (if p then g else 0) := by
    split
    · rfl
    · exact UInt32.xor_zero.symm
  simp only [polymodStep, branch]
  simp only [generator, UInt32.xor_assoc]

/-- The code's register is a shift register of six symbols of five bits. -/
theorem toNat_polymodStep (c : UInt32) (v : UInt8) :
    (polymodStep c v).toNat = step 5 5 feedback c.toNat v.toNat := by
  have low : ((c &&& 0x1ffffff) <<< 5).toNat = (c.toNat % 2 ^ 25) <<< 5 := by
    rw [UInt32.toNat_shiftLeft, UInt32.toNat_and]
    change ((c.toNat &&& 2 ^ 25 - 1) <<< 5) % 2 ^ 32 = _
    rw [Nat.and_two_pow_sub_one_eq_mod, Nat.shiftLeft_eq]
    omega
  have high : (c >>> 25).toUInt8 = UInt8.ofNat (c.toNat >>> 25) := by
    apply UInt8.toNat_inj.mp
    simp
  rw [polymodStep_eq, UInt32.toNat_xor, UInt32.toNat_xor, low, high]
  rfl

theorem toNat_polymod (vs : List UInt8) :
    (polymod vs).toNat = absorb 5 5 feedback 1 (vs.map (·.toNat)) := by
  induction vs using List.reverseRecOn with
  | nil => rfl
  | append_singleton vs v ih =>
    rw [polymod, List.foldl_append, List.map_append, List.map_singleton, absorb_snoc, ← ih]
    exact toNat_polymodStep _ v

theorem map_toNat_createChecksum (hrp values : List UInt8) :
    (createChecksum hrp values).map (·.toNat) =
      symbols 5 5 (polymod (expandHrp hrp ++ values ++ List.replicate 6 0) ^^^ bech32mConst).toNat := by
  rw [createChecksum, symbols, List.map_map]
  refine List.map_congr_left ?_
  intro i hi
  have place : (UInt32.ofNat (5 * (5 - i))).toNat % 32 = 5 * (5 - i) := by
    rw [UInt32.toNat_ofNat']
    omega
  have cut (x : UInt32) : ((x &&& 31).toUInt8).toNat = x.toNat % 2 ^ 5 := by
    rw [UInt32.toNat_toUInt8, UInt32.toNat_and]
    change (x.toNat &&& 2 ^ 5 - 1) % 2 ^ 8 = _
    rw [Nat.and_two_pow_sub_one_eq_mod]
    omega
  rw [Function.comp_apply, cut, UInt32.toNat_shiftRight, place]
  rfl

/-- One checksum verifies behind given symbols. -/
theorem verifyChecksum_iff (hrp : List UInt8) {values checksum : List UInt8}
    (hlength : checksum.length = checksumSize) (hsymbols : ∀ v ∈ checksum, v.toNat < 32) :
    verifyChecksum hrp (values ++ checksum) = true ↔ checksum = createChecksum hrp values := by
  have before (last : List UInt8) : (polymod (expandHrp hrp ++ values ++ last)).toNat =
      absorb 5 5 feedback (absorb 5 5 feedback 1 ((expandHrp hrp ++ values).map (·.toNat)))
        (last.map (·.toNat)) := by
    rw [toNat_polymod, List.map_append, absorb, absorb, absorb, List.foldl_append]
  have small : ∀ v ∈ checksum.map (·.toNat), v < 2 ^ 5 := by
    intro v hv
    obtain ⟨u, hu, rfl⟩ := List.mem_map.mp hv
    exact hsymbols u hu
  have target : bech32mConst.toNat < 2 ^ (5 * (5 + 1)) := by decide
  have reached := absorb_eq_iff feedback_lt
    (absorb 5 5 feedback 1 ((expandHrp hrp ++ values).map (·.toNat))) target small
    ((List.length_map _).trans hlength)
  have zeros : List.replicate (5 + 1) 0 = (List.replicate 6 (0 : UInt8)).map (·.toNat) := rfl
  rw [← before, zeros, ← before, ← UInt32.toNat_xor, ← map_toNat_createChecksum,
    UInt32.toNat_inj] at reached
  rw [verifyChecksum, beq_iff_eq, ← List.append_assoc, reached]
  exact (List.map_injective_iff.mpr fun _ _ => UInt8.toNat_inj.mp).eq_iff

/-! ## The regrouping -/

/-- The group that leaves above `low` bits of the accumulator. -/
theorem leaving_spec (width low : Nat) (hbyte : width ≤ 8) (hlow : low + width ≤ 32)
    (acc : BitVec 32) {v : UInt8}
    (hv : v = UInt8.ofBitVec ((acc.sshiftRight low &&& BitVec.ofNat 32 (2 ^ width - 1)).setWidth 8)) :
    v.toNat < 2 ^ width ∧ lowBits width v.toNat = lowBits width (acc.toNat >>> low) := by
  have bit (i : Nat) :
      v.toNat.testBit i = (decide (i < width) && (acc.toNat >>> low).testBit i) := by
    subst hv
    rw [UInt8.toNat_ofBitVec, BitVec.testBit_toNat, BitVec.getLsbD_setWidth, BitVec.getLsbD_and,
      BitVec.getLsbD_sshiftRight, BitVec.getLsbD_ofNat, Nat.testBit_two_pow_sub_one,
      Nat.testBit_shiftRight, BitVec.testBit_toNat]
    by_cases hi : i < width
    · have inside : low + i < 32 := by omega
      simp [hi, inside, show i < 8 by omega, show i < 32 by omega]
    · simp [hi]
  constructor
  · apply Nat.lt_pow_two_of_testBit
    intro i hi
    rw [bit, decide_eq_false (Nat.not_lt.mpr hi), Bool.false_and]
  · apply lowBits_congr
    intro i hi
    rw [bit, decide_eq_true hi, Bool.true_and]

/-- A value pushed in at the low end. -/
theorem lowBits_push (width bits : Nat) (hbits : bits + width ≤ 32) (acc : BitVec 32) {v : UInt8}
    (hv : v.toNat < 2 ^ width) :
    lowBits (bits + width) ((acc <<< width) ||| v.toBitVec.setWidth 32).toNat =
      lowBits bits acc.toNat ++ lowBits width v.toNat := by
  have bit (i : Nat) (hi : i < 32) : ((acc <<< width) ||| v.toBitVec.setWidth 32).toNat.testBit i =
      (decide (width ≤ i) && acc.toNat.testBit (i - width) || v.toNat.testBit i) := by
    rw [BitVec.testBit_toNat, BitVec.getLsbD_or, BitVec.getLsbD_shiftLeft, BitVec.getLsbD_setWidth,
      BitVec.testBit_toNat, ← BitVec.testBit_toNat v.toBitVec]
    by_cases hlow : width ≤ i
    · simp [hi, hlow, Nat.not_lt_of_le hlow]
    · simp [hi, hlow, Nat.lt_of_not_le hlow]
  rw [lowBits_add]
  congr 1
  · apply lowBits_congr
    intro i hi
    have high : v.toNat.testBit (width + i) = false :=
      Nat.testBit_lt_two_pow (Nat.lt_of_lt_of_le hv (Nat.pow_le_pow_right (by decide) (by omega)))
    rw [Nat.testBit_shiftRight, bit _ (by omega), high]
    simp
  · apply lowBits_congr
    intro i hi
    rw [bit _ (by omega)]
    simp [Nat.not_le_of_lt hi]

/-- Zeros pushed in at the low end. -/
theorem lowBits_fill (pad bits : Nat) (hbits : bits + pad ≤ 32) (acc : BitVec 32) :
    lowBits (bits + pad) (acc <<< pad).toNat = lowBits bits acc.toNat ++ List.replicate pad false := by
  have small : (0 : UInt8).toNat < 2 ^ pad := Nat.two_pow_pos pad
  have pushed := lowBits_push pad bits hbits acc small
  have zeros : lowBits pad (0 : UInt8).toNat = List.replicate pad false :=
    lowBits_eq_zeros.mpr (Nat.zero_mod _)
  have same : (acc <<< pad) ||| (0 : UInt8).toBitVec.setWidth 32 = acc <<< pad := BitVec.or_zero
  rwa [same, zeros] at pushed

/-- What leaves the accumulator and what stays spell its low bits. -/
theorem drain_spec (width : Nat) (hpos : 0 < width) (hbyte : width ≤ 8) (acc : BitVec 32)
    (fuel bits : Nat) (hfuel : bits ≤ fuel) (hbits : bits ≤ 32) :
    (drain width acc fuel bits).2 < width ∧
      (∀ v ∈ (drain width acc fuel bits).1, v.toNat < 2 ^ width) ∧
      spelled width ((drain width acc fuel bits).1.map (·.toNat)) ++
        lowBits (drain width acc fuel bits).2 acc.toNat = lowBits bits acc.toNat := by
  induction fuel generalizing bits with
  | zero =>
    obtain rfl := Nat.le_zero.mp hfuel
    exact ⟨hpos, nofun, rfl⟩
  | succ fuel ih =>
    rw [drain]
    by_cases hleave : bits ≥ width
    · obtain ⟨hleft, hsmall, hspelled⟩ := ih (bits - width) (by omega) (by omega)
      obtain ⟨hv, hvbits⟩ := leaving_spec width (bits - width) hbyte (by omega) acc rfl
      rw [if_pos hleave]
      refine ⟨hleft, List.forall_mem_cons.mpr ⟨hv, hsmall⟩, ?_⟩
      have split : bits = width + (bits - width) := by omega
      rw [List.map_cons, spelled_cons, List.append_assoc, hspelled, hvbits]
      conv_rhs => rw [split, lowBits_add]
    · rw [if_neg hleave]
      exact ⟨Nat.lt_of_not_ge hleave, nofun, rfl⟩

/-- The words spell the bytes, filled up with fewer than five zeros. -/
theorem toWordsLoop_spec (data : List UInt8) (acc : BitVec 32) (bits : Nat) (hbits : bits < 5) :
    (∀ w ∈ toWordsLoop acc bits data, w.toNat < 32) ∧ ∃ pad < 5,
      spelled 5 ((toWordsLoop acc bits data).map (·.toNat)) =
        lowBits bits acc.toNat ++ spelled 8 (data.map (·.toNat)) ++ List.replicate pad false := by
  induction data generalizing acc bits with
  | nil =>
    rw [toWordsLoop]
    by_cases hsome : bits > 0
    · rw [if_pos hsome]
      have filled := lowBits_fill (5 - bits) bits (by omega) acc
      have whole : bits + (5 - bits) = 5 := by omega
      obtain ⟨hv, hvbits⟩ := leaving_spec 5 0 (by decide) (by decide) (acc <<< (5 - bits)) rfl
      rw [BitVec.sshiftRight_zero] at hv hvbits
      rw [whole] at filled
      refine ⟨List.forall_mem_singleton.mpr hv, 5 - bits, by omega, ?_⟩
      rw [List.map_singleton, spelled_cons, spelled_nil, List.append_nil, List.map_nil, spelled_nil,
        List.append_nil]
      exact hvbits.trans filled
    · obtain rfl : bits = 0 := by omega
      exact ⟨nofun, 0, by decide, rfl⟩
  | cons value data ih =>
    have pushed := lowBits_push 8 bits (by omega) acc value.toNat_lt
    rw [toWordsLoop]
    generalize (acc <<< 8) ||| value.toBitVec.setWidth 32 = next at pushed ⊢
    obtain ⟨hleft, hsmall, hspelled⟩ := drain_spec 5 (by decide) (by decide) next
      (bits + 8) (bits + 8) (Nat.le_refl _) (by omega)
    obtain ⟨hrest, pad, hpad, hwords⟩ := ih next _ hleft
    refine ⟨?_, pad, hpad, ?_⟩
    · intro w hw
      rcases List.mem_append.mp hw with hw | hw
      · exact hsmall w hw
      · exact hrest w hw
    · rw [List.map_append, spelled_append, hwords, ← List.append_assoc, ← List.append_assoc, hspelled,
        pushed, List.map_cons, spelled_cons]
      simp only [List.append_assoc]

/-- The bytes spell the words up to fewer than eight bits at the end. -/
theorem fromWordsLoop_spec (words : List UInt8) (hwords : ∀ w ∈ words, w.toNat < 32)
    (acc : BitVec 32) (bits : Nat) (hbits : bits < 8) :
    ∃ data rest, fromWordsLoop acc bits words = .ok data ∧ rest.length < 8 ∧
      lowBits bits acc.toNat ++ spelled 5 (words.map (·.toNat)) =
        spelled 8 (data.map (·.toNat)) ++ rest := by
  induction words generalizing acc bits with
  | nil => exact ⟨[], lowBits bits acc.toNat, rfl, by simpa using hbits, by simp⟩
  | cons value words ih =>
    obtain ⟨hvalue, hwords⟩ := List.forall_mem_cons.mp hwords
    have small : value >>> 5 = 0 := by
      apply UInt8.toNat_inj.mp
      rw [UInt8.toNat_shiftRight]
      change value.toNat >>> 5 = 0
      rw [Nat.shiftRight_eq_div_pow, Nat.div_eq_of_lt hvalue]
    have pushed := lowBits_push 5 bits (by omega) acc hvalue
    rw [fromWordsLoop, if_neg (not_not.mpr small)]
    generalize (acc <<< 5) ||| value.toBitVec.setWidth 32 = next at pushed ⊢
    obtain ⟨hleft, -, hspelled⟩ := drain_spec 8 (by decide) (by decide) next
      (bits + 5) (bits + 5) (Nat.le_refl _) (by omega)
    obtain ⟨data, rest, hdata, hrest, hbytes⟩ := ih hwords next _ hleft
    refine ⟨(drain 8 next (bits + 5) (bits + 5)).1 ++ data, rest, ?_, hrest, ?_⟩
    · change (fromWordsLoop next (drain 8 next (bits + 5) (bits + 5)).2 words >>= _) = _
      rw [hdata]
      rfl
    · rw [List.map_cons, spelled_cons, ← List.append_assoc, ← pushed, ← hspelled, List.append_assoc,
        hbytes, List.map_append, spelled_append, List.append_assoc]

theorem map_toNat_injective : Function.Injective (List.map (·.toNat) : List UInt8 → List Nat) :=
  List.map_injective_iff.mpr fun _ _ => UInt8.toNat_inj.mp

theorem map_toNat_lt {n : Nat} {vs : List UInt8} (h : ∀ v ∈ vs, v.toNat < n) :
    ∀ v ∈ vs.map (·.toNat), v < n := by
  intro v hv
  obtain ⟨u, hu, rfl⟩ := List.mem_map.mp hv
  exact h u hu

theorem toWords_spec (data : List UInt8) :
    (∀ w ∈ toWords data, w.toNat < 32) ∧ ∃ pad < 5,
      spelled 5 ((toWords data).map (·.toNat)) =
        spelled 8 (data.map (·.toNat)) ++ List.replicate pad false :=
  toWordsLoop_spec data 0 0 (by decide)

theorem fromWords_spec {words : List UInt8} (hwords : ∀ w ∈ words, w.toNat < 32) :
    ∃ data rest, fromWords words = .ok data ∧ rest.length < 8 ∧
      spelled 5 (words.map (·.toNat)) = spelled 8 (data.map (·.toNat)) ++ rest :=
  fromWordsLoop_spec words hwords 0 0 (by decide)

theorem fromWords_toWords (data : List UInt8) : fromWords (toWords data) = .ok data := by
  obtain ⟨hwords, pad, hpad, hto⟩ := toWords_spec data
  obtain ⟨decoded, rest, hdecoded, hrest, hfrom⟩ := fromWords_spec hwords
  have same := spelled_unique (map_toNat_lt fun v _ => v.toNat_lt) (map_toNat_lt fun v _ => v.toNat_lt)
    hrest (by rw [List.length_replicate]; omega) (hfrom.symm.trans hto)
  rw [hdecoded, map_toNat_injective same.1]

/-- The bits left over behind the last byte are fewer than a word and zero. -/
def NoStrayBits (words : List UInt8) : Prop :=
  5 * words.length % 8 < 5 ∧ ((words.getLast?).getD 0).toNat % 2 ^ (5 * words.length % 8) = 0

instance (words : List UInt8) : Decidable (NoStrayBits words) := inferInstanceAs (Decidable (_ ∧ _))

/-- Words come back from their bytes exactly when no bit of them is lost. -/
theorem toWords_fromWords_iff {words data : List UInt8} (hwords : ∀ w ∈ words, w.toNat < 32)
    (hdata : fromWords words = .ok data) : toWords data = words ↔ NoStrayBits words := by
  obtain ⟨hto, pad, hpad, hback⟩ := toWords_spec data
  obtain ⟨decoded, rest, hdecoded, hrest, hfrom⟩ := fromWords_spec hwords
  obtain rfl := Except.ok.inj (hdata.symm.trans hdecoded)
  have length := congrArg List.length hfrom
  have lengthBack := congrArg List.length hback
  simp only [length_spelled, List.length_append, List.length_map, List.length_replicate]
    at length lengthBack
  have left : 5 * words.length % 8 = rest.length := by omega
  -- the rest lies within the last word
  have low (hshort : rest.length < 5) :
      rest = lowBits rest.length ((words.getLast?).getD 0).toNat := by
    cases words using List.reverseRecOn with
    | nil =>
      have none : rest.length = 0 := by
        rw [List.length_nil] at length
        omega
      rw [List.length_eq_zero_iff.mp none]
      rfl
    | append_singleton words w =>
      rw [List.getLast?_append_cons, List.getLast?_singleton]
      rw [List.map_append] at hfrom
      exact rest_eq_lowBits hfrom (Nat.le_of_lt hshort)
  rw [NoStrayBits, left]
  constructor
  · intro same
    rw [same] at hback
    have zeros := List.append_cancel_left (hfrom.symm.trans hback)
    have short : rest.length < 5 := by rw [zeros, List.length_replicate]; exact hpad
    refine ⟨short, lowBits_eq_zeros.mp ?_⟩
    rw [← low short, zeros, List.length_replicate]
  · rintro ⟨short, hzero⟩
    have zeros : rest = List.replicate rest.length false := (low short).trans (lowBits_eq_zeros.mpr hzero)
    have same : pad = rest.length := by omega
    rw [same, ← zeros, ← hfrom, ← List.append_nil (spelled 5 (words.map _)),
      ← List.append_nil (spelled 5 ((toWords data).map _))] at hback
    exact map_toNat_injective (spelled_unique (map_toNat_lt hto) (map_toNat_lt hwords) (by decide)
      (by decide) hback).1

end MidnightSdk.Wallet.Bech32m
