import MidnightSdk.Wallet.Bech32mEncoder

/-!
# The shared Bech32m encoder

The utilities the subsystems share bring their own encoder: the feedback is a
loop over a table, and the accumulator of the regrouping is cut to the bits it
can need. It writes the texts of the wallet's encoder.
-/

namespace MidnightSdk.Util.Bech32m

open Cpp Regroup Wallet.Bech32m

def kBech32mConst : UInt32 := 0x2BC830A3

def kBech32Charset : List UInt8 := literal "qpzry9x8gf2tvdw0s3jn54khce6mua7l"

def gen : List UInt32 := [0x3B6A57B2, 0x26508E6D, 0x1EA119FA, 0x3D4233DD, 0x2A1462B3]

/-- What the loop over the table feeds back for the high bits. -/
def feed (top : UInt32) (chk : UInt32) (i : Nat) : UInt32 :=
  chk ^^^ if (top >>> UInt32.ofNat i) &&& 1 ≠ 0 then (gen[i]?).getD 0 else 0

def polymodStep (chk : UInt32) (value : UInt8) : UInt32 :=
  let top := chk >>> 25
  let chk := ((chk &&& 0x1FFFFFF) <<< 5) ^^^ value.toUInt32
  (List.range 5).foldl (feed top) chk

def polymod (values : List UInt8) : UInt32 := values.foldl polymodStep 1

def hrpExpand (hrp : List UInt8) : List UInt8 :=
  (hrp.map fun (c : UInt8) => c >>> 5) ++ 0 :: hrp.map fun (c : UInt8) => c &&& 31

/-- The loop over the bytes: the words, and what is left in the accumulator. -/
def convertBitsLoop (fromBits toBits : Nat) :
    BitVec 32 → Nat → List UInt8 → List UInt8 × BitVec 32 × Nat
  | acc, bits, [] => ([], acc, bits)
  | acc, bits, value :: data =>
    let maxAcc := BitVec.ofNat 32 (2 ^ (fromBits + toBits - 1) - 1)
    let acc := ((acc <<< fromBits) ||| value.toBitVec.setWidth 32) &&& maxAcc
    let (ret, left) := drain toBits acc (bits + fromBits) (bits + fromBits)
    let (rest, last) := convertBitsLoop fromBits toBits acc left data
    (ret ++ rest, last)

def convertBits (data : List UInt8) (fromBits toBits : Nat) (pad : Bool) : List UInt8 :=
  let maxv := BitVec.ofNat 32 (2 ^ toBits - 1)
  let (ret, acc, bits) := convertBitsLoop fromBits toBits 0 0 data
  let last := (acc <<< (toBits - bits)) &&& maxv
  if pad then
    if bits ≠ 0 then ret ++ [UInt8.ofBitVec (last.setWidth 8)] else ret
  else if bits ≥ fromBits ∨ last ≠ 0 then [] else ret

def encode (hrp payload : List UInt8) : List UInt8 :=
  let data := convertBits payload 8 5 true
  let values := hrpExpand hrp ++ data ++ List.replicate 6 0
  let pm := polymod values ^^^ kBech32mConst
  let checksum := (List.range 6).map fun i => ((pm >>> UInt32.ofNat (5 * (5 - i))) &&& 31).toUInt8
  let char (v : UInt8) := (kBech32Charset[v.toNat]?).getD 0
  hrp ++ separator :: (data.map char ++ checksum.map char)

/-! ## The register -/

theorem foldl_feed (top : UInt32) (is : List Nat) (chk : UInt32) :
    is.foldl (feed top) chk = chk ^^^ is.foldl (feed top) 0 := by
  induction is generalizing chk with
  | nil => exact UInt32.xor_zero.symm
  | cons i is ih =>
    rw [List.foldl_cons, List.foldl_cons, ih, ih (feed top 0 i), ← UInt32.xor_assoc]
    congr 1
    rw [feed, feed, UInt32.zero_xor]

/-- Seven bits are above the register. -/
theorem top_eq (chk : UInt32) : chk >>> 25 = (chk >>> 25).toUInt8.toUInt32 := by
  apply UInt32.toNat_inj.mp
  have small := chk.toNat_lt
  rw [UInt8.toNat_toUInt32, UInt32.toNat_toUInt8, UInt32.toNat_shiftRight,
    Nat.shiftRight_eq_div_pow]
  change chk.toNat / 2 ^ 25 = chk.toNat / 2 ^ 25 % 2 ^ 8
  omega

theorem polymodStep_eq : polymodStep = Wallet.Bech32m.polymodStep := by
  have all : ∀ top : UInt8, (List.range 5).foldl (feed top.toUInt32) 0 = generator top :=
    forall_byte (by decide +kernel)
  funext chk value
  rw [polymodStep, Wallet.Bech32m.polymodStep_eq, ← all, foldl_feed, ← top_eq]

theorem polymod_eq : polymod = Wallet.Bech32m.polymod := by
  funext values
  rw [polymod, polymodStep_eq]
  rfl

/-! ## The regrouping -/

/-- A group that leaves is known from its bits. -/
theorem leaving_congr (width low : Nat) (hbyte : width ≤ 8) (hlow : low + width ≤ 32)
    {acc acc' : BitVec 32}
    (h : lowBits width (acc.toNat >>> low) = lowBits width (acc'.toNat >>> low)) :
    UInt8.ofBitVec ((acc.sshiftRight low &&& BitVec.ofNat 32 (2 ^ width - 1)).setWidth 8) =
      UInt8.ofBitVec ((acc'.sshiftRight low &&& BitVec.ofNat 32 (2 ^ width - 1)).setWidth 8) := by
  obtain ⟨hv, hbits⟩ := leaving_spec width low hbyte hlow acc rfl
  obtain ⟨hv', hbits'⟩ := leaving_spec width low hbyte hlow acc' rfl
  exact UInt8.toNat_inj.mp (lowBits_inj hv hv' (hbits.trans (h.trans hbits'.symm)))

/-- Only the bits in use leave the accumulator. -/
theorem drain_congr (width : Nat) (hbyte : width ≤ 8) {acc acc' : BitVec 32}
    (fuel bits : Nat) (hbits : bits ≤ 32) (h : lowBits bits acc.toNat = lowBits bits acc'.toNat) :
    drain width acc fuel bits = drain width acc' fuel bits := by
  induction fuel generalizing bits with
  | zero => rfl
  | succ fuel ih =>
    rw [drain, drain]
    by_cases hleave : bits ≥ width
    · have whole : bits = width + (bits - width) := by omega
      rw [whole, lowBits_add, lowBits_add] at h
      obtain ⟨high, low⟩ := List.append_inj h (by simp)
      rw [if_pos hleave, if_pos hleave]
      dsimp only
      rw [ih (bits - width) (by omega) low,
        leaving_congr width (bits - width) hbyte (by omega) high]
    · rw [if_neg hleave, if_neg hleave]

/-- The mask of the accumulator keeps the bits in use. -/
theorem lowBits_masked (bits : Nat) (hbits : bits ≤ 12) (acc : BitVec 32) :
    lowBits bits (acc &&& BitVec.ofNat 32 (2 ^ (8 + 5 - 1) - 1)).toNat = lowBits bits acc.toNat := by
  apply lowBits_congr
  intro i hi
  rw [BitVec.testBit_toNat, BitVec.getLsbD_and, BitVec.getLsbD_ofNat, Nat.testBit_two_pow_sub_one,
    BitVec.testBit_toNat]
  simp [show i < 32 by omega, show i < 8 + 5 - 1 by omega]

theorem lowBits_of_le {k n x y : Nat} (hk : k ≤ n) (h : lowBits n x = lowBits n y) :
    lowBits k x = lowBits k y :=
  lowBits_congr fun i hi => testBit_of_lowBits h i (Nat.lt_of_lt_of_le hi hk)

/-- The word made of the bits left over. -/
def lastWord (acc : BitVec 32) (bits : Nat) : List UInt8 :=
  if bits > 0 then [UInt8.ofBitVec (((acc <<< (5 - bits)) &&& 31#32).setWidth 8)] else []

theorem lastWord_congr {acc acc' : BitVec 32} {bits : Nat} (hbits : bits < 5)
    (h : lowBits bits acc.toNat = lowBits bits acc'.toNat) : lastWord acc bits = lastWord acc' bits := by
  have filled (acc : BitVec 32) : lowBits 5 (acc <<< (5 - bits)).toNat =
      lowBits bits acc.toNat ++ List.replicate (5 - bits) false := by
    have whole : bits + (5 - bits) = 5 := by omega
    rw [← lowBits_fill (5 - bits) bits (by omega) acc, whole]
  have same : lowBits 5 ((acc <<< (5 - bits)).toNat >>> 0) =
      lowBits 5 ((acc' <<< (5 - bits)).toNat >>> 0) := by
    rw [Nat.shiftRight_zero, Nat.shiftRight_zero, filled, filled, h]
  have word := leaving_congr 5 0 (by decide) (by decide) same
  rw [BitVec.sshiftRight_zero, BitVec.sshiftRight_zero] at word
  unfold lastWord
  split
  · exact congrArg (fun v => [v]) word
  · rfl

/-- Both loops make the same words, however much more the accumulator keeps. -/
theorem toWordsLoop_eq (data : List UInt8) (acc acc' : BitVec 32) (bits : Nat) (hbits : bits < 5)
    (h : lowBits bits acc.toNat = lowBits bits acc'.toNat) :
    toWordsLoop acc' bits data = (convertBitsLoop 8 5 acc bits data).1 ++
      lastWord (convertBitsLoop 8 5 acc bits data).2.1 (convertBitsLoop 8 5 acc bits data).2.2 ∧
    (convertBitsLoop 8 5 acc bits data).2.2 < 5 := by
  induction data generalizing acc acc' bits with
  | nil => exact ⟨lastWord_congr hbits h.symm, hbits⟩
  | cons value data ih =>
    have push := lowBits_push 8 bits (by omega) acc value.toNat_lt
    have push' := lowBits_push 8 bits (by omega) acc' value.toNat_lt
    have masked := lowBits_masked (bits + 8) (by omega)
      ((acc <<< 8) ||| value.toBitVec.setWidth 32)
    rw [push, h, ← push'] at masked
    rw [toWordsLoop, convertBitsLoop]
    dsimp only
    generalize (acc' <<< 8) ||| value.toBitVec.setWidth 32 = next' at masked ⊢
    generalize ((acc <<< 8) ||| value.toBitVec.setWidth 32) &&&
      BitVec.ofNat 32 (2 ^ (8 + 5 - 1) - 1) = next at masked ⊢
    obtain ⟨hleft, -⟩ := drain_spec 5 (by decide) (by decide) next (bits + 8) (bits + 8)
      (Nat.le_refl _) (by omega)
    rw [← drain_congr 5 (by decide) (bits + 8) (bits + 8) (by omega) masked]
    obtain ⟨hwords, hlast⟩ := ih next next' _ hleft
      (lowBits_of_le (by omega) masked)
    exact ⟨by rw [hwords, List.append_assoc], hlast⟩

theorem convertBits_eq (payload : List UInt8) : convertBits payload 8 5 true = toWords payload := by
  obtain ⟨hwords, -⟩ := toWordsLoop_eq payload 0 0 0 (by decide) rfl
  rw [toWords, hwords, convertBits, lastWord]
  generalize convertBitsLoop 8 5 0 0 payload = result
  obtain ⟨ret, acc, bits⟩ := result
  cases bits with
  | zero => exact (List.append_nil ret).symm
  | succ bits => rfl

theorem encode_eq (hrp payload : List UInt8) :
    encode hrp payload = Wallet.Bech32m.encode hrp payload := by
  rw [encode, convertBits_eq, polymod_eq]
  rfl

end MidnightSdk.Util.Bech32m
