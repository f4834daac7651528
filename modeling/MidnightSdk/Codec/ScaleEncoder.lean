import MidnightSdk.Library.Compact
import MidnightSdk.Library.Cpp

/-!
# The SCALE encoder

Each routine appends to a buffer. What it appends is the little-endian bytes of
its value, or the compact form of a length followed by the data.
-/

namespace MidnightSdk.Codec

open Cpp LittleEndian

structure ScaleEncoder where
  buffer : List UInt8 := []
  deriving DecidableEq, Repr

namespace ScaleEncoder

def pushBack (e : ScaleEncoder) (b : UInt8) : ScaleEncoder := ⟨e.buffer ++ [b]⟩

def insert (e : ScaleEncoder) (data : List UInt8) : ScaleEncoder := ⟨e.buffer ++ data⟩

/-- The loop counting the bytes of a value. -/
def bytesNeeded (temp : Nat) : Nat := if temp > 0 then bytesNeeded (temp / 256) + 1 else 0

def encodeCompact (e : ScaleEncoder) (value : UInt64) : ScaleEncoder :=
  if value ≤ 0x3F then e.pushBack (value <<< 2 ||| 0x00).toUInt8
  else if value ≤ 0x3FFF then
    let encoded := (value <<< 2 ||| 0x01).toUInt16
    (e.pushBack (encoded &&& 0xFF).toUInt8).pushBack (encoded >>> 8 &&& 0xFF).toUInt8
  else if value ≤ 0x3FFFFFFF then
    let encoded := (value <<< 2 ||| 0x02).toUInt32
    (((e.pushBack (encoded &&& 0xFF).toUInt8).pushBack (encoded >>> 8 &&& 0xFF).toUInt8).pushBack
      (encoded >>> 16 &&& 0xFF).toUInt8).pushBack (encoded >>> 24 &&& 0xFF).toUInt8
  else
    let bytesNeeded := max (bytesNeeded value.toNat) 4
    let e := e.pushBack (UInt8.ofNat (bytesNeeded - 4) <<< 2 ||| 0x03)
    (List.range bytesNeeded).foldl
      (fun e i => e.pushBack (value >>> UInt64.ofNat (i * 8) &&& 0xFF).toUInt8) e

def encodeU8 (e : ScaleEncoder) (value : UInt8) : ScaleEncoder := e.pushBack value

def encodeU16Le (e : ScaleEncoder) (value : UInt16) : ScaleEncoder :=
  (e.pushBack (value &&& 0xFF).toUInt8).pushBack (value >>> 8 &&& 0xFF).toUInt8

def encodeU32Le (e : ScaleEncoder) (value : UInt32) : ScaleEncoder :=
  (((e.pushBack (value &&& 0xFF).toUInt8).pushBack (value >>> 8 &&& 0xFF).toUInt8).pushBack
    (value >>> 16 &&& 0xFF).toUInt8).pushBack (value >>> 24 &&& 0xFF).toUInt8

def encodeU64Le (e : ScaleEncoder) (value : UInt64) : ScaleEncoder :=
  (List.range 8).foldl
    (fun e i => e.pushBack (value >>> UInt64.ofNat (i * 8) &&& 0xFF).toUInt8) e

def encodeU128Le (e : ScaleEncoder) (bytes : Vector UInt8 16) : ScaleEncoder := e.insert bytes.toList

def encodeBool (e : ScaleEncoder) (value : Bool) : ScaleEncoder :=
  e.pushBack (if value then 0x01 else 0x00)

def encodeBytes (e : ScaleEncoder) (data : List UInt8) : ScaleEncoder :=
  (e.encodeCompact (UInt64.ofNat data.length)).insert data

def encodeRaw (e : ScaleEncoder) (data : List UInt8) : ScaleEncoder := e.insert data

/-- A string is the bytes it holds. -/
def encodeString (e : ScaleEncoder) (str : List UInt8) : ScaleEncoder :=
  (e.encodeCompact (UInt64.ofNat str.length)).insert str

def encodeEraImmortal (e : ScaleEncoder) : ScaleEncoder := e.pushBack 0x00

/-- `while (p < clamped) p <<= 1`, which stops within 14 doublings. -/
def doubleUpTo (clamped : UInt64) : Nat → UInt64 → UInt64
  | 0, p => p
  | fuel + 1, p => if p < clamped then doubleUpTo clamped fuel (p <<< 1) else p

/-- The loop counting how often a period can be halved. -/
def periodLog2 (tmp : Nat) : Nat := if tmp > 1 then periodLog2 (tmp / 2) + 1 else 0

/-- The two bytes of a mortal era as a number: the period in the low four bits,
the phase above. -/
def eraMortal (currentBlock period : UInt64) : UInt16 :=
  let clamped := max 4 (min 65536 period)
  let p := doubleUpTo clamped 14 4
  let quantizeFactor := max 1 (p / 4096)
  let phase := currentBlock % p / quantizeFactor
  let nibble := min 15 (UInt8.ofNat (periodLog2 p.toNat - 1))
  let phaseClamped := (min phase 0x0FFF).toUInt16
  nibble.toUInt16 ||| phaseClamped <<< 4

def encodeEraMortal (e : ScaleEncoder) (currentBlock period : UInt64) : ScaleEncoder :=
  e.encodeU16Le (eraMortal currentBlock period)

/-- The variant byte of an account id, and the id. -/
def encodeMultiAddressId (e : ScaleEncoder) (accountId32 : List UInt8) : Throws ScaleEncoder :=
  if accountId32.length ≠ 32 then .error (.runtimeError "AccountId must be 32 bytes")
  else .ok ((e.pushBack 0x00).insert accountId32)

def finalizeWithLength (e : ScaleEncoder) : List UInt8 :=
  (ScaleEncoder.encodeCompact {} (UInt64.ofNat e.buffer.length)).buffer ++ e.buffer

/-! ## What is appended -/

@[simp] theorem pushBack_buffer (e : ScaleEncoder) (b : UInt8) :
    (e.pushBack b).buffer = e.buffer ++ [b] := rfl

@[simp] theorem insert_buffer (e : ScaleEncoder) (data : List UInt8) :
    (e.insert data).buffer = e.buffer ++ data := rfl

theorem foldl_pushBack (e : ScaleEncoder) (f : Nat → UInt8) (is : List Nat) :
    (is.foldl (fun e i => e.pushBack (f i)) e).buffer = e.buffer ++ is.map f := by
  induction is generalizing e with
  | nil => simp
  | cons i is ih => simp [ih]

/-- Shifting a byte out of a word and masking it divides. -/
theorem toNat_byte (n shift : Nat) : n >>> shift % 256 &&& 255 = n / 2 ^ shift % 256 := by
  rw [Nat.shiftRight_eq_div_pow, show 255 = 2 ^ 8 - 1 from rfl, Nat.and_two_pow_sub_one_eq_mod]
  omega

theorem encodeU16Le_buffer (e : ScaleEncoder) (value : UInt16) :
    (e.encodeU16Le value).buffer = e.buffer ++ leBytes 2 value.toNat := by
  have low : (value &&& 0xFF).toUInt8 = UInt8.ofNat value.toNat := by
    apply UInt8.toNat_inj.mp
    simpa using toNat_byte value.toNat 0
  have high : (value >>> 8 &&& 0xFF).toUInt8 = UInt8.ofNat (value.toNat / 256) := by
    apply UInt8.toNat_inj.mp
    simpa using toNat_byte value.toNat 8
  simp [encodeU16Le, leBytes, low, high]

theorem encodeU32Le_buffer (e : ScaleEncoder) (value : UInt32) :
    (e.encodeU32Le value).buffer = e.buffer ++ leBytes 4 value.toNat := by
  have byte0 : (value &&& 0xFF).toUInt8 = UInt8.ofNat value.toNat := by
    apply UInt8.toNat_inj.mp
    simpa using toNat_byte value.toNat 0
  have byte1 : (value >>> 8 &&& 0xFF).toUInt8 = UInt8.ofNat (value.toNat / 256) := by
    apply UInt8.toNat_inj.mp
    simpa using toNat_byte value.toNat 8
  have byte2 : (value >>> 16 &&& 0xFF).toUInt8 = UInt8.ofNat (value.toNat / 256 / 256) := by
    apply UInt8.toNat_inj.mp
    simpa [Nat.div_div_eq_div_mul] using toNat_byte value.toNat 16
  have byte3 : (value >>> 24 &&& 0xFF).toUInt8 = UInt8.ofNat (value.toNat / 256 / 256 / 256) := by
    apply UInt8.toNat_inj.mp
    simpa [Nat.div_div_eq_div_mul] using toNat_byte value.toNat 24
  simp [encodeU32Le, leBytes, byte0, byte1, byte2, byte3]

theorem encodeU64Le_buffer (e : ScaleEncoder) (value : UInt64) :
    (e.encodeU64Le value).buffer = e.buffer ++ leBytes 8 value.toNat := by
  rw [encodeU64Le, foldl_pushBack, ← shiftedBytes_eq (by decide)]
  rfl

theorem bytesNeeded_eq {n : Nat} (h : 0 < n) : bytesNeeded n = Compact.byteLength n := by
  induction n using Nat.strong_induction_on with
  | _ n ih =>
    rw [bytesNeeded, if_pos h, Compact.byteLength]
    by_cases hbig : 256 ≤ n
    · rw [ih (n / 256) (by omega) (by omega), Compact.byteLength, Nat.log_of_one_lt_of_le (by decide) hbig]
    · rw [Nat.log_of_lt (by omega), bytesNeeded, if_neg (by omega)]

/-- The low two bits of a shifted word are free for the mode. -/
theorem toNat_withMode {value mode : UInt64} (hm : mode.toNat < 4) (hv : value.toNat < 2 ^ 30) :
    (value <<< 2 ||| mode).toNat = 4 * value.toNat + mode.toNat := by
  have shift : UInt64.toNat 2 % 64 = 2 := rfl
  have fits : value.toNat <<< 2 < 2 ^ 64 := by
    rw [Nat.shiftLeft_eq]
    omega
  rw [UInt64.toNat_or, UInt64.toNat_shiftLeft, shift, Nat.mod_eq_of_lt fits, Nat.or_comm,
    or_shiftLeft hm]
  omega

/-- The first byte of the big-integer form. -/
theorem bigMode_eq {k : Nat} (h8 : k ≤ 8) :
    UInt8.ofNat (k - 4) <<< 2 ||| 0x03 = UInt8.ofNat (4 * (k - 4) + 3) := by
  have five : ∀ j < 5, UInt8.ofNat j <<< 2 ||| 0x03 = UInt8.ofNat (4 * j + 3) := by decide
  exact five (k - 4) (by omega)

/-- The code's compact form is the format's. -/
theorem encodeCompact_buffer (e : ScaleEncoder) (value : UInt64) :
    (e.encodeCompact value).buffer = e.buffer ++ Compact.encode value.toNat := by
  have hlt := value.toNat_lt
  have le_iff (bound : UInt64) : value ≤ bound ↔ value.toNat < bound.toNat + 1 := by
    rw [UInt64.le_iff_toNat_le, Nat.lt_succ_iff]
  unfold encodeCompact Compact.encode
  simp only [le_iff]
  by_cases h6 : value.toNat < 2 ^ 6
  · have byte : (value <<< 2 ||| 0x00).toUInt8 = UInt8.ofNat (4 * value.toNat) := by
      apply UInt8.toNat_inj.mp
      rw [UInt64.toNat_toUInt8, toNat_withMode (by decide) (by omega), UInt8.toNat_ofNat']
      rfl
    rw [if_pos (show _ < UInt64.toNat 0x3F + 1 from h6), if_pos h6, pushBack_buffer, byte]
    rfl
  · rw [if_neg (show ¬ _ < UInt64.toNat 0x3F + 1 from h6), if_neg h6]
    by_cases h14 : value.toNat < 2 ^ 14
    · have word : (value <<< 2 ||| 0x01).toUInt16.toNat = 4 * value.toNat + 1 := by
        rw [UInt64.toNat_toUInt16, toNat_withMode (by decide) (by omega), Nat.mod_eq_of_lt]
        · rfl
        · change 4 * value.toNat + 1 < _
          omega
      rw [if_pos (show _ < UInt64.toNat 0x3FFF + 1 from h14), if_pos h14, ← word]
      exact encodeU16Le_buffer e _
    · rw [if_neg (show ¬ _ < UInt64.toNat 0x3FFF + 1 from h14), if_neg h14]
      by_cases h30 : value.toNat < 2 ^ 30
      · have word : (value <<< 2 ||| 0x02).toUInt32.toNat = 4 * value.toNat + 2 := by
          rw [UInt64.toNat_toUInt32, toNat_withMode (by decide) h30, Nat.mod_eq_of_lt]
          · rfl
          · change 4 * value.toNat + 2 < _
            omega
        rw [if_pos (show _ < UInt64.toNat 0x3FFFFFFF + 1 from h30), if_pos h30, ← word]
        exact encodeU32Le_buffer e _
      · have four := Compact.four_le_byteLength (Nat.not_lt.mp h30)
        have eight : Compact.byteLength value.toNat ≤ 8 := Compact.byteLength_le (by decide) hlt
        rw [if_neg (show ¬ _ < UInt64.toNat 0x3FFFFFFF + 1 from h30), if_neg h30]
        simp only [bytesNeeded_eq (show 0 < value.toNat by omega), Nat.max_eq_left four]
        rw [foldl_pushBack, pushBack_buffer, bigMode_eq eight, ← shiftedBytes_eq eight,
          List.append_assoc]
        rfl

theorem encodeBytes_buffer (e : ScaleEncoder) {data : List UInt8} (h : data.length < 2 ^ 64) :
    (e.encodeBytes data).buffer = e.buffer ++ (Compact.encode data.length ++ data) := by
  rw [encodeBytes, insert_buffer, encodeCompact_buffer, UInt64.toNat_ofNat', Nat.mod_eq_of_lt h,
    List.append_assoc]

theorem finalizeWithLength_eq (e : ScaleEncoder) (h : e.buffer.length < 2 ^ 64) :
    e.finalizeWithLength = Compact.encode e.buffer.length ++ e.buffer := by
  rw [finalizeWithLength, encodeCompact_buffer, UInt64.toNat_ofNat', Nat.mod_eq_of_lt h]
  rfl

/-! ## Eras -/

/-- The loop arrives at a power of two that covers the clamped period. -/
theorem doubleUpTo_spec {clamped : UInt64} (hmax : clamped.toNat ≤ 2 ^ 16) :
    ∀ (fuel k : Nat) (p : UInt64), p.toNat = 2 ^ k → 2 ≤ k → k + fuel = 16 →
      ∃ j, 2 ≤ j ∧ j ≤ 16 ∧ (doubleUpTo clamped fuel p).toNat = 2 ^ j ∧
        clamped.toNat ≤ (doubleUpTo clamped fuel p).toNat
  | 0, k, p, hp, hk, hsum => by
    obtain rfl : k = 16 := by omega
    refine ⟨16, by omega, by omega, hp, ?_⟩
    rw [doubleUpTo, hp]
    exact hmax
  | fuel + 1, k, p, hp, hk, hsum => by
    rw [doubleUpTo]
    by_cases hlt : p < clamped
    · rw [if_pos hlt]
      have shift : UInt64.toNat 1 % 64 = 1 := rfl
      have bound : 2 ^ (k + 1) ≤ 2 ^ 16 := Nat.pow_le_pow_right (by omega) (by omega)
      have doubled : (p <<< 1).toNat = 2 ^ (k + 1) := by
        rw [UInt64.toNat_shiftLeft, shift, hp, Nat.shiftLeft_eq, ← Nat.pow_add, Nat.mod_eq_of_lt]
        exact Nat.lt_of_le_of_lt bound (by decide)
      exact doubleUpTo_spec hmax fuel (k + 1) (p <<< 1) doubled (by omega) (by omega)
    · rw [if_neg hlt]
      refine ⟨k, hk, by omega, hp, ?_⟩
      exact Nat.not_lt.mp fun h => hlt (UInt64.lt_iff_toNat_lt.mpr h)

theorem periodLog2_two_pow (k : Nat) : periodLog2 (2 ^ k) = k := by
  induction k with
  | zero =>
    rw [periodLog2]
    rfl
  | succ k ih =>
    have one : 1 < 2 ^ (k + 1) := Nat.one_lt_two_pow (by omega)
    have half : 2 ^ (k + 1) / 2 = 2 ^ k := by
      rw [Nat.pow_succ]
      omega
    rw [periodLog2, if_pos one, half, ih]

theorem clamped_le (period : UInt64) : (max 4 (min 65536 period)).toNat ≤ 2 ^ 16 := by
  have small : min 65536 period ≤ 65536 := Std.min_le_left
  change (if (4 : UInt64) ≤ min 65536 period then min 65536 period else 4).toNat ≤ _
  split
  · exact UInt64.le_iff_toNat_le.mp small
  · decide

/-- The first byte of a mortal era is never the immortal one. -/
theorem eraMortal_low (currentBlock period : UInt64) :
    (eraMortal currentBlock period).toNat % 16 ≠ 0 := by
  obtain ⟨j, hlow, hhigh, hp, -⟩ := doubleUpTo_spec (clamped_le period) 14 2 4 rfl (by omega) rfl
  have nibbles : ∀ j < 17, (min 15 (UInt8.ofNat (j - 1))).toUInt16.toNat = j - 1 := by decide
  unfold eraMortal
  dsimp only
  rw [hp, periodLog2_two_pow, UInt16.toNat_or, UInt16.toNat_shiftLeft, nibbles j (by omega),
    Nat.or_mod_two_pow (n := 4)]
  have shift : UInt16.toNat 4 % 16 = 4 := rfl
  have phase (n : Nat) : n <<< 4 % 2 ^ 16 % 2 ^ 4 = 0 := by
    rw [Nat.shiftLeft_eq]
    omega
  rw [shift, phase, Nat.or_zero]
  omega

end ScaleEncoder

end MidnightSdk.Codec
