import MidnightSdk.Util.Hex
import MidnightSdk.Library.Stoul

/-!
# The other hex decoders

Besides the shared one there are three: the codec's and the Merkle tree's hand
slices of two characters to `std::stoul`, the proof parser reads digits itself.
-/

namespace MidnightSdk

open Cpp HexText Util Stoul

/-- The loop over `clean.substr(i, 2)`. -/
def stoulPairs : List Char → Throws (List UInt8)
  | hi :: lo :: rest => do
    let v ← stoul16 [hi, lo]
    let bytes ← stoulPairs rest
    return v.toUInt8 :: bytes
  | _ => return []

/-- `codec::util::hex_to_bytes` -/
def Codec.hexToBytes (hex : List Char) : Throws (List UInt8) :=
  let clean := stripHexPrefix hex
  if clean.length % 2 ≠ 0 then .error (.runtimeError "hex_to_bytes: odd length")
  else stoulPairs clean

/-- `crypto::from_hex`: every exception of the loop is caught. -/
def Crypto.fromHex (hex : List Char) : Option (List UInt8) :=
  let cleanHex := stripHexPrefix hex
  if cleanHex.length % 2 ≠ 0 then none
  else
    match stoulPairs cleanHex with
    | .ok result => some result
    | .error _ => none

namespace Zk

def hexNibble (c : Char) : Int :=
  if '0' ≤ c ∧ c ≤ '9' then (c.toNat : Int) - '0'.toNat
  else if 'a' ≤ c ∧ c ≤ 'f' then 10 + ((c.toNat : Int) - 'a'.toNat)
  else if 'A' ≤ c ∧ c ≤ 'F' then 10 + ((c.toNat : Int) - 'A'.toNat)
  else -1

def parsePairs (kind : String) : List Char → Throws (List UInt8)
  | high :: low :: rest => do
    let hi := hexNibble high
    let lo := hexNibble low
    if hi < 0 ∨ lo < 0 then
      throw (.invalidArgument ("Non-hex character in " ++ kind ++ " hex"))
    let bytes ← parsePairs kind rest
    return UInt8.ofNat (hi.toNat <<< 4 ||| lo.toNat) :: bytes
  | _ => return []

def parseHexBytes (hex : List Char) (kind : String) : Throws (List UInt8) :=
  let normalized := stripHexPrefix hex
  if normalized.length % 2 ≠ 0 then
    .error (.invalidArgument ("Odd-length " ++ kind ++ " hex"))
  else parsePairs kind normalized

end Zk

/-- What each of the four makes of a text; `kind` only names the field in an error. -/
def hexDecoders (kind : String) : List (List Char → Option (List UInt8)) :=
  [fun s => (Codec.hexToBytes s).toOption, Crypto.fromHex,
    fun s => (Util.hexToBytes s).toOption, fun s => (Zk.parseHexBytes s kind).toOption]

/-- A text of whole bytes, every character a digit. -/
def IsHex (s : List Char) : Prop := s.length % 2 = 0 ∧ ∀ c ∈ s, c ∈ digits

/-- The four answer alike, and answer exactly the hex texts. -/
def HexDecodersAgree (kind : String) (s : List Char) : Prop :=
  (∃ answer, ∀ decode ∈ hexDecoders kind, decode s = answer) ∧
    ∀ decode ∈ hexDecoders kind, (decode s).isSome ↔ IsHex s

/-- Every pair of characters is one `std::stoul` makes a number of. -/
def AllReadable : List Char → Prop
  | hi :: lo :: rest => Readable hi lo ∧ AllReadable rest
  | _ => True

/-! ## The two that read digits -/

theorem toNat_toLower (c : Char) :
    c.toLower.toNat = if 65 ≤ c.toNat ∧ c.toNat ≤ 90 then c.toNat + 32 else c.toNat := by
  unfold Char.toLower
  by_cases h : c.val ≥ 'A'.val ∧ c.val ≤ 'Z'.val
  · have range : 65 ≤ c.toNat ∧ c.toNat ≤ 90 := h
    rw [dif_pos h, if_pos range]
    change (c.val + 32).toNat = _
    have val : c.val.toNat = c.toNat := rfl
    rw [UInt32.toNat_add, val]
    change (c.toNat + 32) % 2 ^ 32 = _
    omega
  · have range : ¬(65 ≤ c.toNat ∧ c.toNat ≤ 90) := h
    rw [dif_neg h, if_neg range]

theorem Zk.hexNibble_eq (c : Char) : Zk.hexNibble c = Util.hexNibble c := by
  have lower := toNat_toLower c
  have le (a b : Char) : a ≤ b ↔ a.toNat ≤ b.toNat := Iff.rfl
  have values : '0'.toNat = 48 ∧ '9'.toNat = 57 ∧ 'a'.toNat = 97 ∧ 'f'.toNat = 102 ∧
      'A'.toNat = 65 ∧ 'F'.toNat = 70 := by decide
  unfold Zk.hexNibble Util.hexNibble
  simp only [le, values]
  split at lower <;> grind

theorem mem_digits_of_nibble {c : Char} (h : 0 ≤ Util.hexNibble c) : c ∈ digits := by
  rw [← Zk.hexNibble_eq] at h
  have table : ∀ n ∈ List.range 103, 48 ≤ n ∧ n ≤ 57 ∨ 97 ≤ n ∧ n ≤ 102 ∨ 65 ≤ n ∧ n ≤ 70 →
      Char.ofNat n ∈ digits := by decide
  have le (a b : Char) : a ≤ b ↔ a.toNat ≤ b.toNat := Iff.rfl
  have values : '0'.toNat = 48 ∧ '9'.toNat = 57 ∧ 'a'.toNat = 97 ∧ 'f'.toNat = 102 ∧
      'A'.toNat = 65 ∧ 'F'.toNat = 70 := by decide
  have range : 48 ≤ c.toNat ∧ c.toNat ≤ 57 ∨ 97 ≤ c.toNat ∧ c.toNat ≤ 102 ∨
      65 ≤ c.toNat ∧ c.toNat ≤ 70 := by
    unfold Zk.hexNibble at h
    simp only [le, values] at h
    grind
  have found := table c.toNat (List.mem_range.mpr (by omega)) range
  rwa [Char.ofNat_toNat] at found

/-- The proof parser's loop differs from the shared one in its error only. -/
theorem Zk.parsePairs_toOption (kind : String) :
    ∀ text, (Zk.parsePairs kind text).toOption = (hexPairs text).toOption
  | [] => rfl
  | [_] => rfl
  | high :: low :: rest => by
    have ih := Zk.parsePairs_toOption kind rest
    rw [Zk.parsePairs, hexPairs]
    simp only [Zk.hexNibble_eq]
    by_cases bad : Util.hexNibble high < 0 ∨ Util.hexNibble low < 0
    · rw [if_pos bad, if_pos bad]
      rfl
    · rw [if_neg bad, if_neg bad]
      exact toOption_bind_return ih _

/-- What the shared loop accepts is digits, but for a last odd character. -/
theorem hexPairs_isOk {bytes : List UInt8} : ∀ {text : List Char}, text.length % 2 = 0 →
    hexPairs text = .ok bytes → ∀ c ∈ text, c ∈ digits
  | [], _, _ => by simp
  | [_], heven, _ => absurd heven Nat.one_ne_zero
  | high :: low :: rest, heven, h => by
    rw [hexPairs] at h
    by_cases bad : Util.hexNibble high < 0 ∨ Util.hexNibble low < 0
    · rw [if_pos bad] at h
      cases h
    · rw [if_neg bad] at h
      obtain ⟨tail, htail, -⟩ := bind_eq_ok.mp h
      rw [List.length_cons, List.length_cons] at heven
      have remaining := @hexPairs_isOk tail rest (by omega) htail
      intro c hc
      rcases List.mem_cons.mp hc with rfl | hc
      · exact mem_digits_of_nibble (by omega)
      · rcases List.mem_cons.mp hc with rfl | hc
        · exact mem_digits_of_nibble (by omega)
        · exact remaining c hc

/-! ## The two that go through `std::stoul` -/

theorem stoulPairs_isOk_iff :
    ∀ text, (∃ bytes, stoulPairs text = .ok bytes) ↔ AllReadable text
  | [] => by simp [stoulPairs, AllReadable, pure, Except.pure]
  | [_] => by simp [stoulPairs, AllReadable, pure, Except.pure]
  | hi :: lo :: rest => by
    rw [AllReadable, ← stoul16_isOk_iff, ← stoulPairs_isOk_iff rest]
    constructor
    · rintro ⟨bytes, h⟩
      rw [stoulPairs] at h
      obtain ⟨v, hv, h⟩ := bind_eq_ok.mp h
      obtain ⟨tail, htail, -⟩ := bind_eq_ok.mp h
      exact ⟨⟨v, hv⟩, tail, htail⟩
    · rintro ⟨⟨v, hv⟩, tail, htail⟩
      refine ⟨v.toUInt8 :: tail, ?_⟩
      rw [stoulPairs, hv, htail]
      rfl

theorem stoulPairs_spells {text : List Char} {bytes : List UInt8} (h : Spells text bytes) :
    stoulPairs text = .ok bytes := by
  induction h with
  | nil => rfl
  | @byte hi lo text b bytes high low _ ih =>
    have hb := b.toNat_lt
    have whole : (UInt64.ofNat (16 * (b.toNat / 16) + b.toNat % 16)).toUInt8 = b := by
      apply UInt8.toNat_inj.mp
      rw [UInt64.toNat_toUInt8, UInt64.toNat_ofNat']
      omega
    rw [stoulPairs, stoul16_digits high low (by omega) (by omega), ih]
    simp only [bind, Except.bind, whole]
    rfl

/-! ## Agreement -/

theorem Crypto.fromHex_eq (s : List Char) : Crypto.fromHex s = (Codec.hexToBytes s).toOption := by
  unfold Crypto.fromHex Codec.hexToBytes
  dsimp only
  split
  · rfl
  · cases stoulPairs (stripHexPrefix s) <;> rfl

theorem Zk.parseHexBytes_toOption (s : List Char) (kind : String) :
    (Zk.parseHexBytes s kind).toOption = (Util.hexToBytes (stripHexPrefix s)).toOption := by
  unfold Zk.parseHexBytes Util.hexToBytes
  dsimp only
  split
  · rfl
  · exact Zk.parsePairs_toOption kind _

theorem isSome_toOption_iff {α : Type} {x : Throws α} :
    x.toOption.isSome ↔ ∃ a, x = .ok a := by
  cases x with
  | error e => simp [Except.toOption]
  | ok a => simp [Except.toOption]

theorem Codec.hexToBytes_isSome_iff (s : List Char) :
    (Codec.hexToBytes s).toOption.isSome ↔
      (stripHexPrefix s).length % 2 = 0 ∧ AllReadable (stripHexPrefix s) := by
  rw [isSome_toOption_iff, ← stoulPairs_isOk_iff]
  unfold Codec.hexToBytes
  dsimp only
  by_cases hodd : (stripHexPrefix s).length % 2 ≠ 0
  · rw [if_pos hodd]
    simp [hodd]
  · rw [if_neg hodd]
    simp [not_not.mp hodd]

theorem Util.hexToBytes_isSome_iff (s : List Char) :
    (Util.hexToBytes s).toOption.isSome ↔ IsHex s := by
  rw [isSome_toOption_iff]
  constructor
  · rintro ⟨bytes, h⟩
    unfold Util.hexToBytes at h
    by_cases hodd : s.length % 2 ≠ 0
    · rw [if_pos hodd] at h
      cases h
    · rw [if_neg hodd] at h
      exact ⟨not_not.mp hodd, hexPairs_isOk (not_not.mp hodd) h⟩
  · rintro ⟨heven, hdigits⟩
    obtain ⟨bytes, spelled⟩ := exists_spells hdigits heven
    exact ⟨bytes, hexToBytes_spells spelled⟩

theorem stripHexPrefix_length (s : List Char) :
    (stripHexPrefix s).length % 2 = s.length % 2 := by
  unfold stripHexPrefix
  by_cases h : hasHexPrefix s = true
  · rw [if_pos h]
    rw [hasHexPrefix, Bool.or_eq_true, List.isPrefixOf_iff_prefix,
      List.isPrefixOf_iff_prefix] at h
    rcases h with ⟨rest, rfl⟩ | ⟨rest, rfl⟩
    all_goals
      simp only [List.cons_append, List.nil_append, List.drop_succ_cons, List.drop_zero,
        List.length_cons]
      omega
  · rw [if_neg h]

theorem stripHexPrefix_of_isHex {s : List Char} (h : IsHex s) : stripHexPrefix s = s :=
  @stripHexPrefix_digits [] s (by simp) h.2

theorem allReadable_of_digits : ∀ {s : List Char}, (∀ c ∈ s, c ∈ digits) → AllReadable s
  | [], _ => trivial
  | [_], _ => trivial
  | hi :: lo :: rest, h => by
    refine ⟨.inl (h hi (by simp)), allReadable_of_digits ?_⟩
    intro c hc
    exact h c (List.mem_cons_of_mem hi (List.mem_cons_of_mem lo hc))

/-- On hex text all four return the bytes it spells. -/
theorem hexDecoders_of_spells (kind : String) {s : List Char} {bytes : List UInt8}
    (h : Spells s bytes) : ∀ decode ∈ hexDecoders kind, decode s = some bytes := by
  have hex : IsHex s := ⟨by have := h.length; omega, h.mem_digits⟩
  have bare := stripHexPrefix_of_isHex hex
  have codec : (Codec.hexToBytes s).toOption = some bytes := by
    unfold Codec.hexToBytes
    dsimp only
    rw [bare, if_neg (by simp [hex.1]), stoulPairs_spells h]
    rfl
  have shared : (Util.hexToBytes s).toOption = some bytes := by
    rw [hexToBytes_spells h]
    rfl
  intro decode hdecode
  simp only [hexDecoders, List.mem_cons, List.not_mem_nil, or_false] at hdecode
  rcases hdecode with rfl | rfl | rfl | rfl
  · exact codec
  · exact (Crypto.fromHex_eq s).trans codec
  · exact shared
  · have normalized := Zk.parseHexBytes_toOption s kind
    rw [bare] at normalized
    exact normalized.trans shared

/-- What the codec's decoder rejects, all four reject. -/
theorem hexDecoders_of_codec_none (kind : String) {s : List Char}
    (h : (Codec.hexToBytes s).toOption = none) : ∀ decode ∈ hexDecoders kind, decode s = none := by
  have unreadable (text : List Char) (htext : text = s ∨ text = stripHexPrefix s) : ¬IsHex text := by
    intro hex
    have readable : IsHex (stripHexPrefix s) := by
      rcases htext with rfl | rfl
      · rw [stripHexPrefix_of_isHex hex]
        exact hex
      · exact hex
    have accepted := (Codec.hexToBytes_isSome_iff s).mpr
      ⟨readable.1, allReadable_of_digits readable.2⟩
    rw [h] at accepted
    cases accepted
  have rejects (text : List Char) (htext : text = s ∨ text = stripHexPrefix s) :
      (Util.hexToBytes text).toOption = none := by
    rw [← Option.not_isSome_iff_eq_none, Util.hexToBytes_isSome_iff]
    exact unreadable text htext
  intro decode hdecode
  simp only [hexDecoders, List.mem_cons, List.not_mem_nil, or_false] at hdecode
  rcases hdecode with rfl | rfl | rfl | rfl
  · exact h
  · exact (Crypto.fromHex_eq s).trans h
  · exact rejects s (.inl rfl)
  · exact (Zk.parseHexBytes_toOption s kind).trans (rejects _ (.inr rfl))

/-- The decoders part on exactly the texts of whole bytes that are not hex and
yet have `std::stoul` make a number of every pair. -/
theorem hexDecodersAgree_iff (kind : String) (s : List Char) :
    HexDecodersAgree kind s ↔
      s.length % 2 ≠ 0 ∨ (∀ c ∈ s, c ∈ digits) ∨ ¬AllReadable (stripHexPrefix s) := by
  have parity := stripHexPrefix_length s
  constructor
  · rintro ⟨-, accepts⟩
    have codec := accepts _ (List.mem_cons_self ..)
    rw [Codec.hexToBytes_isSome_iff] at codec
    by_cases hodd : s.length % 2 ≠ 0
    · exact .inl hodd
    · by_cases readable : AllReadable (stripHexPrefix s)
      · have hex := codec.mp ⟨by omega, readable⟩
        exact .inr (.inl hex.2)
      · exact .inr (.inr readable)
  · intro h
    by_cases hex : IsHex s
    · obtain ⟨bytes, spelled⟩ := exists_spells hex.2 hex.1
      have same := hexDecoders_of_spells kind spelled
      refine ⟨⟨some bytes, same⟩, ?_⟩
      intro decode hdecode
      simp [same decode hdecode, hex]
    · have rejected : (Codec.hexToBytes s).toOption = none := by
        rw [← Option.not_isSome_iff_eq_none, Codec.hexToBytes_isSome_iff]
        rintro ⟨heven, readable⟩
        rcases h with hodd | hdigits | hunreadable
        · omega
        · exact hex ⟨by omega, hdigits⟩
        · exact hunreadable readable
      have none' := hexDecoders_of_codec_none kind rejected
      refine ⟨⟨none, none'⟩, ?_⟩
      intro decode hdecode
      simp [none' decode hdecode, hex]

/-- `"1g"`: two of them read the byte `1`, two reject it. -/
theorem hexDecoders_disagree :
    hasHexPrefix ['1', 'g'] = false ∧ ¬HexDecodersAgree "proof" ['1', 'g'] := by
  refine ⟨by decide, ?_⟩
  rintro ⟨-, accepts⟩
  have codec := (accepts _ (List.mem_cons_self ..)).mp (by decide)
  exact absurd (codec.2 'g' (by simp)) (by decide)

end MidnightSdk
