import MidnightSdk.Library.Cpp

/-!
# The wallet's base64

Both directions treat full groups and the tail apart. The decoder's tail takes
the characters themselves for the six-bit values they stand for.
-/

namespace MidnightSdk.Wallet

open Cpp

def b64Chars : List UInt8 :=
  literal "ABCDEFGHIJKLMNOPQRSTUVWXYZabcdefghijklmnopqrstuvwxyz0123456789+/"

def b64Char (n : UInt8) : UInt8 := (b64Chars[n.toNat]?).getD 0

/-- `(unsigned char)b64_table[c]`; characters outside the alphabet map to -1. -/
def b64Table (c : UInt8) : UInt8 :=
  let place := b64Chars.idxOf c
  if place < 64 then UInt8.ofNat place else 255

/-- `'='` -/
def b64Pad : UInt8 := 61

/-! ## Encoding -/

/-- `char_array_4` of `char_array_3`. -/
def sextets (a b c : UInt8) : List UInt8 :=
  [(a &&& 0xfc) >>> 2,
    ((a &&& 0x03) <<< 4) + ((b &&& 0xf0) >>> 4),
    ((b &&& 0x0f) <<< 2) + ((c &&& 0xc0) >>> 6),
    c &&& 0x3f]

/-- The last one or two bytes, filled up with zeros. -/
def encodeTail (tail : List UInt8) : List UInt8 :=
  let at' (k : Nat) := (tail[k]?).getD 0
  ((sextets (at' 0) (at' 1) (at' 2)).take (tail.length + 1)).map b64Char ++
    List.replicate (3 - tail.length) b64Pad

def base64Encode : List UInt8 → List UInt8
  | a :: b :: c :: rest => (sextets a b c).map b64Char ++ base64Encode rest
  | [] => []
  | tail => encodeTail tail

/-! ## Decoding -/

/-- `isalnum` in the C locale. -/
def isAlnum (c : UInt8) : Bool :=
  48 ≤ c && c ≤ 57 || 65 ≤ c && c ≤ 90 || 97 ≤ c && c ≤ 122

/-- Characters that are not passed over: alphanumerics, `'+'` and `'/'`. -/
def isB64 (c : UInt8) : Bool := isAlnum c || c == 43 || c == 47

/-- The first byte of a pair of six-bit values. -/
def joinFirst (a b : UInt8) : UInt8 := (a <<< 2) + ((b &&& 0x30) >>> 4)

/-- A full group, each character mapped through the table. -/
def decodeGroup (group : List UInt8) : List UInt8 :=
  let v (k : Nat) := b64Table ((group[k]?).getD 0)
  [joinFirst (v 0) (v 1), ((v 1 &&& 0xf) <<< 4) + ((v 2 &&& 0x3c) >>> 2),
    ((v 2 &&& 0x3) <<< 6) + v 3]

/-- What is left over of a group: its characters are not mapped, and every
byte is joined like the first. -/
def decodeTail (group : List UInt8) : List UInt8 :=
  let c (k : Nat) := (group[k]?).getD 0
  (List.range (group.length - 1)).map fun k => joinFirst (c k) (c (k + 1))

/-- The loop over the input with the characters of the current group. -/
def decodeLoop (group : List UInt8) : List UInt8 → List UInt8
  | [] => decodeTail group
  | c :: rest =>
    if c = b64Pad then decodeTail group
    else if isB64 c then
      let group := group ++ [c]
      if group.length = 4 then decodeGroup group ++ decodeLoop [] rest else decodeLoop group rest
    else decodeLoop group rest

/-- Every text is accepted. -/
def base64Decode (input : List UInt8) : Option (List UInt8) := some (decodeLoop [] input)

/-! ## Six-bit values -/

theorem sextet_parts (b : UInt8) :
    ((b &&& 0xfc) >>> 2).toNat = b.toNat / 4 ∧ ((b &&& 0x03) <<< 4).toNat = b.toNat % 4 * 16 ∧
      ((b &&& 0xf0) >>> 4).toNat = b.toNat / 16 ∧ ((b &&& 0x0f) <<< 2).toNat = b.toNat % 16 * 4 ∧
      ((b &&& 0xc0) >>> 6).toNat = b.toNat / 64 ∧ (b &&& 0x3f).toNat = b.toNat % 64 := by
  revert b
  exact forall_byte (by decide +kernel)

theorem joined_parts (v : UInt8) :
    (v <<< 2).toNat = v.toNat * 4 % 256 ∧ ((v &&& 0x30) >>> 4).toNat = v.toNat / 16 % 4 ∧
      ((v &&& 0xf) <<< 4).toNat = v.toNat % 16 * 16 ∧ ((v &&& 0x3c) >>> 2).toNat = v.toNat / 4 % 16 ∧
      ((v &&& 0x3) <<< 6).toNat = v.toNat % 4 * 64 := by
  revert v
  exact forall_byte (by decide +kernel)

/-- The values of a group, as numbers. -/
theorem sextets_eq (a b c : UInt8) : ∃ v₀ v₁ v₂ v₃ : UInt8, sextets a b c = [v₀, v₁, v₂, v₃] ∧
    v₀.toNat = a.toNat / 4 ∧ v₁.toNat = a.toNat % 4 * 16 + b.toNat / 16 ∧
    v₂.toNat = b.toNat % 16 * 4 + c.toNat / 64 ∧ v₃.toNat = c.toNat % 64 := by
  have pa := sextet_parts a
  have pb := sextet_parts b
  have pc := sextet_parts c
  have ha := a.toNat_lt
  have hb := b.toNat_lt
  have hc := c.toNat_lt
  refine ⟨_, _, _, _, rfl, pa.1, ?_, ?_, pc.2.2.2.2.2⟩
  · rw [UInt8.toNat_add, pa.2.1, pb.2.2.1]
    omega
  · rw [UInt8.toNat_add, pb.2.2.2.1, pc.2.2.2.2.1]
    omega

/-- A value's character is read and mapped back to it; the character itself,
cut to six bits, is another value. -/
theorem b64Char_spec {v : UInt8} (h : v.toNat < 64) :
    b64Char v ≠ b64Pad ∧ isB64 (b64Char v) = true ∧ b64Table (b64Char v) = v ∧
      (b64Char v).toNat % 64 ≠ v.toNat := by
  have all : ∀ n < 64, b64Char (UInt8.ofNat n) ≠ b64Pad ∧ isB64 (b64Char (UInt8.ofNat n)) = true ∧
      b64Table (b64Char (UInt8.ofNat n)) = UInt8.ofNat n ∧
      (b64Char (UInt8.ofNat n)).toNat % 64 ≠ n := by decide +kernel
  have found := all v.toNat h
  rwa [UInt8.ofNat_toNat] at found

/-! ## The round trip -/

/-- A character of the alphabet that does not fill the group. -/
theorem decodeLoop_char {v : UInt8} (h : v.toNat < 64) {group : List UInt8}
    (hgroup : group.length ≠ 3) (rest : List UInt8) :
    decodeLoop group (b64Char v :: rest) = decodeLoop (group ++ [b64Char v]) rest := by
  obtain ⟨hpad, hb64, -, -⟩ := b64Char_spec h
  rw [decodeLoop, if_neg hpad, if_pos hb64]
  exact if_neg (by simpa using hgroup)

/-- The characters of three bytes are joined to them again. -/
theorem decodeGroup_b64Char {a b c v₀ v₁ v₂ v₃ : UInt8} (h₀ : v₀.toNat = a.toNat / 4)
    (h₁ : v₁.toNat = a.toNat % 4 * 16 + b.toNat / 16)
    (h₂ : v₂.toNat = b.toNat % 16 * 4 + c.toNat / 64) (h₃ : v₃.toNat = c.toNat % 64) :
    decodeGroup [b64Char v₀, b64Char v₁, b64Char v₂, b64Char v₃] = [a, b, c] := by
  have ha := a.toNat_lt
  have hb := b.toNat_lt
  have hc := c.toNat_lt
  have t₀ : b64Table (b64Char v₀) = v₀ := (b64Char_spec (by omega)).2.2.1
  have t₁ : b64Table (b64Char v₁) = v₁ := (b64Char_spec (by omega)).2.2.1
  have t₂ : b64Table (b64Char v₂) = v₂ := (b64Char_spec (by omega)).2.2.1
  have t₃ : b64Table (b64Char v₃) = v₃ := (b64Char_spec (by omega)).2.2.1
  have p₀ := joined_parts v₀
  have p₁ := joined_parts v₁
  have p₂ := joined_parts v₂
  simp only [decodeGroup, joinFirst, List.getElem?_cons_zero, List.getElem?_cons_succ,
    Option.getD_some, t₀, t₁, t₂, t₃, List.cons.injEq, and_true]
  refine ⟨?_, ?_, ?_⟩
  · apply UInt8.toNat_inj.mp
    rw [UInt8.toNat_add, p₀.1, p₁.2.1]
    omega
  · apply UInt8.toNat_inj.mp
    rw [UInt8.toNat_add, p₁.2.2.1, p₂.2.2.2.1]
    omega
  · apply UInt8.toNat_inj.mp
    rw [UInt8.toNat_add, p₂.2.2.2.2]
    omega

/-- A full group is decoded to its three bytes. -/
theorem decodeLoop_group (a b c : UInt8) (rest : List UInt8) :
    decodeLoop [] ((sextets a b c).map b64Char ++ rest) = a :: b :: c :: decodeLoop [] rest := by
  obtain ⟨v₀, v₁, v₂, v₃, hv, h₀, h₁, h₂, h₃⟩ := sextets_eq a b c
  have ha := a.toNat_lt
  have hb := b.toNat_lt
  have hc := c.toNat_lt
  have s₀ : v₀.toNat < 64 := by omega
  have s₁ : v₁.toNat < 64 := by omega
  have s₂ : v₂.toNat < 64 := by omega
  obtain ⟨hpad, hb64, -, -⟩ := b64Char_spec (v := v₃) (by omega)
  rw [hv]
  simp only [List.map_cons, List.map_nil, List.cons_append, List.nil_append]
  rw [decodeLoop_char s₀ (by simp), decodeLoop_char s₁ (by simp), decodeLoop_char s₂ (by simp),
    decodeLoop, if_neg hpad, if_pos hb64]
  simp only [List.nil_append, List.cons_append, List.length_cons, List.length_nil,
    decodeGroup_b64Char h₀ h₁ h₂ h₃]
  rfl

/-- The first byte of a tail: its high six bits are those of a character. -/
theorem joinFirst_ne {a : UInt8} {v : UInt8} (h : v.toNat = a.toNat / 4) (c : UInt8) :
    joinFirst (b64Char v) c ≠ a := by
  have ha := a.toNat_lt
  have other := (b64Char_spec (v := v) (by omega)).2.2.2
  have high := (joined_parts (b64Char v)).1
  have low := (joined_parts c).2.1
  intro heq
  have value := congrArg UInt8.toNat heq
  rw [joinFirst, UInt8.toNat_add, high, low] at value
  omega

theorem decodeLoop_pad (group rest : List UInt8) :
    decodeLoop group (b64Pad :: rest) = decodeTail group := by
  rw [decodeLoop, if_pos rfl]

/-- A tail is decoded to as many bytes, the first of them another one. -/
theorem decodeLoop_encodeTail {tail : List UInt8} (h : tail.length = 1 ∨ tail.length = 2) :
    (decodeLoop [] (encodeTail tail)).length = tail.length ∧
      decodeLoop [] (encodeTail tail) ≠ tail := by
  obtain ⟨a, rest, rfl⟩ := List.exists_cons_of_length_pos (l := tail) (by omega)
  obtain ⟨v₀, v₁, v₂, v₃, hv, h₀, h₁, h₂, -⟩ := sextets_eq a ((rest[0]?).getD 0) ((rest[1]?).getD 0)
  have ha := a.toNat_lt
  have hb := ((rest[0]?).getD 0).toNat_lt
  have hc := ((rest[1]?).getD 0).toNat_lt
  have s₀ : v₀.toNat < 64 := by omega
  have s₁ : v₁.toNat < 64 := by omega
  have s₂ : v₂.toNat < 64 := by omega
  have tailText : encodeTail (a :: rest) = ([v₀, v₁, v₂, v₃].take (rest.length + 2)).map b64Char ++
      List.replicate (2 - rest.length) b64Pad := by
    rw [← hv]
    simp [encodeTail]
  rw [tailText]
  rcases h with hlen | hlen
  · obtain rfl : rest = [] := by simpa using hlen
    have decoded : decodeLoop [] (([v₀, v₁, v₂, v₃].take 2).map b64Char ++ [b64Pad, b64Pad]) =
        [joinFirst (b64Char v₀) (b64Char v₁)] := by
      simp only [List.take_succ_cons, List.take_zero, List.map_cons, List.map_nil, List.cons_append,
        List.nil_append]
      rw [decodeLoop_char s₀ (by simp), decodeLoop_char s₁ (by simp), decodeLoop_pad]
      rfl
    refine ⟨(congrArg List.length decoded).trans rfl, ?_⟩
    intro heq
    exact joinFirst_ne h₀ _ (List.cons.inj (decoded.symm.trans heq)).1
  · obtain ⟨b, rfl⟩ : ∃ b, rest = [b] := List.length_eq_one_iff.mp (by simpa using hlen)
    have decoded : decodeLoop [] (([v₀, v₁, v₂, v₃].take 3).map b64Char ++ [b64Pad]) =
        [joinFirst (b64Char v₀) (b64Char v₁), joinFirst (b64Char v₁) (b64Char v₂)] := by
      simp only [List.take_succ_cons, List.take_zero, List.map_cons, List.map_nil, List.cons_append,
        List.nil_append]
      rw [decodeLoop_char s₀ (by simp), decodeLoop_char s₁ (by simp), decodeLoop_char s₂ (by simp),
        decodeLoop_pad]
      rfl
    refine ⟨(congrArg List.length decoded).trans rfl, ?_⟩
    intro heq
    exact joinFirst_ne h₀ _ (List.cons.inj (decoded.symm.trans heq)).1

/-- The whole groups come back; a tail comes back as another of its length. -/
theorem decodeLoop_base64Encode : ∀ x : List UInt8, ∃ whole tail garbled,
    x = whole ++ tail ∧ decodeLoop [] (base64Encode x) = whole ++ garbled ∧
      tail.length = x.length % 3 ∧ garbled.length = tail.length ∧ (tail ≠ [] → garbled ≠ tail)
  | a :: b :: c :: rest => by
    obtain ⟨whole, tail, garbled, hx, hdecoded, htail, hgarbled, hne⟩ := decodeLoop_base64Encode rest
    refine ⟨a :: b :: c :: whole, tail, garbled, by simp [hx], ?_, ?_, hgarbled, hne⟩
    · rw [base64Encode, decodeLoop_group, hdecoded]
      rfl
    · rw [htail]
      simp only [List.length_cons]
      omega
  | [] => ⟨[], [], [], rfl, rfl, rfl, rfl, fun h => h⟩
  | [a] => by
    obtain ⟨hlen, hne⟩ := @decodeLoop_encodeTail [a] (.inl rfl)
    exact ⟨[], [a], _, rfl, rfl, rfl, hlen, fun _ => hne⟩
  | [a, b] => by
    obtain ⟨hlen, hne⟩ := @decodeLoop_encodeTail [a, b] (.inr rfl)
    exact ⟨[], [a, b], _, rfl, rfl, rfl, hlen, fun _ => hne⟩

theorem base64Decode_encode_iff (x : List UInt8) :
    base64Decode (base64Encode x) = some x ↔ x.length % 3 = 0 := by
  obtain ⟨whole, tail, garbled, hx, hdecoded, htail, hgarbled, hne⟩ := decodeLoop_base64Encode x
  rw [base64Decode, Option.some.injEq, hdecoded]
  constructor
  · intro heq
    by_contra hmod
    have some : tail ≠ [] := by
      rintro rfl
      exact hmod htail.symm
    exact hne some (List.append_cancel_left (heq.trans hx))
  · intro hmod
    have htailNil : tail = [] := List.length_eq_zero_iff.mp (htail.trans hmod)
    have hgarbledNil : garbled = [] := List.length_eq_zero_iff.mp (hgarbled.trans (htail.trans hmod))
    rw [hx, htailNil, hgarbledNil]

end MidnightSdk.Wallet
