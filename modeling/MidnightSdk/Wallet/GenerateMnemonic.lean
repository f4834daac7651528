import MidnightSdk.Library.Sha256
import MidnightSdk.Wallet.Bip39

/-!
# Making a phrase

Four bytes are drawn for each word, three times the entropy a phrase holds. The
words spell the bits drawn and end long before the bits of the hash, so the
checksum of a phrase is what was drawn behind its entropy.
-/

namespace MidnightSdk.Wallet.Bip39

open Cpp BinarySearch Regroup

/-- `bits.push_back((b >> i) & 1)` from the highest bit down. -/
def pushByte (bits : List Bool) (b : UInt8) : List Bool :=
  [7, 6, 5, 4, 3, 2, 1, 0].foldl (fun bits i => bits ++ [(b.toNat >>> i) &&& 1 != 0]) bits

/-- The first bits of the hash, pushed behind the others. -/
def pushChecksum (h : Vector UInt8 32) (count : Nat) (bits : List Bool) : List Bool :=
  (List.range count).foldl
    (fun bits i => bits ++ [(((h.toList[i / 8]?).getD 0).toNat >>> (7 - i % 8)) &&& 1 != 0]) bits

def idxStep (bits : List Bool) (i idx b : Nat) : Nat :=
  (idx <<< 1) ||| (if bits.getD (i * 11 + b) false then 1 else 0)

/-- The index of the `i`-th word. -/
def idxAt (bits : List Bool) (i : Nat) : Nat := (List.range 11).foldl (idxStep bits i) 0

/-- The loop over the words, a blank in front of each but the first. -/
def phrase (bits : List Bool) (wc : Nat) : List UInt8 :=
  (List.range wc).foldl
    (fun r i => (if i ≠ 0 then r ++ [32] else r) ++ bip39Wordlist.getD (idxAt bits i) []) []

/-- `randBytes` is what the buffer of a given size holds after `RAND_bytes`, whose
answer is not looked at. -/
def generateMnemonic (sha256 : List UInt8 → Vector UInt8 32) (randBytes : (n : Nat) → Vector UInt8 n)
    (wc : Int) : Throws (List UInt8) :=
  if wc ≠ 12 ∧ wc ≠ 15 ∧ wc ≠ 18 ∧ wc ≠ 21 ∧ wc ≠ 24 then
    .error (.runtimeError "word count must be 12/15/18/21/24")
  else
    let ebytes := (wc * 4).toNat
    let ent := (randBytes ebytes).toList
    let h := sha256 ent
    let bits := pushChecksum h (ebytes / 4) (ent.foldl pushByte [])
    .ok (phrase bits wc.toNat)

/-! ## The bits -/

theorem pushByte_eq (bits : List Bool) (b : UInt8) : pushByte bits b = bits ++ lowBits 8 b.toNat := by
  have bit (i : Nat) : ((b.toNat >>> i) &&& 1 != 0) = b.toNat.testBit i := by
    rw [Nat.testBit, Nat.and_comm]
  simp only [pushByte, List.foldl_cons, List.foldl_nil, bit, lowBits, List.append_assoc,
    List.cons_append, List.nil_append]

theorem pushBytes_eq (ent : List UInt8) (bits : List Bool) :
    ent.foldl pushByte bits = bits ++ spelled 8 (ent.map (·.toNat)) := by
  induction ent generalizing bits with
  | nil => simp
  | cons b ent ih => rw [List.foldl_cons, ih, pushByte_eq, List.map_cons, spelled_cons, List.append_assoc]

/-- What was pushed before stays in front. -/
theorem pushChecksum_eq (h : Vector UInt8 32) (count : Nat) (bits : List Bool) :
    ∃ rest, pushChecksum h count bits = bits ++ rest := by
  induction count with
  | zero => exact ⟨[], (List.append_nil bits).symm⟩
  | succ count ih =>
    obtain ⟨rest, hrest⟩ := ih
    refine ⟨rest ++ [(((h.toList[count / 8]?).getD 0).toNat >>> (7 - count % 8)) &&& 1 != 0], ?_⟩
    rw [← List.append_assoc, ← hrest, pushChecksum, List.range_succ, List.foldl_append]
    rfl

theorem lowBits_idxStep {n idx : Nat} (bits : List Bool) (i b : Nat) :
    lowBits (n + 1) (idxStep bits i idx b) = lowBits n idx ++ [bits.getD (i * 11 + b) false] := by
  have high : idxStep bits i idx b >>> 1 = idx := by
    unfold idxStep
    split <;> simp [Nat.shiftRight_or_distrib]
  have low : (idxStep bits i idx b).testBit 0 = bits.getD (i * 11 + b) false := by
    unfold idxStep
    split <;> simp_all
  rw [lowBits_add, high, lowBits, low, lowBits]

theorem idxStep_lt {n idx : Nat} (bits : List Bool) (i b : Nat) (h : idx < 2 ^ n) :
    idxStep bits i idx b < 2 ^ (n + 1) := by
  unfold idxStep
  apply Nat.or_lt_two_pow
  · rw [Nat.shiftLeft_eq, Nat.pow_succ]
    omega
  · have pos := Nat.two_pow_pos n
    split <;> omega

/-- Eleven bits, read from the string one behind the other. -/
theorem idxAt_spec (bits : List Bool) (i : Nat) :
    lowBits 11 (idxAt bits i) = (List.range 11).map (fun b => bits.getD (i * 11 + b) false) ∧
      idxAt bits i < 2048 := by
  have read : ∀ n, lowBits n ((List.range n).foldl (idxStep bits i) 0) =
        (List.range n).map (fun b => bits.getD (i * 11 + b) false) ∧
      (List.range n).foldl (idxStep bits i) 0 < 2 ^ n := by
    intro n
    induction n with
    | zero => exact ⟨rfl, Nat.two_pow_pos 0⟩
    | succ n ih =>
      rw [List.range_succ, List.foldl_append, List.foldl_cons, List.foldl_nil, List.map_append,
        lowBits_idxStep, ih.1]
      exact ⟨rfl, idxStep_lt bits i n ih.2⟩
  exact read 11

/-- The words spell the string from its start. -/
theorem spelled_idxAt {bits : List Bool} {wc : Nat} (h : 11 * wc ≤ bits.length) :
    spelled 11 ((List.range wc).map (idxAt bits)) = bits.take (11 * wc) := by
  have places : spelled 11 ((List.range wc).map (idxAt bits)) =
      (List.range (11 * wc)).map fun b => bits.getD b false := by
    clear h
    induction wc with
    | zero => rfl
    | succ wc ih =>
      rw [List.range_succ, List.map_append, spelled_append, ih, Nat.mul_succ, List.range_add,
        List.map_append, List.map_map, List.map_singleton, spelled_cons, spelled_nil,
        List.append_nil, (idxAt_spec bits wc).1, Nat.mul_comm wc 11]
      rfl
  rw [places]
  apply List.ext_getElem
  · simp [h]
  · intro k hk hk'
    simp only [List.length_map, List.length_range] at hk
    simp [List.getElem?_eq_getElem (Nat.lt_of_lt_of_le hk h)]

/-! ## The words -/

theorem bip39Wordlist_solid : ∀ w ∈ bip39Wordlist, w ≠ [] ∧ ∀ c ∈ w, isSpace c = false := by
  have checked : (bip39Wordlist.all fun w => !w.isEmpty && w.all (!isSpace ·)) = true := by
    decide +kernel
  intro w hw
  have here := List.all_eq_true.mp checked w hw
  simpa using here

theorem bip39Wordlist_nodup : bip39Wordlist.Nodup := by
  have increasing := List.isChain_iff_pairwise.mp bip39Wordlist_sorted
  apply increasing.imp
  rintro a b h rfl
  exact List.lt_irrefl a h

theorem getD_mem_bip39Wordlist {idx : Nat} (h : idx < 2048) :
    bip39Wordlist.getD idx [] ∈ bip39Wordlist := by
  rw [← bip39Wordlist_length] at h
  rw [List.getD_eq_getElem _ _ h]
  exact List.getElem_mem h

/-- A word's place is the index it was taken at. -/
theorem idxOf_getD {idx : Nat} (h : idx < 2048) :
    bip39Wordlist.idxOf (bip39Wordlist.getD idx []) = idx := by
  rw [← bip39Wordlist_length] at h
  rw [List.getD_eq_getElem _ _ h, bip39Wordlist_nodup.idxOf_getElem]

theorem words_of_solid {w : List UInt8} (hsome : w ≠ []) (h : ∀ c ∈ w, isSpace c = false) :
    words w = [w] := by
  rw [words, List.splitOnP_eq_singleton h]
  simp [hsome]

theorem words_append (text : List UInt8) {w : List UInt8} (hsome : w ≠ [])
    (h : ∀ c ∈ w, isSpace c = false) : words (text ++ [32] ++ w) = words text ++ [w] := by
  have blank : isSpace 32 = true := rfl
  rw [List.append_assoc, List.singleton_append, words, List.splitOnP_append_cons _ _ blank,
    List.filter_append, ← words, ← words, words_of_solid hsome h]

/-- A phrase is read as the words it was made of. -/
theorem words_phrase (bits : List Bool) (wc : Nat) :
    words (phrase bits wc) = (List.range wc).map fun i => bip39Wordlist.getD (idxAt bits i) [] := by
  induction wc with
  | zero => rfl
  | succ wc ih =>
    obtain ⟨hsome, hsolid⟩ :=
      bip39Wordlist_solid _ (getD_mem_bip39Wordlist (idxAt_spec bits wc).2)
    have step : phrase bits (wc + 1) = (if wc ≠ 0 then phrase bits wc ++ [32] else phrase bits wc) ++
        bip39Wordlist.getD (idxAt bits wc) [] := by
      rw [phrase, List.range_succ, List.foldl_append]
      rfl
    rw [step, List.range_succ, List.map_append, ← ih]
    by_cases hwc : wc = 0
    · subst hwc
      exact words_of_solid hsome hsolid
    · rw [if_pos hwc]
      exact words_append _ hsome hsolid

theorem placeBits_phrase {bits : List Bool} {wc : Nat} (h : 11 * wc ≤ bits.length) :
    placeBits (phrase bits wc) = bits.take (11 * wc) := by
  have places : (words (phrase bits wc)).map (fun w => bip39Wordlist.idxOf w) =
      (List.range wc).map (idxAt bits) := by
    rw [words_phrase, List.map_map]
    apply List.map_congr_left
    intro i _
    exact idxOf_getD (idxAt_spec bits i).2
  rw [placeBits, places, spelled_idxAt h]

/-! ## The checksum -/

theorem spelled_eight_inj {xs ys : List UInt8}
    (h : spelled 8 (xs.map (·.toNat)) = spelled 8 (ys.map (·.toNat))) : xs = ys := by
  have small (zs : List UInt8) : ∀ z ∈ zs.map (·.toNat), z < 2 ^ 8 := by
    intro z hz
    obtain ⟨b, -, rfl⟩ := List.mem_map.mp hz
    exact b.toNat_lt
  have same : spelled 8 (xs.map (·.toNat)) ++ [] = spelled 8 (ys.map (·.toNat)) ++ [] := by rw [h]
  have bytes := (spelled_unique (small xs) (small ys) (by decide) (by decide) same).1
  exact List.map_injective_iff.mpr (fun _ _ => UInt8.toNat_inj.mp) bytes

/-- The bits of the bytes behind the first `k`. -/
theorem drop_spelled_eight (k : Nat) (ent : List UInt8) :
    (spelled 8 (ent.map (·.toNat))).drop (8 * k) = spelled 8 ((ent.drop k).map (·.toNat)) := by
  by_cases hk : k ≤ ent.length
  · conv_lhs => rw [← List.take_append_drop k ent, List.map_append, spelled_append]
    apply List.drop_left'
    rw [length_spelled, List.length_map, List.length_take_of_le hk]
  · have short : (spelled 8 (ent.map (·.toNat))).length ≤ 8 * k := by
      rw [length_spelled, List.length_map]
      omega
    rw [List.drop_eq_nil_of_le short, List.drop_eq_nil_of_le (by omega)]
    rfl

theorem take_spelled_eight {k : Nat} {ent : List UInt8} (hk : k ≤ ent.length) :
    (spelled 8 (ent.map (·.toNat))).take (8 * k) = spelled 8 ((ent.take k).map (·.toNat)) := by
  conv_lhs => rw [← List.take_append_drop k ent, List.map_append, spelled_append]
  apply List.take_left'
  rw [length_spelled, List.length_map, List.length_take_of_le hk]

/-- The first bits of some bytes. -/
def leadingBits (count : Nat) (bytes : List UInt8) : List Bool :=
  (spelled 8 (bytes.map (·.toNat))).take count

/-- A phrase of `3 * k` words whose bits begin with the bytes drawn. -/
theorem checksumRight_iff (sha256 : List UInt8 → Vector UInt8 32) {m ent : List UInt8} {k : Nat}
    (hcount : (words m).length = 3 * k) (hent : 4 * k + k ≤ ent.length)
    (hbits : placeBits m = leadingBits (33 * k) ent) :
    ChecksumRight sha256 m ↔
      leadingBits k (ent.drop (4 * k)) = leadingBits k (sha256 (ent.take (4 * k))).toList := by
  have sizes : 11 * (3 * k) - 3 * k / 3 = 8 * (4 * k) ∧ 3 * k / 3 = k := by omega
  have front : (placeBits m).take (8 * (4 * k)) = spelled 8 ((ent.take (4 * k)).map (·.toNat)) := by
    rw [hbits, leadingBits, List.take_take, Nat.min_eq_left (by omega),
      take_spelled_eight (by omega)]
  have behind : (placeBits m).drop (8 * (4 * k)) = leadingBits k (ent.drop (4 * k)) := by
    have rest : 33 * k - 8 * (4 * k) = k := by omega
    rw [hbits, leadingBits, List.drop_take, drop_spelled_eight, rest, leadingBits]
  simp only [ChecksumRight, hcount]
  rw [sizes.1, sizes.2, front, behind]
  constructor
  · rintro ⟨entropy, hentropy, hchecksum⟩
    rw [spelled_eight_inj hentropy] at hchecksum
    exact hchecksum
  · exact fun h => ⟨ent.take (4 * k), rfl, h⟩

theorem generateMnemonic_eq (sha256 : List UInt8 → Vector UInt8 32)
    (randBytes : (n : Nat) → Vector UInt8 n) {wc : Nat} (hwc : wc ∈ wordCounts) :
    generateMnemonic sha256 randBytes wc =
      let ent := (randBytes (4 * wc)).toList
      .ok (phrase (pushChecksum (sha256 ent) wc (ent.foldl pushByte [])) wc) := by
  have allowed : ¬((wc : Int) ≠ 12 ∧ (wc : Int) ≠ 15 ∧ (wc : Int) ≠ 18 ∧ (wc : Int) ≠ 21 ∧
      (wc : Int) ≠ 24) := by
    simp only [wordCounts, List.mem_cons, List.not_mem_nil, or_false] at hwc
    omega
  have size : ((wc : Int) * 4).toNat = 4 * wc := by omega
  have count : 4 * wc / 4 = wc := by omega
  rw [generateMnemonic, if_neg allowed, size]
  simp only [count, Int.toNat_natCast]

/-- The phrase that is returned spells the bytes drawn. -/
theorem generateMnemonic_spells (sha256 : List UInt8 → Vector UInt8 32)
    (randBytes : (n : Nat) → Vector UInt8 n) {wc : Nat} (hwc : wc ∈ wordCounts) :
    ∃ m, generateMnemonic sha256 randBytes wc = .ok m ∧ (words m).length = wc ∧
      placeBits m = leadingBits (11 * wc) (randBytes (4 * wc)).toList := by
  refine ⟨_, generateMnemonic_eq sha256 randBytes hwc, ?_, ?_⟩
  · rw [words_phrase, List.length_map, List.length_range]
  · generalize randBytes (4 * wc) = ent
    obtain ⟨rest, hrest⟩ := pushChecksum_eq (sha256 ent.toList) wc (ent.toList.foldl pushByte [])
    have enough : 11 * wc ≤ (spelled 8 (ent.toList.map (·.toNat))).length := by
      rw [length_spelled, List.length_map, Vector.length_toList]
      omega
    have room : 11 * wc ≤ (spelled 8 (ent.toList.map (·.toNat)) ++ rest).length := by
      rw [List.length_append]
      omega
    rw [hrest, pushBytes_eq, List.nil_append, placeBits_phrase room,
      List.take_append_of_le_length enough, leadingBits]

/-- **The checksum of a phrase is drawn, not computed.** It is right exactly when the
bits drawn behind the entropy happen to be those the hash of the entropy starts with. -/
theorem generateMnemonic_iff (sha256 : List UInt8 → Vector UInt8 32)
    (randBytes : (n : Nat) → Vector UInt8 n) {wc : Nat} (hwc : wc ∈ wordCounts) :
    (∃ m, generateMnemonic sha256 randBytes wc = .ok m ∧ (words m).length = wc ∧
      ChecksumRight sha256 m) ↔
    leadingBits (wc / 3) ((randBytes (4 * wc)).toList.drop (4 * wc / 3)) =
      leadingBits (wc / 3) (sha256 ((randBytes (4 * wc)).toList.take (4 * wc / 3))).toList := by
  obtain ⟨k, rfl⟩ : ∃ k, wc = 3 * k := by
    simp only [wordCounts, List.mem_cons, List.not_mem_nil, or_false] at hwc
    exact ⟨wc / 3, by omega⟩
  have sizes : 3 * k / 3 = k ∧ 4 * (3 * k) / 3 = 4 * k ∧ 11 * (3 * k) = 33 * k := by omega
  have drawn : 4 * k + k ≤ (randBytes (4 * (3 * k))).toList.length := by
    rw [Vector.length_toList]
    omega
  obtain ⟨m, hm, hcount, hbits⟩ := generateMnemonic_spells sha256 randBytes hwc
  rw [sizes.2.2] at hbits
  rw [sizes.1, sizes.2.1, ← checksumRight_iff sha256 hcount drawn hbits]
  constructor
  · rintro ⟨m', hm', -, hright⟩
    cases hm.symm.trans hm'
    exact hright
  · exact fun hright => ⟨m, hm, hcount, hright⟩

/-- SHA-256 as a vector. -/
def hash (message : List UInt8) : Vector UInt8 32 :=
  ⟨(Sha256.sha256 message).toArray, Sha256.sha256_length message⟩

/-- A generator that draws zeros only. -/
def zeroBytes (n : Nat) : Vector UInt8 n := Vector.replicate n 0

/-- Of a constant hash the zeros drawn are the right bits. -/
theorem generateMnemonic_zeros :
    12 ∈ wordCounts ∧
      ∃ m, generateMnemonic (fun _ => zeroBytes 32) zeroBytes 12 = .ok m ∧ (words m).length = 12 ∧
        ChecksumRight (fun _ => zeroBytes 32) m :=
  ⟨by decide, (generateMnemonic_iff (fun _ => zeroBytes 32) zeroBytes (by decide)).mpr
    (by decide)⟩

/-- Twelve words of zeros: the hash of sixteen zero bytes starts with `0011`. -/
theorem generateMnemonic_checksum_wrong :
    ∃ m, generateMnemonic hash zeroBytes 12 = .ok m ∧ (words m).length = 12 ∧
      ¬ ChecksumRight hash m := by
  have allowed : 12 ∈ wordCounts := by decide
  obtain ⟨m, hm, hcount, hbits⟩ := generateMnemonic_spells hash zeroBytes allowed
  refine ⟨m, hm, hcount, ?_⟩
  rw [checksumRight_iff hash (k := 4) hcount (by decide) hbits]
  decide +kernel

end MidnightSdk.Wallet.Bip39
