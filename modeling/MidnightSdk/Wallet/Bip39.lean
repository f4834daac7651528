import MidnightSdk.Library.Cpp
import MidnightSdk.Library.Regroup
import MidnightSdk.Wallet.Bip39Wordlist

/-!
# Mnemonics

A phrase is read word by word, each word looked up in the sorted list. The loop
meant to compare the checksum counts words where it should count bits, so it ends
before the first checksum bit. The seed is made of the text as it was given.
-/

namespace MidnightSdk.Wallet.Bip39

open Cpp BinarySearch Regroup

def wordIndex (w : List UInt8) : Int :=
  (search (fun mid => compareTo (bip39Wordlist.getD mid.toNat []) w) 0 2047).getD (-1)

/-- The loop over the words; it returns `false` at one that is not in the list. -/
def readIndices : List (List UInt8) → Option (List Nat)
  | [] => some []
  | w :: rest => do
    let idx := wordIndex w
    if idx < 0 then none
    let indices ← readIndices rest
    return idx.toNat :: indices

/-- One bit of a word's index, put into the entropy while there is room. -/
def entropyStep (entropyBits idx : Nat) (st : List UInt8 × Nat) (b : Nat) : List UInt8 × Nat :=
  let (entropy, bitPos) := st
  let bit := ((idx >>> b) &&& 1) <<< (7 - bitPos % 8)
  (if bitPos < entropyBits then entropy.modify (bitPos / 8) fun byte => byte ||| UInt8.ofNat bit
    else entropy, bitPos + 1)

def entropyOf (entropyBits entropyBytes : Nat) (indices : List Nat) : List UInt8 :=
  (indices.foldl (fun st idx => [10, 9, 8, 7, 6, 5, 4, 3, 2, 1, 0].foldl (entropyStep entropyBits idx) st)
    (List.replicate entropyBytes 0, 0)).1

/-- The position goes up by one for each word. -/
def checksumLoop (hash : Vector UInt8 32) (entropyBits : Nat) : Nat → List Nat → Bool
  | _, [] => true
  | bitPos, idx :: rest =>
    if bitPos ≥ entropyBits then
      let checksumBitPos := bitPos - entropyBits
      let byteIdx := checksumBitPos / 8
      let bitIdx := 7 - checksumBitPos % 8
      let expectedBit := (((hash.toList[byteIdx]?).getD 0).toNat >>> bitIdx) &&& 1
      let actualBit := (idx >>> (10 - checksumBitPos % 11)) &&& 1
      if expectedBit ≠ actualBit then false else checksumLoop hash entropyBits (bitPos + 1) rest
    else checksumLoop hash entropyBits (bitPos + 1) rest

def validateMnemonic (sha256 : List UInt8 → Vector UInt8 32) (m : List UInt8) : Bool :=
  match readIndices (words m) with
  | none => false
  | some indices =>
    let cnt := indices.length
    if cnt ≠ 12 ∧ cnt ≠ 15 ∧ cnt ≠ 18 ∧ cnt ≠ 21 ∧ cnt ≠ 24 then false
    else
      let totalBits := cnt * 11
      let checksumBits := totalBits / 33
      let entropyBits := totalBits - checksumBits
      let entropyBytes := entropyBits / 8
      let entropy := entropyOf entropyBits entropyBytes indices
      checksumLoop (sha256 entropy) entropyBits 0 indices

/-- `PKCS5_PBKDF2_HMAC` with SHA-512 and 64 bytes of output. The texts come with
their lengths, and no more of a text is read than its length says. -/
structure Pbkdf2 where
  run : (pass : List UInt8) → (passLen : Int) → (salt : List UInt8) → (saltLen : Int) →
    (iterations : Nat) → Vector UInt8 64
  reads : ∀ pass passLen salt saltLen iterations, 0 ≤ passLen →
    run pass passLen salt saltLen iterations =
      run (pass.take passLen.toNat) passLen salt saltLen iterations

/-- A size cast to `int`. -/
def intSize (text : List UInt8) : Int := (Int32.ofNat text.length).toInt

def mnemonicToSeed (pbkdf2 : Pbkdf2) (m p : List UInt8) : List UInt8 :=
  let salt := literal "mnemonic" ++ p
  (pbkdf2.run m (intSize m) salt (intSize salt) 2048).toList

/-! ## Which phrases are accepted -/

def wordCounts : List Nat := [12, 15, 18, 21, 24]

/-- As many words as a phrase has, all of them in the list. -/
def Listed (m : List UInt8) : Prop :=
  (words m).length ∈ wordCounts ∧ ∀ w ∈ words m, w ∈ bip39Wordlist

/-- The bits of the words' places, eleven for each. -/
def placeBits (m : List UInt8) : List Bool :=
  spelled 11 ((words m).map fun w => bip39Wordlist.idxOf w)

/-- The last bits, one for three words, are the first of the hash of the bits before. -/
def ChecksumRight (sha256 : List UInt8 → Vector UInt8 32) (m : List UInt8) : Prop :=
  let checksumBits := (words m).length / 3
  let entropyBits := 11 * (words m).length - checksumBits
  ∃ entropy : List UInt8,
    spelled 8 (entropy.map (·.toNat)) = (placeBits m).take entropyBits ∧
    (placeBits m).drop entropyBits =
      (spelled 8 ((sha256 entropy).toList.map (·.toNat))).take checksumBits

theorem wordIndex_nonneg_iff (w : List UInt8) : 0 ≤ wordIndex w ↔ w ∈ bip39Wordlist := by
  have found := search_isSome_iff bip39Wordlist_sorted w []
  rw [bip39Wordlist_length] at found
  rw [← found, wordIndex]
  change 0 ≤ (search _ 0 2047).getD (-1) ↔ (search _ 0 2047).isSome = true
  cases h : search (fun mid => compareTo (bip39Wordlist.getD mid.toNat []) w) 0 2047 with
  | none => decide
  | some i =>
    have low := (search_eq_some h).1
    simpa using low

theorem readIndices_cons (w : List UInt8) (rest : List (List UInt8)) :
    readIndices (w :: rest) = if wordIndex w < 0 then none
      else (readIndices rest).map fun indices => (wordIndex w).toNat :: indices := by
  rw [readIndices]
  split
  · rfl
  · cases readIndices rest <;> rfl

/-- One index for each word, if every word is in the list. -/
theorem readIndices_spec (ws : List (List UInt8)) :
    (∀ indices, readIndices ws = some indices → indices.length = ws.length) ∧
      ((readIndices ws).isSome = true ↔ ∀ w ∈ ws, w ∈ bip39Wordlist) := by
  induction ws with
  | nil => simp [readIndices]
  | cons w rest ih =>
    obtain ⟨length, listed⟩ := ih
    rw [readIndices_cons, List.forall_mem_cons, ← wordIndex_nonneg_iff, ← listed]
    by_cases hw : wordIndex w < 0
    · rw [if_pos hw]
      refine ⟨nofun, ?_⟩
      simp only [Option.isSome_none, Bool.false_eq_true, false_iff]
      omega
    · rw [if_neg hw, Option.isSome_map]
      refine ⟨?_, (and_iff_right (by omega)).symm⟩
      intro indices h
      obtain ⟨found, hfound, rfl⟩ := Option.map_eq_some_iff.mp h
      rw [List.length_cons, List.length_cons, length found hfound]

/-- There are fewer words than entropy bits, so no bit is compared. -/
theorem checksumLoop_eq_true (hash : Vector UInt8 32) (entropyBits : Nat) (indices : List Nat)
    (bitPos : Nat) (h : bitPos + indices.length ≤ entropyBits) :
    checksumLoop hash entropyBits bitPos indices = true := by
  induction indices generalizing bitPos with
  | nil => rfl
  | cons idx rest ih =>
    rw [List.length_cons] at h
    rw [checksumLoop, if_neg (by omega)]
    exact ih (bitPos + 1) (by omega)

/-- Whatever the hash is, the words decide. -/
theorem validateMnemonic_iff (sha256 : List UInt8 → Vector UInt8 32) (m : List UInt8) :
    validateMnemonic sha256 m = true ↔ Listed m := by
  obtain ⟨length, listed⟩ := readIndices_spec (words m)
  rw [Listed, ← listed, validateMnemonic]
  cases hindices : readIndices (words m) with
  | none => simp
  | some indices =>
    have count := length indices hindices
    simp only [Option.isSome_some, and_true, ← count, wordCounts, List.mem_cons, List.not_mem_nil,
      or_false]
    by_cases hcount : indices.length ≠ 12 ∧ indices.length ≠ 15 ∧ indices.length ≠ 18 ∧
        indices.length ≠ 21 ∧ indices.length ≠ 24
    · rw [if_pos hcount]
      simp only [Bool.false_eq_true, false_iff]
      omega
    · rw [if_neg hcount, checksumLoop_eq_true _ _ _ _ (by omega)]
      simp only [true_iff]
      omega

/-- What the law asks of a phrase. -/
def Valid (sha256 : List UInt8 → Vector UInt8 32) (m : List UInt8) : Prop :=
  Listed m ∧ ChecksumRight sha256 m

/-! ## The seed -/

/-- What of a text counts beside its length. -/
def readPart (passLen : Int) (pass : List UInt8) : List UInt8 :=
  if 0 ≤ passLen then pass.take passLen.toNat else pass

/-- What is handed over to PBKDF2: the length, and the bytes it covers. -/
def handed (m : List UInt8) : Int × List UInt8 := (intSize m, readPart (intSize m) m)

/-- A function that tells one text from all others. -/
def Pbkdf2.telling (key : Int × List UInt8) : Pbkdf2 where
  run pass passLen _ _ _ :=
    Vector.replicate 64 (if (passLen, readPart passLen pass) = key then 1 else 0)
  reads pass passLen _ _ _ h := by
    rw [readPart, readPart, if_pos h, if_pos h, List.take_take, Nat.min_self]

theorem Pbkdf2.run_readPart (pbkdf2 : Pbkdf2) (pass : List UInt8) (passLen : Int) (salt : List UInt8)
    (saltLen : Int) (iterations : Nat) :
    pbkdf2.run (readPart passLen pass) passLen salt saltLen iterations =
      pbkdf2.run pass passLen salt saltLen iterations := by
  unfold readPart
  split
  · exact (pbkdf2.reads pass passLen salt saltLen iterations ‹_›).symm
  · rfl

/-- The texts PBKDF2 cannot tell apart are those handed over alike. -/
theorem mnemonicToSeed_eq_iff (m m' p : List UInt8) :
    (∀ pbkdf2, mnemonicToSeed pbkdf2 m p = mnemonicToSeed pbkdf2 m' p) ↔ handed m = handed m' := by
  constructor
  · intro same
    by_contra hne
    have told := same (Pbkdf2.telling (handed m))
    have found : (intSize m, readPart (intSize m) m) = handed m := rfl
    have other : ¬ (intSize m', readPart (intSize m') m') = handed m := fun h => hne h.symm
    simp only [mnemonicToSeed, Pbkdf2.telling, if_pos found, if_neg other] at told
    cases told
  · intro same pbkdf2
    obtain ⟨size, part⟩ := Prod.mk.inj same
    rw [mnemonicToSeed, mnemonicToSeed, ← pbkdf2.run_readPart m, ← pbkdf2.run_readPart m', part, size]

/-- Texts of less than two gibibytes are handed over whole. -/
theorem handed_eq_iff {m m' : List UInt8} (h : m.length < 2 ^ 31) (h' : m'.length < 2 ^ 31) :
    handed m = handed m' ↔ m = m' := by
  have whole {m : List UInt8} (h : m.length < 2 ^ 31) : handed m = ((m.length : Int), m) := by
    have size : intSize m = m.length := Int32.toInt_ofNat_of_lt h
    rw [handed, size, readPart, if_pos (by omega), Int.toNat_natCast, List.take_length]
  rw [whole h, whole h', Prod.mk.injEq]
  exact and_iff_right_of_imp fun same => by rw [same]

end MidnightSdk.Wallet.Bip39
