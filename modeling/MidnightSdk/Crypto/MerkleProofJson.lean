import Mathlib.Algebra.Group.Nat.Even
import MidnightSdk.Crypto.MerkleTree
import MidnightSdk.Library.Places
import MidnightSdk.Library.Stoull
import MidnightSdk.Util.HexDecoders

/-!
# The text of a proof

A proof is written as a JSON object. The reader searches for the keys and takes what
stands behind them up to the next quote, comma or bracket. Its loop over the siblings
starts again from the front where a quote has no partner.
-/

namespace MidnightSdk.Crypto

open Cpp HexText Places TextSearch

namespace MerkleProof

/-- The elements of a list, a comma in front of each but the first. -/
def joined : List (List Char) → List Char
  | [] => []
  | first :: rest => first ++ rest.flatMap (',' :: ·)

def quoted (text : List Char) : List Char := '"' :: (text ++ ['"'])

def toJson (p : MerkleProof) : List Char :=
  ['{'] ++
  ("\"leaf\":\"".toList ++ Util.bytesToHex p.leaf ++ "\",".toList) ++
  ("\"leaf_index\":".toList ++ p.leafIndex.repr.toList ++ ",".toList) ++
  ("\"siblings\":[".toList ++ joined (p.siblings.map fun s => quoted (Util.bytesToHex s)) ++
    "],".toList) ++
  ("\"sibling_positions\":[".toList ++ joined (p.siblingPositions.map (·.repr.toList)) ++
    "]".toList) ++
  ['}']

/-- A hash of the size it has to have. -/
def readHash (hexVal : List Char) : Option (List UInt8) :=
  (fromHex hexVal).filter fun hash => hash.length == hashSize

/-- The loop over the quotes; `none` where it has not ended within so many rounds. -/
def siblingLoop (sibStr : List Char) : Nat → Nat → List (List UInt8) → Option (List (List UInt8))
  | 0, _, _ => none
  | rounds + 1, pos, siblings =>
    if pos < sibStr.length then
      match findFrom ['"'] sibStr (some pos) with
      | none => some siblings
      | some q1 =>
        let q2 := findFrom ['"'] sibStr (some (q1 + 1))
        let siblings :=
          match (slice sibStr (q1 + 1) q2).toOption.bind readHash with
          | some sib => siblings ++ [sib]
          | none => siblings
        let pos := after q2 1
        siblingLoop sibStr rounds (if sibStr[pos]? = some ',' then pos + 1 else pos) siblings
    else some siblings

/-- The loop over the positions, on what is left of the text. -/
def positionLoop (posStr : List Char) : Throws (List UInt64) :=
  match _hrest : posStr.dropWhile fun c => c == ',' || c == ' ' with
  | [] => .ok []
  | c :: rest => do
    let position ← Stoull.stoull 10 ((c :: rest).takeWhile (· != ','))
    let positions ← positionLoop (((c :: rest).dropWhile (· != ',')).drop 1)
    return position :: positions
termination_by posStr.length
decreasing_by
  have kept := (List.dropWhile_sublist (l := posStr) fun c => c == ',' || c == ' ').length_le
  have shorter := (List.dropWhile_sublist (l := rest) (· != ',')).length_le
  rw [_hrest, List.length_cons] at kept
  rw [List.dropWhile_cons, List.length_drop]
  split
  · omega
  · rw [List.length_cons]
    omega

/-- The leaf, its index and the text of the siblings. -/
def readHead (s : List Char) : Option (List UInt8 × UInt64 × List Char) := do
  let leafHexVal ← (between "\"leaf\":\"".toList true '"' s).toOption
  let leaf ← readHash leafHexVal
  let idxStr ← (between "\"leaf_index\":".toList false ',' s).toOption
  let idx ← (Stoull.stoull 10 idxStr).toOption
  let sibStr ← (between "\"siblings\":[".toList false ']' s).toOption
  return (leaf, idx, sibStr)

def readPositions (s : List Char) : Option (List UInt64) := do
  let posStr ← (between "\"sibling_positions\":[".toList false ']' s).toOption
  (positionLoop posStr).toOption

/-- What the reader answers within so many rounds of its loop over the siblings; every
exception is caught. -/
def fromJson (rounds : Nat) (s : List Char) : Option (Option MerkleProof) :=
  match readHead s with
  | none => some none
  | some (leaf, idx, sibStr) =>
    (siblingLoop sibStr rounds 0 []).map fun siblings =>
      (readPositions s).map fun positions =>
        ⟨leaf, siblings, positions.map (·.toNat), idx.toNat⟩

def Returns (s : List Char) (answer : Option MerkleProof) : Prop :=
  ∃ rounds, fromJson rounds s = some answer

/-! ## The loop over the siblings -/

/-- The pieces between a first quote and its partner. -/
def paired : List (List Char) → List (List Char)
  | _ :: element :: after :: rest => element :: paired (after :: rest)
  | _ => []

/-- The quoted elements of a text. -/
def elements (text : List Char) : List (List Char) := paired (text.splitOn '"')

def skipComma (text : List Char) : List Char := if text.head? = some ',' then text.tail else text

theorem elements_eq {before element : List Char} (hbefore : '"' ∉ before) (helement : '"' ∉ element)
    (rest : List Char) :
    elements (before ++ '"' :: (element ++ '"' :: rest)) = element :: elements rest := by
  obtain ⟨piece, pieces, hpieces⟩ := List.exists_cons_of_ne_nil (List.splitOn_ne_nil '"' rest)
  rw [elements, List.splitOn_append_cons_self_of_not_mem hbefore,
    List.splitOn_append_cons_self_of_not_mem helement, hpieces, paired, elements, hpieces]

theorem elements_of_not_mem {text : List Char} (h : '"' ∉ text) : elements text = [] := by
  rw [elements, List.splitOn_eq_singleton h, paired]
  exact nofun

theorem elements_skipComma (text : List Char) : elements (skipComma text) = elements text := by
  unfold skipComma
  split
  · rename_i hcomma
    obtain ⟨rest, rfl⟩ : ∃ rest, text = ',' :: rest := by
      cases text with
      | nil => cases hcomma
      | cons c rest =>
        cases hcomma
        exact ⟨rest, rfl⟩
    obtain ⟨piece, pieces, hpieces⟩ := List.exists_cons_of_ne_nil (List.splitOn_ne_nil '"' rest)
    have behind : (',' :: rest).splitOn '"' = (',' :: piece) :: pieces := by
      rw [List.splitOn_cons_eq_if_modifyHead, hpieces]
      rfl
    rw [List.tail_cons, elements, elements, behind, hpieces]
    cases pieces with
    | nil => rfl
    | cons element pieces => cases pieces <;> rfl
  · rfl

theorem count_skipComma (text : List Char) : (skipComma text).count '"' = text.count '"' := by
  unfold skipComma
  split
  · cases text with
    | nil => rfl
    | cons c rest =>
      rename_i hcomma
      cases hcomma
      simp
  · rfl

/-- Behind a comma that is skipped. -/
theorem exists_skipComma (done rest : List Char) : ∃ done', done ++ rest = done' ++ skipComma rest ∧
    (if (done ++ rest)[done.length]? = some ',' then done.length + 1 else done.length) =
      done'.length := by
  have here : (done ++ rest)[done.length]? = rest.head? := by
    rw [List.getElem?_append_right (Nat.le_refl _), Nat.sub_self, List.head?_eq_getElem?]
  rw [here]
  unfold skipComma
  split
  · rename_i hcomma
    cases rest with
    | nil => cases hcomma
    | cons c rest => exact ⟨done ++ [c], by simp, by simp⟩
  · exact ⟨done, rfl, rfl⟩

section Loop
variable {text done before element rest : List Char} (rounds : Nat) (siblings : List (List UInt8))

/-- A quote and its partner are passed, and what they hold is read. -/
theorem siblingLoop_pair (hbefore : '"' ∉ before) (helement : '"' ∉ element)
    (ht : text = done ++ (before ++ '"' :: (element ++ '"' :: rest))) :
    ∃ done', text = done' ++ skipComma rest ∧
      siblingLoop text (rounds + 1) done.length siblings =
        siblingLoop text rounds done'.length (siblings ++ (readHash element).toList) := by
  have behind : text = (done ++ (before ++ ['"'])) ++ (element ++ '"' :: rest) := by simp [ht]
  have past : text = (done ++ (before ++ '"' :: (element ++ ['"']))) ++ rest := by simp [ht]
  obtain ⟨done', hdone', hplace⟩ :=
    exists_skipComma (done ++ (before ++ '"' :: (element ++ ['"']))) rest
  refine ⟨done', past.trans hdone', ?_⟩
  have inside : done.length < text.length := by simp [ht]
  have q1 : findFrom ['"'] text (some done.length) = some (done.length + before.length) := by
    rw [ht, findFrom_mark hbefore]
  have start : done.length + before.length + 1 = (done ++ (before ++ ['"'])).length := by simp; omega
  have q2 : findFrom ['"'] text (some (done.length + before.length + 1)) =
      some (done.length + before.length + 1 + element.length) := by
    rw [start, behind, findFrom_mark helement]
  have value : (slice text (done.length + before.length + 1)
      (some (done.length + before.length + 1 + element.length))).toOption.bind readHash =
        readHash element := by
    rw [start, behind, slice_append]
    rfl
  have next : after (some (done.length + before.length + 1 + element.length)) 1 =
      (done ++ (before ++ '"' :: (element ++ ['"']))).length := by
    simp [after]
    omega
  rw [siblingLoop, if_pos inside, q1]
  simp only [q2, value, next]
  rw [← past] at hplace
  rw [hplace]
  cases readHash element with
  | none => rw [Option.toList_none, List.append_nil]
  | some sib => rw [Option.toList_some]

/-- A quote without a partner sends the loop back to the front. -/
theorem siblingLoop_unpaired (hbefore : '"' ∉ before) (helement : '"' ∉ element)
    (ht : text = done ++ (before ++ '"' :: element)) :
    ∃ done' siblings', text = done' ++ skipComma text ∧
      siblingLoop text (rounds + 1) done.length siblings =
        siblingLoop text rounds done'.length siblings' := by
  have behind : text = (done ++ (before ++ ['"'])) ++ element := by simp [ht]
  obtain ⟨done', hdone', hplace⟩ := exists_skipComma [] text
  rw [List.nil_append] at hdone' hplace
  have inside : done.length < text.length := by simp [ht]
  have q1 : findFrom ['"'] text (some done.length) = some (done.length + before.length) := by
    rw [ht, findFrom_mark hbefore]
  have start : done.length + before.length + 1 = (done ++ (before ++ ['"'])).length := by simp; omega
  have q2 : findFrom ['"'] text (some (done.length + before.length + 1)) = none := by
    rw [start, behind, findFrom_mark_eq_none helement]
  refine ⟨done', siblings ++ (readHash element).toList, hdone', ?_⟩
  have value : (slice text (done.length + before.length + 1) none).toOption.bind readHash =
      readHash element := by
    rw [start, behind, slice_end]
    rfl
  have next : after none 1 = ([] : List Char).length := rfl
  rw [siblingLoop, if_pos inside, q1]
  simp only [q2, value, next]
  rw [hplace]
  cases readHash element with
  | none => rw [Option.toList_none, List.append_nil]
  | some sib => rw [Option.toList_some]

theorem siblingLoop_of_not_mem (hrest : '"' ∉ rest) (ht : text = done ++ rest) :
    siblingLoop text (rounds + 1) done.length siblings = some siblings := by
  rw [siblingLoop, ht, findFrom_mark_eq_none hrest]
  split <;> rfl

end Loop

theorem exists_quote (text : List Char) (h : text.count '"' ≠ 0) :
    ∃ before rest, text = before ++ '"' :: rest ∧ '"' ∉ before ∧
      rest.count '"' + 1 = text.count '"' := by
  have found : '"' ∈ text := List.count_pos_iff.mp (Nat.pos_of_ne_zero h)
  obtain ⟨before, rest, rfl, hbefore⟩ := List.eq_append_cons_of_mem found
  refine ⟨before, rest, rfl, hbefore, ?_⟩
  rw [List.count_append, List.count_eq_zero.mpr hbefore, List.count_cons_self, Nat.zero_add]

/-- **Quotes that come in pairs** are passed in as many rounds as there are pairs. -/
theorem siblingLoop_even {text done rest : List Char} {pairs rounds : Nat}
    (siblings : List (List UInt8)) (ht : text = done ++ rest) (hrest : rest.count '"' = 2 * pairs)
    (hrounds : pairs < rounds) :
    siblingLoop text rounds done.length siblings =
      some (siblings ++ (elements rest).filterMap readHash) := by
  obtain ⟨rounds, rfl⟩ : ∃ n, rounds = n + 1 := ⟨rounds - 1, by omega⟩
  induction pairs generalizing done rest rounds siblings with
  | zero =>
    have none : '"' ∉ rest := List.count_eq_zero.mp hrest
    rw [siblingLoop_of_not_mem rounds siblings none ht, elements_of_not_mem none, List.filterMap_nil,
      List.append_nil]
  | succ pairs ih =>
    obtain ⟨before, behind, rfl, hbefore, hcount⟩ := exists_quote rest (by omega)
    obtain ⟨element, behind, rfl, helement, hleft⟩ := exists_quote behind (by omega)
    obtain ⟨done', hdone', hstep⟩ :=
      siblingLoop_pair rounds siblings hbefore helement ht
    obtain ⟨rounds, rfl⟩ : ∃ n, rounds = n + 1 := ⟨rounds - 1, by omega⟩
    have fewer : (skipComma behind).count '"' = 2 * pairs := by
      rw [count_skipComma]
      omega
    rw [hstep, ih _ hdone' fewer rounds (by omega), elements_skipComma,
      elements_eq hbefore helement]
    cases hread : readHash element with
    | none => simp [hread]
    | some sib => simp [hread]

/-- **A quote left over keeps the loop going for ever.** -/
theorem siblingLoop_odd {text done rest : List Char} (rounds : Nat) (siblings : List (List UInt8))
    (ht : text = done ++ rest) (htext : text.count '"' % 2 = 1) (hrest : rest.count '"' % 2 = 1) :
    siblingLoop text rounds done.length siblings = none := by
  induction rounds generalizing done rest siblings with
  | zero => rfl
  | succ rounds ih =>
    obtain ⟨before, behind, rfl, hbefore, hcount⟩ := exists_quote rest (by omega)
    by_cases hleft : behind.count '"' = 0
    · obtain ⟨done', siblings', hdone', hstep⟩ := siblingLoop_unpaired rounds siblings hbefore
        (List.count_eq_zero.mp hleft) ht
      rw [hstep]
      exact ih siblings' hdone' (by rw [count_skipComma]; exact htext)
    · obtain ⟨element, behind, rfl, helement, hfewer⟩ := exists_quote behind hleft
      obtain ⟨done', hdone', hstep⟩ :=
        siblingLoop_pair rounds siblings hbefore helement ht
      rw [hstep]
      apply ih _ hdone'
      rw [count_skipComma]
      omega

theorem siblingLoop_mono {text : List Char} {rounds pos : Nat} {siblings found : List (List UInt8)}
    (h : siblingLoop text rounds pos siblings = some found) (more : Nat) :
    siblingLoop text (rounds + more) pos siblings = some found := by
  induction rounds generalizing pos siblings with
  | zero => cases h
  | succ rounds ih =>
    rw [Nat.succ_add]
    rw [siblingLoop] at h ⊢
    split
    · rename_i inside
      rw [if_pos inside] at h
      cases hquote : findFrom ['"'] text (some pos) with
      | none =>
        rw [hquote] at h
        exact h
      | some q1 =>
        rw [hquote] at h
        exact ih h
    · rename_i outside
      rwa [if_neg outside] at h

/-! ## Which texts are read rightly -/

/-- What stands in the brackets behind the key; a text without the key has no array. -/
def siblingsArray (s : List Char) : List Char :=
  match find "\"siblings\":[".toList s with
  | some pos => (s.drop (pos + 12)).takeWhile (· != ']')
  | none => []

/-- The reader answers, and a proof it answers has a sibling for each quoted element. -/
structure JsonLaw (s : List Char) : Prop where
  terminates : ∃ answer, Returns s answer
  complete : ∀ p, Returns s (some p) → p.siblings.length = (elements (siblingsArray s)).length

/-- The quotes come in pairs, and where the positions can be read every element is the
hex of a hash; without the array's key there is none such in the text taken for it. -/
def WellQuoted (s sibStr : List Char) : Prop :=
  sibStr.count '"' % 2 = 0 ∧
    ((readPositions s).isSome = true →
      if (find "\"siblings\":[".toList s).isSome then
        ∀ element ∈ elements sibStr, (readHash element).isSome = true
      else ∀ element ∈ elements sibStr, readHash element = none)

theorem sibStr_of_readHead {s sibStr : List Char} {leaf : List UInt8} {idx : UInt64}
    (hhead : readHead s = some (leaf, idx, sibStr)) :
    between "\"siblings\":[".toList false ']' s = .ok sibStr := by
  simp only [readHead, Option.bind_eq_bind, Option.bind_eq_some_iff, Option.pure_def,
    Option.some.injEq, Prod.mk.injEq] at hhead
  obtain ⟨_, -, _, -, _, -, _, -, text, htext, -, -, rfl⟩ := hhead
  cases hread : between "\"siblings\":[".toList false ']' s with
  | error e =>
    rw [hread] at htext
    cases htext
  | ok found =>
    rw [hread] at htext
    cases htext
    rfl

theorem siblings_iff {s sibStr : List Char} {leaf : List UInt8} {idx : UInt64}
    (hhead : readHead s = some (leaf, idx, sibStr)) :
    ((elements sibStr).filterMap readHash).length = (elements (siblingsArray s)).length ↔
      if (find "\"siblings\":[".toList s).isSome then
        ∀ element ∈ elements sibStr, (readHash element).isSome = true
      else ∀ element ∈ elements sibStr, readHash element = none := by
  cases hkey : find "\"siblings\":[".toList s with
  | none =>
    have empty : elements (siblingsArray s) = [] := by
      rw [siblingsArray, hkey]
      exact elements_of_not_mem nofun
    rw [empty, List.length_nil, List.length_eq_zero_iff, List.filterMap_eq_nil_iff]
    rfl
  | some pos =>
    have array : siblingsArray s = sibStr := by
      have text : between "\"siblings\":[".toList false ']' s = _ := between_of_find hkey (by decide)
      rw [sibStr_of_readHead hhead] at text
      rw [siblingsArray, hkey]
      exact (Except.ok.inj text).symm
    rw [array, List.length_filterMap_eq_countP, List.countP_eq_length]
    rfl

/-- With quotes in pairs there is one answer. -/
theorem returns_iff {s sibStr : List Char} {leaf : List UInt8} {idx : UInt64}
    (hhead : readHead s = some (leaf, idx, sibStr)) (heven : sibStr.count '"' % 2 = 0)
    (answer : Option MerkleProof) :
    Returns s answer ↔ answer = (readPositions s).map fun positions =>
      ⟨leaf, (elements sibStr).filterMap readHash, positions.map (·.toNat), idx.toNat⟩ := by
  have enough (more : Nat) : siblingLoop sibStr (sibStr.count '"' / 2 + 1 + more) 0 [] =
      some ((elements sibStr).filterMap readHash) := by
    have pairs : sibStr.count '"' = 2 * (sibStr.count '"' / 2) := by omega
    have all := siblingLoop_even [] (List.nil_append sibStr).symm pairs (Nat.lt_succ_self _)
    exact siblingLoop_mono all more
  constructor
  · rintro ⟨rounds, h⟩
    simp only [fromJson, hhead, Option.map_eq_some_iff] at h
    obtain ⟨siblings, hloop, rfl⟩ := h
    have later := siblingLoop_mono hloop (sibStr.count '"' / 2 + 1)
    rw [Nat.add_comm, enough rounds, Option.some.injEq] at later
    rw [later]
  · rintro rfl
    exact ⟨sibStr.count '"' / 2 + 1, by simp only [fromJson, hhead, enough 0, Option.map_some]⟩

theorem not_returns {s sibStr : List Char} {leaf : List UInt8} {idx : UInt64}
    (hhead : readHead s = some (leaf, idx, sibStr)) (hodd : sibStr.count '"' % 2 = 1)
    (answer : Option MerkleProof) : ¬ Returns s answer := by
  rintro ⟨rounds, h⟩
  have ends : siblingLoop sibStr rounds 0 [] = none :=
    siblingLoop_odd rounds [] (List.nil_append sibStr).symm hodd hodd
  simp only [fromJson, hhead, ends, Option.map_none] at h
  cases h

/-- **The reader ends, and drops nothing, exactly on well quoted texts**; what stands in
the array does not matter where the leaf or its index is not read. -/
theorem jsonLaw_iff (s : List Char) : JsonLaw s ↔
    ∀ leaf idx sibStr, readHead s = some (leaf, idx, sibStr) → WellQuoted s sibStr := by
  cases hhead : readHead s with
  | none =>
    refine iff_of_true ⟨⟨none, 0, by rw [fromJson, hhead]⟩, ?_⟩ nofun
    rintro p ⟨rounds, h⟩
    rw [fromJson, hhead] at h
    cases h
  | some head =>
    obtain ⟨leaf, idx, sibStr⟩ := head
    have given : (∀ leaf' idx' sibStr', some (leaf, idx, sibStr) = some (leaf', idx', sibStr') →
        WellQuoted s sibStr') ↔ WellQuoted s sibStr := by
      constructor
      · exact fun h => h leaf idx sibStr rfl
      · rintro h _ _ _ same
        cases same
        exact h
    rw [given]
    rcases Nat.mod_two_eq_zero_or_one (sibStr.count '"') with heven | hodd
    · rw [WellQuoted, and_iff_right heven, ← siblings_iff hhead]
      constructor
      · rintro ⟨-, complete⟩ hpositions
        obtain ⟨positions, hpositions⟩ := Option.isSome_iff_exists.mp hpositions
        exact complete _ ((returns_iff hhead heven _).mpr (by rw [hpositions, Option.map_some]))
      · intro h
        refine ⟨⟨_, (returns_iff hhead heven _).mpr rfl⟩, ?_⟩
        intro p hp
        have answer := (returns_iff hhead heven _).mp hp
        obtain ⟨positions, hpositions, rfl⟩ := Option.map_eq_some_iff.mp answer.symm
        exact h (by rw [hpositions, Option.isSome_some])
    · refine iff_of_false ?_ (fun h => absurd h.1 (by omega))
      rintro ⟨⟨answer, h⟩, -⟩
      exact not_returns hhead hodd answer h

/-- A leaf of zeros, its index and some array. -/
def sampleText (array : List Char) : List Char :=
  ['{'] ++ "\"leaf\":\"".toList ++ List.replicate 64 '0' ++ "\",\"leaf_index\":0,".toList ++
    "\"siblings\":[".toList ++ array ++ "],\"sibling_positions\":[]".toList ++ ['}']

/-- With one quote in the array the reader goes round for ever; an element that is no hash
is dropped. -/
theorem not_jsonLaw_samples :
    (∀ answer, ¬ Returns (sampleText ['"']) answer) ∧ ¬ JsonLaw (sampleText ['"']) ∧
      Returns (sampleText "\"zz\"".toList) (some ⟨List.replicate 32 0, [], [], 0⟩) ∧
      elements (siblingsArray (sampleText "\"zz\"".toList)) = [['z', 'z']] ∧
      ¬ JsonLaw (sampleText "\"zz\"".toList) := by
  have unpaired : readHead (sampleText ['"']) = some (List.replicate 32 0, 0, ['"']) := by
    decide +kernel
  have dropped : readHead (sampleText "\"zz\"".toList) =
      some (List.replicate 32 0, 0, "\"zz\"".toList) := by decide +kernel
  have positions : readPositions (sampleText "\"zz\"".toList) = some [] := by
    have text : between "\"sibling_positions\":[".toList false ']' (sampleText "\"zz\"".toList) =
        .ok [] := by decide +kernel
    rw [readPositions, text]
    change (positionLoop []).toOption = some []
    rw [positionLoop]
    rfl
  have never := not_returns unpaired (by decide)
  have answer : Returns (sampleText "\"zz\"".toList) (some ⟨List.replicate 32 0, [], [], 0⟩) := by
    rw [returns_iff dropped (by decide), positions]
    decide
  have element : elements (siblingsArray (sampleText "\"zz\"".toList)) = [['z', 'z']] := by
    decide +kernel
  refine ⟨never, fun law => ?_, answer, element, fun law => ?_⟩
  · obtain ⟨found, h⟩ := law.terminates
    exact never found h
  · have complete := law.complete _ answer
    rw [element] at complete
    cases complete

/-! ## What was written is read back -/

/-- What stands between the quotes of a list of hashes. -/
def hashPieces : List (List Char) → List (List Char)
  | [] => [":[],".toList]
  | first :: rest => ":[".toList :: first :: (rest.flatMap fun hash => [[','], hash]) ++ ["],".toList]

theorem divided_hashPieces (hashes : List (List Char)) :
    divided '"' (hashPieces hashes) =
      '"' :: (":[".toList ++ (joined (hashes.map quoted) ++ "],".toList)) := by
  cases hashes with
  | nil => rfl
  | cons first rest =>
    have later (tail : List Char) : divided '"' (rest.flatMap fun hash => [[','], hash]) ++ '"' :: tail =
        '"' :: ((rest.map quoted).flatMap (',' :: ·) ++ tail) := by
      induction rest with
      | nil => rfl
      | cons hash rest ih =>
        rw [List.flatMap_cons, divided_append, List.append_assoc, ih]
        simp [divided, quoted]
    have last : divided '"' ["],".toList] = '"' :: "],".toList := rfl
    rw [hashPieces, divided_append, last, divided_cons, divided_cons, List.cons_append,
      List.append_assoc, List.cons_append, List.append_assoc, later]
    simp [joined, quoted]

/-- The pieces of the text in front of the key of the siblings. -/
def headPieces (p : MerkleProof) : List (List Char) :=
  ["leaf".toList, [':'], Util.bytesToHex p.leaf, [','], "leaf_index".toList,
    ':' :: (p.leafIndex.repr.toList ++ [','])]

def siblingText (p : MerkleProof) : List Char :=
  joined (p.siblings.map fun s => quoted (Util.bytesToHex s))

def positionText (p : MerkleProof) : List Char := joined (p.siblingPositions.map (·.repr.toList))

/-- A field is found behind pieces that are not its name. -/
theorem between_divided {name tail value rest : List Char} {before : List (List Char)} {past : Bool}
    {mark : Char} (hname : '"' ∉ name) (hbefore : ∀ piece ∈ before, '"' ∉ piece ∧ piece ≠ name)
    (hkey : past = true ∨ mark ∉ '"' :: (name ++ '"' :: tail)) (hvalue : mark ∉ value) :
    between ('"' :: (name ++ '"' :: tail)) past mark
      (['{'] ++ (divided '"' before ++ '"' :: (name ++ '"' :: (tail ++ (value ++ mark :: rest))))) =
        .ok value := by
  have opening : '"' ∉ ['{'] := by decide
  have found : find ('"' :: (name ++ '"' :: tail)) (['{'] ++ (divided '"' before ++
      '"' :: (name ++ '"' :: (tail ++ (value ++ mark :: rest))))) =
        some (['{'] ++ divided '"' before).length := by
    rw [find_divided opening hname hbefore, List.length_append]
  have layout : ['{'] ++ (divided '"' before ++
      '"' :: (name ++ '"' :: (tail ++ (value ++ mark :: rest)))) =
        (['{'] ++ divided '"' before) ++ ('"' :: (name ++ '"' :: tail) ++ (value ++ mark :: rest)) := by
    simp only [List.append_assoc, List.cons_append]
  exact between_eq layout found hkey hvalue

/-- The text behind the key of the siblings. -/
def siblingsOn (p : MerkleProof) : List Char :=
  '"' :: ("siblings".toList ++ '"' :: (":[".toList ++ (siblingText p ++ ']' :: ([','] ++
    '"' :: ("sibling_positions".toList ++ '"' :: (":[".toList ++ (positionText p ++
      ']' :: ['}'])))))))

theorem toJson_eq (p : MerkleProof) :
    p.toJson = ['{'] ++ (divided '"' (headPieces p) ++ siblingsOn p) := by
  have leaf : "\"leaf\":\"".toList = '"' :: ("leaf".toList ++ '"' :: [':', '"']) := rfl
  have behind : "\",".toList = ['"', ','] := rfl
  have index : "\"leaf_index\":".toList = '"' :: ("leaf_index".toList ++ '"' :: [':']) := rfl
  have siblings : "\"siblings\":[".toList = '"' :: ("siblings".toList ++ '"' :: ":[".toList) := rfl
  have positions : "\"sibling_positions\":[".toList =
      '"' :: ("sibling_positions".toList ++ '"' :: ":[".toList) := rfl
  have close : "],".toList = [']', ','] ∧ "]".toList = [']'] ∧ ",".toList = [','] := ⟨rfl, rfl, rfl⟩
  simp only [toJson, leaf, behind, index, siblings, positions, close, headPieces, siblingsOn,
    siblingText, positionText, divided, List.flatMap_cons, List.flatMap_nil, List.append_assoc,
    List.cons_append, List.nil_append, List.append_nil]

theorem toJson_leaf (p : MerkleProof) : ∃ rest, p.toJson = ['{'] ++ (divided '"' [] ++
    '"' :: ("leaf".toList ++ '"' :: ([':', '"'] ++ (Util.bytesToHex p.leaf ++ '"' :: rest)))) := by
  refine ⟨',' :: (divided '"' ["leaf_index".toList, ':' :: (p.leafIndex.repr.toList ++ [','])] ++
    siblingsOn p), ?_⟩
  rw [toJson_eq]
  simp only [headPieces, divided, List.flatMap_cons, List.flatMap_nil, List.append_assoc,
    List.cons_append, List.nil_append, List.append_nil]

theorem toJson_leafIndex (p : MerkleProof) : p.toJson = ['{'] ++
    (divided '"' ["leaf".toList, [':'], Util.bytesToHex p.leaf, [',']] ++ '"' :: ("leaf_index".toList ++
      '"' :: ([':'] ++ (p.leafIndex.repr.toList ++ ',' :: siblingsOn p)))) := by
  rw [toJson_eq]
  simp only [headPieces, divided, List.flatMap_cons, List.flatMap_nil, List.append_assoc,
    List.cons_append, List.nil_append, List.append_nil]

theorem toJson_positions (p : MerkleProof) : p.toJson = ['{'] ++
    (divided '"' (headPieces p ++ "siblings".toList :: hashPieces (p.siblings.map Util.bytesToHex)) ++
      '"' :: ("sibling_positions".toList ++ '"' :: (":[".toList ++ (positionText p ++
        ']' :: ['}'])))) := by
  have close : "],".toList = [']', ','] := rfl
  rw [toJson_eq, divided_append, divided_cons, divided_hashPieces, List.map_map]
  simp only [siblingsOn, siblingText, close, Function.comp_def, List.append_assoc,
    List.cons_append, List.nil_append]

/-! ### What the fields hold -/

theorem digits_repr (n : Nat) : ∀ c ∈ n.repr.toList, c.isDigit = true := by
  intro c hc
  rw [Nat.toList_repr] at hc
  exact Nat.isDigit_of_mem_toDigits (by decide) (by decide) hc

theorem repr_ne_nil (n : Nat) : n.repr.toList ≠ [] := by
  rw [Nat.toList_repr]
  exact Nat.toDigits_ne_nil

theorem not_mem_repr {c : Char} (hc : c.isDigit = false) (n : Nat) : c ∉ n.repr.toList := by
  intro hmem
  rw [digits_repr n c hmem] at hc
  cases hc

theorem not_mem_hex {c : Char} (hc : c ∉ digits) (bytes : List UInt8) :
    c ∉ Util.bytesToHex bytes :=
  fun hmem => hc ((Util.bytesToHex_spells bytes).mem_digits c hmem)

theorem hex_ne {name : List Char} {c : Char} (hmem : c ∈ name) (hc : c ∉ digits) (bytes : List UInt8) :
    Util.bytesToHex bytes ≠ name := by
  rintro rfl
  exact not_mem_hex hc bytes hmem

theorem readHash_hex {bytes : List UInt8} (h : bytes.length = hashSize) :
    readHash (Util.bytesToHex bytes) = some bytes := by
  have decoded := hexDecoders_of_spells "" (Util.bytesToHex_spells bytes) Crypto.fromHex
    (by simp [hexDecoders])
  rw [readHash, decoded, Option.filter_some, if_pos (by simp [h])]

theorem mem_joined {items : List (List Char)} {c : Char} (h : c ∈ joined items) :
    c = ',' ∨ ∃ item ∈ items, c ∈ item := by
  cases items with
  | nil => cases h
  | cons first rest =>
    simp only [joined, List.mem_append, List.mem_flatMap, List.mem_cons] at h
    rcases h with hfirst | ⟨item, hitem, rfl | hmem⟩
    · exact .inr ⟨first, List.mem_cons_self, hfirst⟩
    · exact .inl rfl
    · exact .inr ⟨item, List.mem_cons_of_mem _ hitem, hmem⟩

/-- The elements of a list of quoted texts are those texts. -/
theorem elements_joined {items : List (List Char)} (h : ∀ item ∈ items, '"' ∉ item) :
    elements (joined (items.map quoted)) = items ∧
      (joined (items.map quoted)).count '"' % 2 = 0 := by
  have later : elements ((items.map quoted).flatMap (',' :: ·)) = items ∧
      ((items.map quoted).flatMap (',' :: ·)).count '"' % 2 = 0 := by
    induction items with
    | nil => exact ⟨elements_of_not_mem nofun, rfl⟩
    | cons item items ih =>
      obtain ⟨here, rest⟩ := List.forall_mem_cons.mp h
      obtain ⟨found, even⟩ := ih rest
      have layout : ((item :: items).map quoted).flatMap (',' :: ·) =
          [','] ++ '"' :: (item ++ '"' :: (items.map quoted).flatMap (',' :: ·)) := by
        simp [quoted]
      rw [layout, elements_eq (by decide) here, found]
      refine ⟨rfl, ?_⟩
      simp only [List.count_append, List.count_cons_self, List.count_eq_zero.mpr here]
      have comma : [','].count '"' = 0 := rfl
      omega
  cases items with
  | nil => exact ⟨elements_of_not_mem nofun, rfl⟩
  | cons item items =>
    have skipped : skipComma (((item :: items).map quoted).flatMap (',' :: ·)) =
        joined ((item :: items).map quoted) := by
      simp [skipComma, joined]
    rw [← skipped, elements_skipComma, count_skipComma]
    exact later

theorem positionLoop_comma (text : List Char) : positionLoop (',' :: text) = positionLoop text := by
  rw [positionLoop, positionLoop]
  rfl

/-- The number in front, and then the others. -/
theorem positionLoop_repr {n : Nat} (hn : n < 2 ^ 64) {rest : List Char}
    (hrest : rest = [] ∨ ∃ more, rest = ',' :: more) :
    positionLoop (n.repr.toList ++ rest) =
      (positionLoop rest).map (UInt64.ofNat n :: ·) := by
  have digits := digits_repr n
  have number : Stoull.stoull 10 n.repr.toList = .ok (UInt64.ofNat n) := by
    rw [Stoull.stoull_ten_repr, if_neg (by omega)]
  have kept : ∀ c ∈ n.repr.toList, (c != ',') = true := by
    intro c hc
    rw [bne_iff_ne]
    rintro rfl
    exact not_mem_repr (by decide) n hc
  obtain ⟨c, cs, hdigits⟩ := List.exists_cons_of_ne_nil (repr_ne_nil n)
  have first : (c == ',' || c == ' ') = false := by
    have digit := digits c (hdigits ▸ List.mem_cons_self)
    rw [Bool.or_eq_false_iff, beq_eq_false_iff_ne, beq_eq_false_iff_ne]
    constructor <;> rintro rfl <;> cases digit
  have start : (n.repr.toList ++ rest).dropWhile (fun c => c == ',' || c == ' ') =
      n.repr.toList ++ rest := by
    rw [hdigits, List.cons_append, List.dropWhile_cons_of_neg (by simp [first])]
  have taken : (n.repr.toList ++ rest).takeWhile (· != ',') = n.repr.toList := by
    rw [List.takeWhile_append_of_pos kept]
    rcases hrest with rfl | ⟨more, rfl⟩
    · rw [List.takeWhile_nil, List.append_nil]
    · rw [List.takeWhile_cons_of_neg (by decide), List.append_nil]
  have left : positionLoop (((n.repr.toList ++ rest).dropWhile (· != ',')).drop 1) =
      positionLoop rest := by
    rw [List.dropWhile_append_of_pos kept]
    rcases hrest with rfl | ⟨more, rfl⟩
    · rfl
    · rw [List.dropWhile_cons_of_neg (by decide), positionLoop_comma]
      rfl
  rw [positionLoop]
  split
  · rename_i hnil
    rw [start, hdigits] at hnil
    cases hnil
  · rename_i c' rest' hcons
    rw [start] at hcons
    rw [← hcons, taken, left, number]
    cases positionLoop rest <;> rfl

theorem positionLoop_joined {positions : List Nat} (h : ∀ n ∈ positions, n < 2 ^ 64) :
    positionLoop (joined (positions.map (·.repr.toList))) = .ok (positions.map UInt64.ofNat) := by
  have later : positionLoop ((positions.map (·.repr.toList)).flatMap (',' :: ·)) =
      .ok (positions.map UInt64.ofNat) := by
    induction positions with
    | nil =>
      rw [positionLoop]
      rfl
    | cons n positions ih =>
      obtain ⟨here, rest⟩ := List.forall_mem_cons.mp h
      rw [List.map_cons, List.flatMap_cons, List.cons_append, positionLoop_comma,
        positionLoop_repr here, ih rest]
      · rfl
      · cases positions with
        | nil => exact .inl rfl
        | cons m positions => exact .inr ⟨_, rfl⟩
  cases positions with
  | nil => exact later
  | cons n positions =>
    rw [List.map_cons, List.flatMap_cons, List.cons_append, positionLoop_comma] at later
    exact later

/-- A name that no written value and nothing between the values is. -/
structure IsKey (name : List Char) : Prop where
  unquoted : '"' ∉ name
  plain : ':' ∉ name ∧ ',' ∉ name
  wordy : ∃ c ∈ name, c ∉ digits

theorem IsKey.ne_hex {name : List Char} (h : IsKey name) (bytes : List UInt8) :
    Util.bytesToHex bytes ≠ name := by
  obtain ⟨c, hmem, hc⟩ := h.wordy
  exact hex_ne hmem hc bytes

theorem IsKey.ne_of_mem {name piece : List Char} (h : IsKey name) (hpiece : ':' ∈ piece ∨ ',' ∈ piece) :
    piece ≠ name := by
  rintro rfl
  exact hpiece.elim h.plain.1 h.plain.2

theorem isKey_siblings : IsKey "siblings".toList :=
  ⟨by decide, by decide, 's', by decide, by decide⟩

theorem isKey_positions : IsKey "sibling_positions".toList :=
  ⟨by decide, by decide, 's', by decide, by decide⟩

theorem not_mem_headPieces (p : MerkleProof) {name : List Char} (h : IsKey name)
    (hleaf : "leaf".toList ≠ name) (hindex : "leaf_index".toList ≠ name) :
    ∀ piece ∈ headPieces p, '"' ∉ piece ∧ piece ≠ name := by
  have index : '"' ∉ ':' :: (p.leafIndex.repr.toList ++ [',']) := by
    simpa using not_mem_repr (by decide) p.leafIndex
  simp only [headPieces, List.forall_mem_cons, List.not_mem_nil, false_implies, implies_true,
    and_true]
  exact ⟨⟨by decide, hleaf⟩, ⟨by decide, h.ne_of_mem (.inl (by decide))⟩,
    ⟨not_mem_hex (by decide) _, h.ne_hex _⟩, ⟨by decide, h.ne_of_mem (.inr (by decide))⟩,
    ⟨by decide, hindex⟩, index, h.ne_of_mem (.inl List.mem_cons_self)⟩

theorem not_mem_hashPieces (siblings : List (List UInt8)) {name : List Char} (h : IsKey name) :
    ∀ piece ∈ hashPieces (siblings.map Util.bytesToHex), '"' ∉ piece ∧ piece ≠ name := by
  have hash (bytes : List UInt8) : '"' ∉ Util.bytesToHex bytes ∧ Util.bytesToHex bytes ≠ name :=
    ⟨not_mem_hex (by decide) bytes, h.ne_hex bytes⟩
  cases siblings with
  | nil =>
    intro piece hpiece
    obtain rfl := List.mem_singleton.mp hpiece
    exact ⟨by decide, h.ne_of_mem (.inl (by decide))⟩
  | cons first siblings =>
    intro piece hpiece
    simp only [List.map_cons, hashPieces, List.mem_append, List.mem_cons, List.mem_flatMap,
      List.mem_map, List.not_mem_nil, or_false] at hpiece
    rcases hpiece with (rfl | rfl | ⟨text, ⟨bytes, -, rfl⟩, rfl | rfl⟩) | rfl
    · exact ⟨by decide, h.ne_of_mem (.inl (by decide))⟩
    · exact hash first
    · exact ⟨by decide, h.ne_of_mem (.inr (by decide))⟩
    · exact hash bytes
    · exact ⟨by decide, h.ne_of_mem (.inr (by decide))⟩

theorem not_mem_siblingText (p : MerkleProof) : ']' ∉ siblingText p := by
  intro hmem
  rcases mem_joined hmem with h | ⟨item, hitem, h⟩
  · cases h
  · obtain ⟨bytes, -, rfl⟩ := List.mem_map.mp hitem
    simp [quoted, not_mem_hex (c := ']') (by decide) bytes] at h

theorem not_mem_positionText (p : MerkleProof) : ']' ∉ positionText p := by
  intro hmem
  rcases mem_joined hmem with h | ⟨item, hitem, h⟩
  · cases h
  · obtain ⟨n, -, rfl⟩ := List.mem_map.mp hitem
    exact not_mem_repr (by decide) n h

/-- The head of a written text. -/
theorem readHead_toJson {p : MerkleProof} (hleaf : p.leaf.length = hashSize)
    (hindex : p.leafIndex < 2 ^ 64) :
    readHead p.toJson = some (p.leaf, UInt64.ofNat p.leafIndex, siblingText p) := by
  have leaf : between "\"leaf\":\"".toList true '"' p.toJson = .ok (Util.bytesToHex p.leaf) := by
    obtain ⟨rest, hrest⟩ := toJson_leaf p
    rw [hrest]
    exact between_divided (by decide) nofun (.inl rfl) (not_mem_hex (by decide) _)
  have index : between "\"leaf_index\":".toList false ',' p.toJson = .ok p.leafIndex.repr.toList := by
    rw [toJson_leafIndex]
    refine between_divided (by decide) ?_ (.inr (by decide)) (not_mem_repr rfl _)
    simp only [List.forall_mem_cons, List.not_mem_nil, false_implies, implies_true, and_true]
    exact ⟨by decide, by decide, ⟨not_mem_hex (by decide) _, hex_ne (c := 'l') (by decide) (by decide) _⟩,
      by decide⟩
  have siblings : between "\"siblings\":[".toList false ']' p.toJson = .ok (siblingText p) := by
    rw [toJson_eq]
    exact between_divided (by decide)
      (not_mem_headPieces p isKey_siblings (by decide) (by decide)) (.inr (by decide))
      (not_mem_siblingText p)
  have number : Stoull.stoull 10 p.leafIndex.repr.toList = .ok (UInt64.ofNat p.leafIndex) := by
    rw [Stoull.stoull_ten_repr, if_neg (by omega)]
  simp only [readHead, leaf, index, siblings, number, Except.toOption, Option.bind_eq_bind,
    Option.bind_some, readHash_hex hleaf]
  rfl

theorem readPositions_toJson {p : MerkleProof} (h : ∀ n ∈ p.siblingPositions, n < 2 ^ 64) :
    readPositions p.toJson = some (p.siblingPositions.map UInt64.ofNat) := by
  have positions : between "\"sibling_positions\":[".toList false ']' p.toJson =
      .ok (positionText p) := by
    rw [toJson_positions]
    refine between_divided (by decide) ?_ (.inr (by decide)) (not_mem_positionText p)
    rw [List.forall_mem_append, List.forall_mem_cons]
    exact ⟨not_mem_headPieces p isKey_positions (by decide) (by decide), by decide,
      not_mem_hashPieces p.siblings isKey_positions⟩
  simp only [readPositions, positions, positionText, positionLoop_joined h, Except.toOption,
    Option.bind_eq_bind, Option.bind_some]

/-- **Every proof of hashes is read back** from its text, however many siblings and
positions it has. -/
theorem proof_comes_back {p : MerkleProof} (hleaf : p.leaf.length = hashSize)
    (hsiblings : ∀ sibling ∈ p.siblings, sibling.length = hashSize)
    (hindex : p.leafIndex < 2 ^ 64) (hpositions : ∀ n ∈ p.siblingPositions, n < 2 ^ 64) :
    Returns p.toJson (some p) := by
  have unquoted : ∀ item ∈ p.siblings.map Util.bytesToHex, '"' ∉ item := by
    intro item hitem
    obtain ⟨bytes, -, rfl⟩ := List.mem_map.mp hitem
    exact not_mem_hex (by decide) bytes
  have texts : siblingText p = joined ((p.siblings.map Util.bytesToHex).map quoted) := by
    rw [siblingText, List.map_map]
    rfl
  obtain ⟨found, even⟩ := elements_joined unquoted
  rw [← texts] at found even
  have decoded : (p.siblings.map Util.bytesToHex).filterMap readHash = p.siblings := by
    rw [List.filterMap_map]
    conv_rhs => rw [← List.filterMap_some (l := p.siblings)]
    apply List.filterMap_congr
    intro sibling hsibling
    exact readHash_hex (hsiblings sibling hsibling)
  have positions : (p.siblingPositions.map UInt64.ofNat).map (·.toNat) = p.siblingPositions := by
    rw [List.map_map]
    conv_rhs => rw [← List.map_id p.siblingPositions]
    apply List.map_congr_left
    intro n hn
    exact UInt64.toNat_ofNat_of_lt' (hpositions n hn)
  rw [returns_iff (readHead_toJson hleaf hindex) even, readPositions_toJson hpositions, found,
    decoded, Option.map_some, positions, UInt64.toNat_ofNat_of_lt' hindex]

/-- Two siblings and three positions. -/
theorem proof_comes_back_sample :
    Returns (toJson ⟨zeros, [ones, zeros], [0, 7, 2 ^ 64 - 1], 5⟩)
      (some ⟨zeros, [ones, zeros], [0, 7, 2 ^ 64 - 1], 5⟩) :=
  proof_comes_back rfl (by decide) (by decide) (by decide)

end MerkleProof
end MidnightSdk.Crypto
