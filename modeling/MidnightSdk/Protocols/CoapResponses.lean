import MidnightSdk.Protocols.CoapReadBack

/-!
# Responses of the CoAP client

The client skips the options of a response without keeping them. Where an option is cut
off it leaves the loop, and what stands there is taken for the payload.
-/

namespace MidnightSdk.Protocols.Coap

open DeltaOptions

namespace CoapClient

/-! ## `decode_response` -/

/-- What is behind the extended delta; an error is where the loop is left. -/
def skipDelta (deltaNibble : UInt8) (data : List UInt8) : Except (List UInt8) (List UInt8) :=
  if deltaNibble = 13 then if data.length < 1 then .error data else .ok (data.drop 1)
  else if deltaNibble = 14 then if data.length < 2 then .error data else .ok (data.drop 2)
  else .ok data

def skipLength (lengthNibble : UInt8) (data : List UInt8) :
    Except (List UInt8) (Nat × List UInt8) :=
  if lengthNibble = 13 then
    if data.length < 1 then .error data else .ok (13 + (data.getD 0 0).toNat, data.drop 1)
  else if lengthNibble = 14 then
    if data.length < 2 then .error data
    else .ok (269 + ((data.getD 0 0).toNat * 256 + (data.getD 1 0).toNat), data.drop 2)
  else .ok (lengthNibble.toNat, data)

/-- One round of the loop, behind the first byte of the option. -/
def skipOption (firstByte : UInt8) (data : List UInt8) : Except (List UInt8) (List UInt8) := do
  let data ← skipDelta (firstByte >>> 4 &&& 0x0F) data
  let (optLen, data) ← skipLength (firstByte &&& 0x0F) data
  if optLen > data.length then .error data else .ok (data.drop optLen)

theorem skipDelta_length {nibble : UInt8} {data rest : List UInt8}
    (h : skipDelta nibble data = .ok rest) : rest.length ≤ data.length := by
  unfold skipDelta at h
  split at h
  · split at h <;> cases h
    simp
  · split at h
    · split at h <;> cases h
      simp
    · cases h
      exact Nat.le_refl _

theorem skipLength_length {nibble : UInt8} {data rest : List UInt8} {n : Nat}
    (h : skipLength nibble data = .ok (n, rest)) : rest.length ≤ data.length := by
  unfold skipLength at h
  split at h
  · split at h <;> cases h
    simp
  · split at h
    · split at h <;> cases h
      simp
    · cases h
      exact Nat.le_refl _

theorem skipOption_length {firstByte : UInt8} {data rest : List UInt8}
    (h : skipOption firstByte data = .ok rest) : rest.length ≤ data.length := by
  cases delta : skipDelta (firstByte >>> 4 &&& 0x0F) data with
  | error left =>
    rw [skipOption, delta] at h
    cases h
  | ok behind =>
    cases length : skipLength (firstByte &&& 0x0F) behind with
    | error left =>
      rw [skipOption, delta] at h
      change (skipLength (firstByte &&& 0x0F) behind >>= _) = _ at h
      rw [length] at h
      cases h
    | ok pair =>
      rw [skipOption, delta] at h
      change (skipLength (firstByte &&& 0x0F) behind >>= _) = _ at h
      rw [length] at h
      change (if pair.1 > pair.2.length then _ else _) = _ at h
      have := skipDelta_length delta
      have := skipLength_length length
      split at h
      · cases h
      · cases h
        rw [List.length_drop]
        omega

/-- What is left where the loop over the options ends. -/
def skipLoop (data : List UInt8) : List UInt8 :=
  if data.length = 0 ∨ data.getD 0 0 = PAYLOAD_MARKER then data
  else
    match _h : skipOption (data.getD 0 0) (data.drop 1) with
    | .error left => left
    | .ok rest => skipLoop rest
termination_by data.length
decreasing_by
  have := skipOption_length _h
  rw [List.length_drop] at this
  omega

structure Decoded where
  ok : Bool
  outPayload : List UInt8
  lastError : String
  deriving DecidableEq, Repr

def decodeResponse (data : List UInt8) (lastError : String) : Decoded :=
  if data.length < COAP_HEADER_SIZE then ⟨false, [], "Response too short"⟩
  else
    let header0 := data.getD 0 0
    let version := header0 >>> 6 &&& 0x03
    let tokenLen := (header0 &&& 0x0F).toNat
    let code := data.getD 1 0
    if version ≠ COAP_VERSION then
      ⟨false, [], "Unsupported CoAP version: " ++ toString version.toNat⟩
    else if code >>> 5 ≠ 2 then
      if code = 0 then ⟨true, [], lastError⟩
      else ⟨false, [], "CoAP error response: " ++ toString code.toNat⟩
    else
      let pos :=
        if tokenLen > 0 ∧ COAP_HEADER_SIZE + tokenLen ≤ data.length then
          COAP_HEADER_SIZE + tokenLen
        else COAP_HEADER_SIZE
      ⟨true, unmarked (skipLoop (data.drop pos)), lastError⟩

/-! ## What is asked of it -/

/-- A complete message of version 1; one without a code ends behind its header. -/
def WellFormed (data : List UInt8) (c : Contents) : Prop :=
  readContents data = some c ∧ (c.code = 0 → data.length = COAP_HEADER_SIZE)

structure ResponseLaw (data : List UInt8) (lastError : String) : Prop where
  /-- A payload is one of a complete response. -/
  sound : (decodeResponse data lastError).ok = true →
    (decodeResponse data lastError).outPayload ≠ [] →
      ∃ c, readContents data = some c ∧ c.code.toNat / 32 = 2 ∧
        (decodeResponse data lastError).outPayload = c.payload
  /-- The other parser finds the same one. -/
  agrees : ∀ c, WellFormed data c → (decodeResponse data lastError).ok = true →
    (decodeResponse data lastError).outPayload = (parseMessage data {}).2.payload

/-! ## One round -/

/-- An option is cut off, and `left` is what the loop leaves. -/
inductive CutOff (first : UInt8) : List UInt8 → List UInt8 → Prop
  | delta {left : List UInt8} (short : first.toNat / 16 = 13 ∧ left.length < 1 ∨
      first.toNat / 16 = 14 ∧ left.length < 2) : CutOff first left left
  | length {ds left : List UInt8} {delta : Nat} (spelledDelta : Spelled (first.toNat / 16) ds delta)
      (short : first.toNat % 16 = 13 ∧ left.length < 1 ∨ first.toNat % 16 = 14 ∧ left.length < 2) :
      CutOff first (ds ++ left) left
  | value {ds ls left : List UInt8} {delta length : Nat}
      (spelledDelta : Spelled (first.toNat / 16) ds delta)
      (spelledLength : Spelled (first.toNat % 16) ls length) (short : left.length < length) :
      CutOff first (ds ++ (ls ++ left)) left

section
variable {nib : UInt8} {n : Nat}

theorem skipDelta_of_spelled {ds : List UInt8} (h : Spelled nib.toNat ds n) (rest : List UInt8) :
    skipDelta nib (ds ++ rest) = .ok rest := by
  generalize hnib : nib.toNat = k at h
  unfold skipDelta
  cases h with
  | plain plain =>
    obtain ⟨not13, not14⟩ := not_extended hnib plain
    rw [if_neg not13, if_neg not14]
    rfl
  | one b =>
    obtain rfl : nib = 13 := UInt8.toNat_inj.mp hnib
    simp
  | two b c =>
    obtain rfl : nib = 14 := UInt8.toNat_inj.mp hnib
    simp

theorem skipLength_of_spelled {ls : List UInt8} (h : Spelled nib.toNat ls n) (rest : List UInt8) :
    skipLength nib (ls ++ rest) = .ok (n, rest) := by
  generalize hnib : nib.toNat = k at h
  unfold skipLength
  cases h with
  | plain plain =>
    obtain ⟨not13, not14⟩ := not_extended hnib plain
    rw [if_neg not13, if_neg not14, hnib]
    rfl
  | one b =>
    obtain rfl : nib = 13 := UInt8.toNat_inj.mp hnib
    simp
  | two b c =>
    obtain rfl : nib = 14 := UInt8.toNat_inj.mp hnib
    simp [Nat.add_assoc]

theorem skipDelta_short {left : List UInt8}
    (short : nib.toNat = 13 ∧ left.length < 1 ∨ nib.toNat = 14 ∧ left.length < 2) :
    skipDelta nib left = .error left := by
  rcases short with ⟨h13, short⟩ | ⟨h14, short⟩
  · obtain rfl : nib = 13 := UInt8.toNat_inj.mp h13
    rw [skipDelta, if_pos rfl, if_pos short]
  · obtain rfl : nib = 14 := UInt8.toNat_inj.mp h14
    rw [skipDelta, if_neg (by decide), if_pos rfl, if_pos short]

theorem skipLength_short {left : List UInt8}
    (short : nib.toNat = 13 ∧ left.length < 1 ∨ nib.toNat = 14 ∧ left.length < 2) :
    skipLength nib left = .error left := by
  rcases short with ⟨h13, short⟩ | ⟨h14, short⟩
  · obtain rfl : nib = 13 := UInt8.toNat_inj.mp h13
    rw [skipLength, if_pos rfl, if_pos short]
  · obtain rfl : nib = 14 := UInt8.toNat_inj.mp h14
    rw [skipLength, if_neg (by decide), if_pos rfl, if_pos short]

/-- Bytes spell a number, or are too short for one. -/
theorem short_or_spelled {nibble : Nat} (small : nibble < 16) (bytes : List UInt8) :
    (nibble = 13 ∧ bytes.length < 1 ∨ nibble = 14 ∧ bytes.length < 2) ∨
      ∃ ds rest number, bytes = ds ++ rest ∧ Spelled nibble ds number := by
  by_cases short : nibble = 13 ∧ bytes.length < 1 ∨ nibble = 14 ∧ bytes.length < 2
  · exact .inl short
  · exact .inr (exists_spelled small (by omega) (by omega))

end

theorem skipOption_of_spelled {first : UInt8} {ds ls rest : List UInt8} {delta length : Nat}
    (spelledDelta : Spelled (first.toNat / 16) ds delta)
    (spelledLength : Spelled (first.toNat % 16) ls length) :
    skipOption first (ds ++ (ls ++ rest)) =
      if length > rest.length then .error rest else .ok (rest.drop length) := by
  rw [← toNat_high] at spelledDelta
  rw [← toNat_low] at spelledLength
  rw [skipOption, skipDelta_of_spelled spelledDelta]
  change (skipLength (first &&& 0x0F) (ls ++ rest) >>= _) = _
  rw [skipLength_of_spelled spelledLength]
  rfl

theorem skipOption_of_spells {first : UInt8} {delta : Nat} {value form : List UInt8}
    (h : Spells delta value (first :: form)) (rest : List UInt8) :
    skipOption first (form ++ rest) = .ok rest := by
  cases h with
  | mk spelledDelta spelledLength _ =>
    rw [List.append_assoc, List.append_assoc, skipOption_of_spelled spelledDelta spelledLength,
      if_neg, List.drop_left]
    rw [List.length_append]
    omega

theorem skipOption_of_cutOff {first : UInt8} {bytes left : List UInt8}
    (h : CutOff first bytes left) : skipOption first bytes = .error left := by
  cases h with
  | delta short =>
    rw [← toNat_high] at short
    rw [skipOption, skipDelta_short short]
    rfl
  | length spelledDelta short =>
    rw [← toNat_high] at spelledDelta
    rw [← toNat_low] at short
    rw [skipOption, skipDelta_of_spelled spelledDelta]
    change (skipLength (first &&& 0x0F) left >>= _) = _
    rw [skipLength_short short]
    rfl
  | value spelledDelta spelledLength short =>
    rw [skipOption_of_spelled spelledDelta spelledLength, if_pos short]

/-- An option is cut off or stands in front as a whole. -/
theorem cutOff_or_spells {first : UInt8} (unmarked : first ≠ PAYLOAD_MARKER) (bytes : List UInt8) :
    (∃ left, CutOff first bytes left) ∨
      ∃ delta value form rest, Spells delta value (first :: form) ∧ bytes = form ++ rest := by
  have high : first.toNat / 16 < 16 := by
    have := first.toNat_lt
    omega
  have low : first.toNat % 16 < 16 := Nat.mod_lt _ (by decide)
  rcases short_or_spelled high bytes with short | ⟨ds, behind, delta, rfl, spelledDelta⟩
  · exact .inl ⟨bytes, .delta short⟩
  · rcases short_or_spelled low behind with short | ⟨ls, left, length, rfl, spelledLength⟩
    · exact .inl ⟨behind, .length spelledDelta short⟩
    · by_cases fits : length ≤ left.length
      · have size : (left.take length).length = length := List.length_take_of_le fits
        refine .inr ⟨delta, left.take length, _, left.drop length,
          .mk spelledDelta (by rwa [size]) unmarked, ?_⟩
        simp
      · exact .inl ⟨left, .value spelledDelta spelledLength (by omega)⟩

/-! ## The loop -/

theorem skipLoop_marked (payload : List UInt8) :
    skipLoop (PAYLOAD_MARKER :: payload) = PAYLOAD_MARKER :: payload := by
  rw [skipLoop, if_pos (.inr rfl)]

theorem skipLoop_of_cutOff {first : UInt8} {bytes left : List UInt8}
    (unmarked : first ≠ PAYLOAD_MARKER) (h : CutOff first bytes left) :
    skipLoop (first :: bytes) = left := by
  have goesOn : ¬ ((first :: bytes).length = 0 ∨ (first :: bytes).getD 0 0 = PAYLOAD_MARKER) := by
    simpa using unmarked
  have round : skipOption ((first :: bytes).getD 0 0) ((first :: bytes).drop 1) = .error left :=
    skipOption_of_cutOff h
  rw [skipLoop, if_neg goesOn]
  split
  · rename_i other found
    rw [round] at found
    exact (Except.error.inj found).symm
  · rename_i other found
    rw [round] at found
    cases found

theorem skipLoop_of_spells {delta : Nat} {value form : List UInt8} (h : Spells delta value form)
    (rest : List UInt8) : skipLoop (form ++ rest) = skipLoop rest := by
  obtain ⟨first, form, rfl⟩ := List.exists_cons_of_ne_nil h.ne_nil
  have goesOn : ¬ ((first :: form ++ rest).length = 0 ∨
      (first :: form ++ rest).getD 0 0 = PAYLOAD_MARKER) := by
    simpa using h.unmarked rest
  have round : skipOption ((first :: form ++ rest).getD 0 0) ((first :: form ++ rest).drop 1) =
      .ok rest := skipOption_of_spells h rest
  rw [skipLoop, if_neg goesOn]
  split
  · rename_i other found
    rw [round] at found
    cases found
  · rename_i other found
    rw [round] at found
    rw [← Except.ok.inj found]

/-- Nothing but options, the last of which may be cut off where the bytes end, and a
marker perhaps behind them. -/
inductive Ends : List UInt8 → Prop
  | nothing : Ends []
  | marker : Ends [PAYLOAD_MARKER]
  | cut {first : UInt8} {bytes left : List UInt8} (unmarked : first ≠ PAYLOAD_MARKER)
      (off : CutOff first bytes left) (none : left = [] ∨ left = [PAYLOAD_MARKER]) :
      Ends (first :: bytes)
  | option {delta : Nat} {value form rest : List UInt8} (spells : Spells delta value form)
      (behind : Ends rest) : Ends (form ++ rest)

theorem unmarked_eq_nil {bytes : List UInt8} :
    unmarked bytes = [] ↔ bytes = [] ∨ bytes = [PAYLOAD_MARKER] := by
  cases bytes with
  | nil => simp [unmarked]
  | cons b bytes =>
    by_cases marker : b = PAYLOAD_MARKER
    · simp [unmarked, marker]
    · simp [unmarked, marker]

theorem cases_of_body (body : List UInt8) :
    body = [] ∨ (∃ payload, body = PAYLOAD_MARKER :: payload) ∨
      (∃ first bytes left, first ≠ PAYLOAD_MARKER ∧ CutOff first bytes left ∧
        body = first :: bytes) ∨
      ∃ delta value form rest, Spells delta value form ∧ body = form ++ rest := by
  cases body with
  | nil => exact .inl rfl
  | cons first bytes =>
    refine .inr ?_
    by_cases marker : first = PAYLOAD_MARKER
    · subst marker
      exact .inl ⟨bytes, rfl⟩
    · refine .inr ?_
      rcases cutOff_or_spells marker bytes with ⟨left, off⟩ |
        ⟨delta, value, form, rest, spells, rfl⟩
      · exact .inl ⟨first, bytes, left, marker, off, rfl⟩
      · exact .inr ⟨delta, value, first :: form, rest, spells, rfl⟩

/-- The response has no payload where its body ends with its options. -/
theorem unmarked_skipLoop_eq_nil {body : List UInt8} :
    unmarked (skipLoop body) = [] ↔ Ends body := by
  constructor
  · intro h
    induction n : body.length using Nat.strongRecOn generalizing body with
    | ind n ih =>
      rcases cases_of_body body with rfl | ⟨payload, rfl⟩ |
        ⟨first, bytes, left, unmarkedFirst, off, rfl⟩ | ⟨delta, value, form, rest, spells, rfl⟩
      · exact .nothing
      · rw [skipLoop_marked, unmarked_eq_nil] at h
        obtain rfl : payload = [] := by simpa using h
        exact .marker
      · rw [skipLoop_of_cutOff unmarkedFirst off, unmarked_eq_nil] at h
        exact .cut unmarkedFirst off h
      · have some_byte := List.length_pos_of_ne_nil spells.ne_nil
        rw [List.length_append] at n
        rw [skipLoop_of_spells spells] at h
        exact .option spells (ih rest.length (by omega) h rfl)
  · intro h
    induction h with
    | nothing =>
      rw [skipLoop, if_pos (.inl rfl)]
      rfl
    | marker =>
      rw [skipLoop_marked, unmarked_eq_nil]
      exact .inr rfl
    | cut unmarkedFirst off none =>
      rw [skipLoop_of_cutOff unmarkedFirst off, unmarked_eq_nil]
      exact none
    | option spells _ ih => rw [skipLoop_of_spells spells, ih]

/-! ## Complete bodies -/

theorem spelled_of_readExtended {nib n : Nat} {bytes rest : List UInt8}
    (h : readExtended nib bytes = some (n, rest)) :
    ∃ ds, bytes = ds ++ rest ∧ Spelled nib ds n := by
  unfold readExtended at h
  split at h
  · cases h
    exact ⟨_, rfl, .one _⟩
  · rename_i b c rest
    cases h
    refine ⟨[b, c], rfl, ?_⟩
    rw [Nat.mul_comm]
    exact .two b c
  · split at h
    · rename_i plain
      cases h
      exact ⟨[], rfl, .plain (.inl plain)⟩
    · cases h

theorem spells_of_readOne {b : UInt8} {bytes value rest : List UInt8} {step : Nat}
    (unmarked : b ≠ PAYLOAD_MARKER) (h : readOne (b :: bytes) = some (step, value, rest)) :
    ∃ form, Spells step value form ∧ b :: bytes = form ++ rest := by
  simp only [readOne, Option.bind_eq_bind, Option.bind_eq_some_iff] at h
  obtain ⟨⟨first, behind⟩, hfirst, ⟨length, left⟩, hlength, h⟩ := h
  obtain ⟨ds, rfl, spelledDelta⟩ := spelled_of_readExtended hfirst
  obtain ⟨ls, rfl, spelledLength⟩ := spelled_of_readExtended hlength
  split at h
  · rename_i fits
    have size : (left.take length).length = length := List.length_take_of_le fits
    cases h
    refine ⟨_, .mk spelledDelta (by rwa [size]) unmarked, ?_⟩
    simp
  · cases h

/-- A complete body is options and a marked payload, and the loop comes to the marker. -/
theorem skipLoop_of_read {prev : Nat} {body payload : List UInt8} {fields : List Numbered}
    (h : DeltaOptions.read prev body = some (fields, payload)) :
    skipLoop body = marked payload ∧ ∃ front, body = front ++ marked payload := by
  induction n : body.length using Nat.strongRecOn generalizing prev body fields with
  | ind n ih =>
    cases body with
    | nil =>
      cases h
      rw [skipLoop, if_pos (.inl rfl)]
      exact ⟨rfl, [], rfl⟩
    | cons b bytes =>
      by_cases marker : b = PAYLOAD_MARKER
      · subst marker
        change DeltaOptions.read prev (0xFF :: bytes) = _ at h
        rw [read_marker] at h
        split at h
        · cases h
        · rename_i some_bytes
          cases h
          have whole : marked payload = PAYLOAD_MARKER :: payload := if_neg some_bytes
          rw [skipLoop_marked, whole]
          exact ⟨rfl, [], rfl⟩
      · cases one : readOne (b :: bytes) with
        | none =>
          rw [read_of_readOne_none marker one] at h
          cases h
        | some triple =>
          obtain ⟨step, value, rest⟩ := triple
          rw [read_of_readOne marker one, Option.map_eq_some_iff] at h
          obtain ⟨⟨behind, payload⟩, hread, h⟩ := h
          cases h
          obtain ⟨form, spells, whole⟩ := spells_of_readOne marker one
          have shorter := readOne_length one
          obtain ⟨loop, front, hrest⟩ := ih rest.length (by omega) hread rfl
          rw [whole, skipLoop_of_spells spells]
          refine ⟨loop, form ++ front, ?_⟩
          rw [List.append_assoc, ← hrest]

/-! ## Whole responses -/

/-- A header of version 1 with a code of class 2. -/
structure Succeeds (data : List UInt8) : Prop where
  long : COAP_HEADER_SIZE ≤ data.length
  version : (data.getD 0 0).toNat / 64 = 1
  responseClass : (data.getD 1 0).toNat / 32 = 2

/-- A token that does not fit is not skipped. -/
def behindToken (data : List UInt8) : List UInt8 :=
  let tokenLen := (data.getD 0 0).toNat % 16
  data.drop (if COAP_HEADER_SIZE + tokenLen ≤ data.length then COAP_HEADER_SIZE + tokenLen
    else COAP_HEADER_SIZE)

theorem toNat_version (b : UInt8) : (b >>> 6 &&& 0x03).toNat = b.toNat / 64 := by
  have small := b.toNat_lt
  rw [UInt8.toNat_and, UInt8.toNat_shiftRight]
  change b.toNat >>> 6 &&& 2 ^ 2 - 1 = _
  rw [Nat.and_two_pow_sub_one_eq_mod, Nat.shiftRight_eq_div_pow]
  omega

theorem toNat_class (b : UInt8) : (b >>> 5).toNat = b.toNat / 32 := by
  rw [UInt8.toNat_shiftRight]
  change b.toNat >>> 5 = _
  rw [Nat.shiftRight_eq_div_pow]

section
variable {data : List UInt8} {lastError : String}

theorem tokenEnd_eq (data : List UInt8) :
    data.drop (if (data.getD 0 0).toNat % 16 > 0 ∧
        COAP_HEADER_SIZE + (data.getD 0 0).toNat % 16 ≤ data.length then
      COAP_HEADER_SIZE + (data.getD 0 0).toNat % 16 else COAP_HEADER_SIZE) = behindToken data := by
  unfold behindToken
  generalize (data.getD 0 0).toNat % 16 = tokenLen
  by_cases none : tokenLen = 0
  · subst tokenLen
    simp
  · have some_token : tokenLen > 0 := by omega
    simp [some_token]

theorem decodeResponse_of_succeeds (h : Succeeds data) :
    decodeResponse data lastError = ⟨true, unmarked (skipLoop (behindToken data)), lastError⟩ := by
  have long : ¬ data.length < COAP_HEADER_SIZE := by
    have := h.long
    omega
  have version : data.getD 0 0 >>> 6 &&& 0x03 = COAP_VERSION :=
    UInt8.toNat_inj.mp (by rw [toNat_version, h.version]; rfl)
  have responseClass : data.getD 1 0 >>> 5 = 2 :=
    UInt8.toNat_inj.mp (by rw [toNat_class, h.responseClass]; rfl)
  rw [decodeResponse, if_neg long]
  simp only [version, responseClass, toNat_low, ne_eq, not_true_eq_false, if_false, tokenEnd_eq]

/-- Nothing else comes out than an error, or the answer without a code. -/
theorem decodeResponse_of_not_succeeds (h : ¬ Succeeds data) :
    (decodeResponse data lastError).outPayload = [] ∧
      ((decodeResponse data lastError).ok = true → data.getD 1 0 = 0) := by
  unfold decodeResponse
  split
  · exact ⟨rfl, nofun⟩
  · rename_i long
    dsimp only
    split
    · exact ⟨rfl, nofun⟩
    · rename_i version
      split
      · split
        · rename_i code
          exact ⟨rfl, fun _ => code⟩
        · exact ⟨rfl, nofun⟩
      · rename_i responseClass
        refine absurd ⟨by omega, ?_, ?_⟩ h
        · rw [← toNat_version, not_not.mp version]
          rfl
        · rw [← toNat_class, not_not.mp responseClass]
          rfl

theorem parseMessage_payload (long : COAP_HEADER_SIZE ≤ data.length)
    (version : (data.getD 0 0).toNat / 64 = 1) : (parseMessage data {}).2.payload =
      unmarked ((behindToken data).drop (parseOptions (behindToken data)).2) := by
  have version : data.getD 0 0 >>> 6 &&& 0x03 = COAP_VERSION :=
    UInt8.toNat_inj.mp (by rw [toNat_version, version]; rfl)
  rw [parseMessage, if_neg (Nat.not_lt.mpr long)]
  simp only [version, ne_eq, not_true_eq_false, if_false, toNat_low, ← tokenEnd_eq]
  split <;> simp only [payload_eq_unmarked, List.drop_drop]

/-! ## Complete messages -/

theorem header_of_read {c : Contents} (h : readContents data = some c) :
    COAP_HEADER_SIZE ≤ data.length ∧ (data.getD 0 0).toNat / 64 = 1 := by
  unfold readContents at h
  split at h
  · split at h
    · rename_i whole
      exact ⟨by simp [COAP_HEADER_SIZE], whole.1⟩
    · cases h
  · cases h

theorem body_of_read {c : Contents} (h : readContents data = some c) :
    DeltaOptions.read 0 (behindToken data) = some (c.options, c.payload) ∧
      c.code = data.getD 1 0 := by
  unfold readContents at h
  split at h
  · split at h
    · rename_i first code high low rest whole
      obtain ⟨r, hread, rfl⟩ := Option.map_eq_some_iff.mp h
      have fits : COAP_HEADER_SIZE + first.toNat % 16 ≤
          (first :: code :: high :: low :: rest).length := by
        simp only [COAP_HEADER_SIZE, List.length_cons]
        omega
      have behind : behindToken (first :: code :: high :: low :: rest) =
          rest.drop (first.toNat % 16) := by
        simp only [behindToken, List.getD_cons_zero, if_pos fits, ← List.drop_drop]
        rfl
      rw [behind, hread]
      exact ⟨rfl, rfl⟩
    · cases h
  · cases h

theorem unmarked_marked (payload : List UInt8) : unmarked (marked payload) = payload := by
  unfold marked
  split
  · rename_i none
    rw [none]
    rfl
  · rfl

/-- A complete response is read as it stands. -/
theorem outPayload_of_read {c : Contents} (h : readContents data = some c)
    (success : Succeeds data) : (decodeResponse data lastError).outPayload = c.payload := by
  rw [decodeResponse_of_succeeds success, (skipLoop_of_read (body_of_read h).1).1]
  exact unmarked_marked c.payload

/-! ## The other parser -/

/-- Where the other parser looks for the payload: it skips another header and another token. -/
def secondSkip (body : List UInt8) : Nat :=
  if body.length < COAP_HEADER_SIZE then COAP_HEADER_SIZE
  else COAP_HEADER_SIZE + (body.getD 0 0).toNat % 16

theorem parseOptions_snd (body : List UInt8) : (parseOptions body).2 = secondSkip body := by
  rw [parseOptions, secondSkip, toNat_low]
  split <;> rfl

/-- The second skip ends at the payload or at its marker. -/
def Lands (body payload : List UInt8) : Prop :=
  if payload = [] then
    body.length ≤ secondSkip body ∨
      body.length = secondSkip body + 1 ∧ body.getLast? = some PAYLOAD_MARKER
  else
    body.length = secondSkip body + 1 + payload.length ∨
      body.length = secondSkip body + payload.length ∧ payload.head? ≠ some PAYLOAD_MARKER

theorem unmarked_drop_eq_nil {body : List UInt8} {k : Nat} :
    unmarked (body.drop k) = [] ↔
      body.length ≤ k ∨ body.length = k + 1 ∧ body.getLast? = some PAYLOAD_MARKER := by
  rw [unmarked_eq_nil, List.drop_eq_nil_iff]
  refine or_congr_right ⟨fun h => ?_, fun ⟨size, last⟩ => ?_⟩
  · have size := congrArg List.length h
    have last := congrArg List.getLast? h
    rw [List.length_drop, List.length_singleton] at size
    rw [List.getLast?_drop, if_neg (by omega)] at last
    exact ⟨by omega, last⟩
  · have one : (body.drop k).length = 1 := by
      rw [List.length_drop]
      omega
    obtain ⟨b, hb⟩ := List.length_eq_one_iff.mp one
    have same := congrArg List.getLast? hb
    rw [List.getLast?_drop, if_neg (by omega), last] at same
    rw [hb, Option.some.inj same]
    rfl

theorem unmarked_drop_eq_payload {front payload : List UInt8} {k : Nat} (h : payload ≠ []) :
    unmarked ((front ++ PAYLOAD_MARKER :: payload).drop k) = payload ↔
      front.length = k ∨ front.length + 1 = k ∧ payload.head? ≠ some PAYLOAD_MARKER := by
  have some_payload := List.length_pos_of_ne_nil h
  constructor
  · intro same
    have size : ((front ++ PAYLOAD_MARKER :: payload).drop k).length =
        front.length + (payload.length + 1) - k := by simp
    unfold unmarked at same
    split at same
    · have tail := congrArg List.length same
      rw [List.length_tail, size] at tail
      exact .inl (by omega)
    · rename_i head
      rw [same] at head size
      exact .inr ⟨by omega, head⟩
  · rintro (rfl | ⟨rfl, head⟩)
    · rw [List.drop_left]
      rfl
    · have split : front ++ PAYLOAD_MARKER :: payload = (front ++ [PAYLOAD_MARKER]) ++ payload := by
        simp
      have size : front.length + 1 = (front ++ [PAYLOAD_MARKER]).length := by simp
      rw [split, size, List.drop_left, unmarked, if_neg head]

/-- The other parser finds the payload where its second skip ends at it. -/
theorem unmarked_drop_eq_iff {front payload : List UInt8} :
    unmarked ((front ++ marked payload).drop (secondSkip (front ++ marked payload))) = payload ↔
      Lands (front ++ marked payload) payload := by
  by_cases none : payload = []
  · subst none
    rw [Lands, if_pos rfl, unmarked_drop_eq_nil]
  · have whole : marked payload = PAYLOAD_MARKER :: payload := if_neg none
    have size : (front ++ PAYLOAD_MARKER :: payload).length =
        front.length + 1 + payload.length := by
      rw [List.length_append, List.length_cons]
      omega
    rw [Lands, if_neg none, whole, unmarked_drop_eq_payload none, size]
    generalize secondSkip (front ++ PAYLOAD_MARKER :: payload) = k
    refine or_congr ⟨by omega, by omega⟩ (and_congr_left fun _ => ⟨by omega, by omega⟩)

end

/-- A body that is not complete ends with its options, and in a complete one the other
parser comes to the payload. -/
structure Clean (data : List UInt8) : Prop where
  ends : readContents data = none → Ends (behindToken data)
  lands : ∀ c, readContents data = some c → Lands (behindToken data) c.payload

theorem agrees_iff {data : List UInt8} {lastError : String} {c : Contents}
    (h : readContents data = some c) (success : Succeeds data) :
    (decodeResponse data lastError).outPayload = (parseMessage data {}).2.payload ↔
      Lands (behindToken data) c.payload := by
  obtain ⟨-, front, whole⟩ := skipLoop_of_read (body_of_read h).1
  rw [outPayload_of_read h success, parseMessage_payload success.long success.version,
    parseOptions_snd, whole, eq_comm, unmarked_drop_eq_iff]

theorem responseLaw_of_not_succeeds {data : List UInt8} (h : ¬ Succeeds data)
    (lastError : String) : ResponseLaw data lastError := by
  obtain ⟨none, onlyEmpty⟩ := @decodeResponse_of_not_succeeds data lastError h
  refine ⟨fun _ some_payload => absurd none some_payload, fun c wellFormed ok => ?_⟩
  -- the answer without a code is four bytes, and the other parser finds nothing behind them
  obtain ⟨hread, empty⟩ := wellFormed
  have size := empty ((body_of_read hread).2.trans (onlyEmpty ok))
  obtain ⟨long, version⟩ := header_of_read hread
  have behind : behindToken data = [] := by
    rw [behindToken, List.drop_eq_nil_iff, size]
    split <;> omega
  rw [none, parseMessage_payload long version, behind, List.drop_nil]
  rfl

/-- **Which datagrams are read well.** Of those with a code of class 2, the ones whose
options are cut off only where nothing is left, and where the two parsers meet. -/
theorem responseLaw_iff (data : List UInt8) (lastError : String) :
    ResponseLaw data lastError ↔ (Succeeds data → Clean data) := by
  constructor
  · intro law success
    have decoded := @decodeResponse_of_succeeds data lastError success
    refine ⟨fun none => ?_, fun c hread => ?_⟩
    · rw [← unmarked_skipLoop_eq_nil]
      by_contra some_payload
      obtain ⟨c, hread, -⟩ := law.sound (by rw [decoded]) (by rwa [decoded])
      rw [none] at hread
      cases hread
    · have coded : c.code ≠ 0 := by
        rw [(body_of_read hread).2]
        intro code
        have := success.responseClass
        rw [code] at this
        cases this
      rw [← agrees_iff hread success]
      exact law.agrees c ⟨hread, fun code => absurd code coded⟩ (by rw [decoded])
  · intro clean
    by_cases success : Succeeds data
    · refine ⟨fun _ some_payload => ?_, fun c wellFormed _ =>
        (agrees_iff wellFormed.1 success).mpr ((clean success).lands c wellFormed.1)⟩
      cases hread : readContents data with
      | none =>
        rw [decodeResponse_of_succeeds success] at some_payload
        exact absurd (unmarked_skipLoop_eq_nil.mpr ((clean success).ends hread)) some_payload
      | some c =>
        refine ⟨c, rfl, ?_, outPayload_of_read hread success⟩
        rw [(body_of_read hread).2]
        exact success.responseClass
    · exact responseLaw_of_not_succeeds success lastError

/-- An option of five bytes of which two came: these two are the payload. -/
theorem payload_of_cutOff :
    decodeResponse [0x40, 0x45, 0, 1, 0xB5, 0x61, 0x62] "" = ⟨true, [0x61, 0x62], ""⟩ ∧
      readContents [0x40, 0x45, 0, 1, 0xB5, 0x61, 0x62] = none ∧
      ¬ ∀ data lastError, ResponseLaw data lastError := by
  have decoded : decodeResponse [0x40, 0x45, 0, 1, 0xB5, 0x61, 0x62] "" =
      ⟨true, [0x61, 0x62], ""⟩ := by
    have success : Succeeds [0x40, 0x45, 0, 1, 0xB5, 0x61, 0x62] :=
      ⟨by decide, by decide, by decide⟩
    have off : CutOff 0xB5 [0x61, 0x62] [0x61, 0x62] :=
      .value (.plain (by decide)) (.plain (by decide)) (by decide)
    rw [decodeResponse_of_succeeds success]
    change Decoded.mk true (unmarked (skipLoop [0xB5, 0x61, 0x62])) "" = _
    rw [skipLoop_of_cutOff (by decide) off]
    rfl
  have unread : readContents [0x40, 0x45, 0, 1, 0xB5, 0x61, 0x62] = none := by decide
  refine ⟨decoded, unread, fun law => ?_⟩
  obtain ⟨c, hread, -⟩ := (law [0x40, 0x45, 0, 1, 0xB5, 0x61, 0x62] "").sound (by rw [decoded])
    (by rw [decoded]; exact List.cons_ne_nil _ _)
  rw [unread] at hread
  cases hread

end CoapClient

end MidnightSdk.Protocols.Coap
