import MidnightSdk.Protocols.CoapMessage

/-!
# Reading a CoAP message back

The loop over the options starts four bytes and one nibble behind the first of
them. Besides messages that end at their token, only those survive whose payload
happens to begin with the same options once more.
-/

namespace MidnightSdk.Protocols.Coap

open DeltaOptions

/-! ## What the loop takes for an option -/

/-- Four bits and the bytes behind them, as a number. 15 stands for itself. -/
inductive Spelled : Nat → List UInt8 → Nat → Prop
  | plain {n : Nat} (h : n < 13 ∨ n = 15) : Spelled n [] n
  | one (b : UInt8) : Spelled 13 [b] (13 + b.toNat)
  | two (b c : UInt8) : Spelled 14 [b, c] (269 + b.toNat * 256 + c.toNat)

/-- A delta and a value, as bytes. -/
inductive Spells : Nat → List UInt8 → List UInt8 → Prop
  | mk {delta : Nat} {first : UInt8} {ds ls value : List UInt8}
      (spelledDelta : Spelled (first.toNat / 16) ds delta)
      (spelledLength : Spelled (first.toNat % 16) ls value.length)
      (unmarked : first ≠ PAYLOAD_MARKER) :
      Spells delta value (first :: (ds ++ (ls ++ value)))

/-- The bytes begin with the options, one behind the other, and no option follows. -/
inductive Begins : UInt16 → List CoapOption → List UInt8 → Prop
  | stop {prev : UInt16} {bytes : List UInt8}
      (h : ∀ delta value form, Spells delta value form → ¬ form <+: bytes) : Begins prev [] bytes
  | more {prev : UInt16} {delta : Nat} {value form rest : List UInt8} {options : List CoapOption}
      (spells : Spells delta value form) (behind : Begins (prev + UInt16.ofNat delta) options rest) :
      Begins prev (⟨prev + UInt16.ofNat delta, value⟩ :: options) (form ++ rest)

section Spelled
variable {nib : UInt8} {n : Nat}

theorem not_extended (h : nib.toNat = n) (plain : n < 13 ∨ n = 15) : nib ≠ 13 ∧ nib ≠ 14 := by
  constructor <;>
  · rintro rfl
    simp at h
    omega

theorem deltaEnd_of_spelled {ds : List UInt8} {len : Nat} (h : Spelled nib.toNat ds n)
    (room : 1 + ds.length ≤ len) : deltaEnd nib len = some (1 + ds.length) := by
  generalize hnib : nib.toNat = k at h
  unfold deltaEnd
  cases h with
  | plain plain =>
    obtain ⟨not13, not14⟩ := not_extended hnib plain
    rw [if_neg not13, if_neg not14]
    rfl
  | one b =>
    obtain rfl : nib = 13 := UInt8.toNat_inj.mp hnib
    simp only [List.length_singleton] at room
    rw [if_pos rfl, if_neg (by omega)]
    rfl
  | two b c =>
    obtain rfl : nib = 14 := UInt8.toNat_inj.mp hnib
    simp only [List.length_cons, List.length_nil] at room
    rw [if_neg (by decide), if_pos rfl, if_neg (by omega)]
    rfl

theorem optionLength_of_spelled {front ls rest : List UInt8} (h : Spelled nib.toNat ls n) :
    optionLength (front ++ (ls ++ rest)) nib front.length = some (n, front.length + ls.length) := by
  generalize hnib : nib.toNat = k at h
  unfold optionLength
  cases h with
  | plain plain =>
    obtain ⟨not13, not14⟩ := not_extended hnib plain
    rw [if_neg not13, if_neg not14, hnib]
    rfl
  | one b =>
    obtain rfl : nib = 13 := UInt8.toNat_inj.mp hnib
    simp
  | two b c =>
    obtain rfl : nib = 14 := UInt8.toNat_inj.mp hnib
    simp

theorem headerDelta_of_spelled {first : UInt8} {ds rest : List UInt8}
    (h : Spelled (first.toNat / 16) ds n) :
    headerDelta (first :: (ds ++ rest)) = UInt16.ofNat n := by
  rw [← toNat_high] at h
  unfold headerDelta
  simp only [List.getD_cons_zero]
  generalize first >>> 4 &&& 0x0F = nib at h
  generalize hnib : nib.toNat = k at h
  cases h with
  | plain plain =>
    obtain ⟨not13, not14⟩ := not_extended hnib plain
    rw [if_neg not13, if_neg not14]
    rw [← UInt16.toNat_inj]
    simp [hnib]
    omega
  | one b =>
    obtain rfl : nib = 13 := UInt8.toNat_inj.mp hnib
    rw [← UInt16.toNat_inj]
    simp
  | two b c =>
    obtain rfl : nib = 14 := UInt8.toNat_inj.mp hnib
    have := b.toNat_lt
    have := c.toNat_lt
    rw [← UInt16.toNat_inj]
    simp [Nat.shiftLeft_eq]

/-- Bytes that are long enough for the nibble spell a number. -/
theorem exists_spelled {nibble : Nat} (small : nibble < 16) {bytes : List UInt8}
    (one : nibble = 13 → 1 ≤ bytes.length) (two : nibble = 14 → 2 ≤ bytes.length) :
    ∃ ds rest number, bytes = ds ++ rest ∧ Spelled nibble ds number := by
  rcases bytes with - | ⟨b, - | ⟨c, bytes⟩⟩
  · simp only [List.length_nil] at one two
    exact ⟨[], [], nibble, rfl, .plain (by omega)⟩
  · simp only [List.length_singleton] at two
    by_cases h13 : nibble = 13
    · subst h13
      exact ⟨[b], [], _, rfl, .one b⟩
    · exact ⟨[], [b], nibble, rfl, .plain (by omega)⟩
  · by_cases h13 : nibble = 13
    · subst h13
      exact ⟨[b], c :: bytes, _, rfl, .one b⟩
    · by_cases h14 : nibble = 14
      · subst h14
        exact ⟨[b, c], bytes, _, rfl, .two b c⟩
      · exact ⟨[], b :: c :: bytes, nibble, rfl, .plain (by omega)⟩

end Spelled

theorem decode_cons (first : UInt8) (bytes : List UInt8) :
    decodeOptionValue (first :: bytes) =
      match deltaEnd (first >>> 4 &&& 0x0F) (bytes.length + 1) with
      | none => ([], 0)
      | some pos =>
        match optionLength (first :: bytes) (first &&& 0x0F) pos with
        | none => ([], 0)
        | some (optLen, pos) =>
          if pos + optLen > bytes.length + 1 then ([], 0)
          else (((first :: bytes).drop pos).take optLen, pos + optLen) := rfl

/-- What stands behind an option does not change how it is read. -/
theorem decode_of_spells {delta : Nat} {value form : List UInt8} (h : Spells delta value form)
    (rest : List UInt8) :
    decodeOptionValue (form ++ rest) = (value, form.length) ∧
      headerDelta (form ++ rest) = UInt16.ofNat delta := by
  obtain ⟨spelledDelta, spelledLength, unmarked⟩ := h
  rename_i first ds ls
  have whole : first :: (ds ++ (ls ++ value)) ++ rest =
      (first :: ds) ++ (ls ++ (value ++ rest)) := by simp
  constructor
  · have room : 1 + ds.length ≤ (ds ++ (ls ++ (value ++ rest))).length + 1 := by
      simp only [List.length_append]
      omega
    have atDelta := deltaEnd_of_spelled (by rwa [toNat_high]) room
    have atLength : optionLength (first :: (ds ++ (ls ++ (value ++ rest)))) (first &&& 0x0F)
        (1 + ds.length) = some (value.length, 1 + ds.length + ls.length) := by
      have found := @optionLength_of_spelled (first &&& 0x0F) value.length (first :: ds) ls
        (value ++ rest) (by rwa [toNat_low])
      rwa [List.length_cons, Nat.add_comm ds.length 1] at found
    have fits : ¬ 1 + ds.length + ls.length + value.length >
        (ds ++ (ls ++ (value ++ rest))).length + 1 := by
      simp only [List.length_append]
      omega
    have behind : (first :: (ds ++ (ls ++ (value ++ rest)))).drop (1 + ds.length + ls.length) =
        value ++ rest := by
      have front : (first :: (ds ++ ls)).length = 1 + ds.length + ls.length := by
        simp only [List.length_append, List.length_cons]
        omega
      have split : first :: (ds ++ (ls ++ (value ++ rest))) =
          first :: (ds ++ ls) ++ (value ++ rest) := by simp
      rw [split, ← front, List.drop_left]
    have size : (first :: (ds ++ (ls ++ value))).length =
        1 + ds.length + ls.length + value.length := by
      simp only [List.length_cons, List.length_append]
      omega
    rw [whole, List.cons_append, decode_cons, atDelta]
    simp only [atLength]
    rw [if_neg fits, behind, List.take_left, size]
  · rw [whole, List.cons_append]
    exact headerDelta_of_spelled spelledDelta

/-- Where bytes are consumed, an option stands in front. -/
theorem spells_of_decode {data : List UInt8} (unmarked : data.getD 0 0 ≠ PAYLOAD_MARKER)
    (consumed : (decodeOptionValue data).2 ≠ 0) :
    ∃ delta value form rest, Spells delta value form ∧ data = form ++ rest := by
  cases data with
  | nil => exact absurd rfl consumed
  | cons first bytes =>
    rw [decode_cons] at consumed
    -- the delta is complete, or nothing is consumed
    have deltaFits : (first.toNat / 16 = 13 → 1 ≤ bytes.length) ∧
        (first.toNat / 16 = 14 → 2 ≤ bytes.length) := by
      rw [← toNat_high]
      constructor
      · intro h13
        obtain h13 : first >>> 4 &&& 0x0F = 13 := UInt8.toNat_inj.mp h13
        by_contra short
        simp [deltaEnd, h13, show bytes.length = 0 by omega] at consumed
      · intro h14
        obtain h14 : first >>> 4 &&& 0x0F = 14 := UInt8.toNat_inj.mp h14
        by_contra short
        simp [deltaEnd, h14, show bytes.length + 1 ≤ 2 by omega] at consumed
    have small : first.toNat / 16 < 16 := by
      have := first.toNat_lt
      omega
    obtain ⟨ds, left, delta, rfl, spelledDelta⟩ := exists_spelled small deltaFits.1 deltaFits.2
    have atDelta : deltaEnd (first >>> 4 &&& 0x0F) ((ds ++ left).length + 1) =
        some (1 + ds.length) := by
      refine deltaEnd_of_spelled (by rwa [toNat_high]) ?_
      rw [List.length_append]
      omega
    rw [atDelta] at consumed
    have lengthFits : (first.toNat % 16 = 13 → 1 ≤ left.length) ∧
        (first.toNat % 16 = 14 → 2 ≤ left.length) := by
      rw [← toNat_low]
      constructor
      · intro h13
        obtain h13 : first &&& 0x0F = 13 := UInt8.toNat_inj.mp h13
        by_contra short
        simp [optionLength, h13, show left.length = 0 by omega, Nat.add_comm] at consumed
      · intro h14
        obtain h14 : first &&& 0x0F = 14 := UInt8.toNat_inj.mp h14
        by_contra short
        have cut : ds.length + left.length + 1 ≤ 1 + ds.length + 1 := by omega
        simp [optionLength, h14, cut] at consumed
    obtain ⟨ls, left, length, rfl, spelledLength⟩ :=
      exists_spelled (Nat.mod_lt _ (by decide)) lengthFits.1 lengthFits.2
    have atLength : optionLength (first :: (ds ++ (ls ++ left))) (first &&& 0x0F)
        (1 + ds.length) = some (length, 1 + ds.length + ls.length) := by
      have found := @optionLength_of_spelled (first &&& 0x0F) length (first :: ds) ls left
        (by rwa [toNat_low])
      rwa [List.length_cons, Nat.add_comm ds.length 1] at found
    simp only [atLength] at consumed
    have fits : length ≤ left.length := by
      by_contra long
      rw [if_pos] at consumed
      · exact consumed rfl
      · simp only [List.length_append]
        omega
    have size : (left.take length).length = length := List.length_take_of_le fits
    refine ⟨delta, left.take length, _, left.drop length,
      .mk spelledDelta (by rwa [size]) unmarked, ?_⟩
    simp

/-! ## One option -/

theorem spelled_extension {n : Nat} (h : n ≤ greatest) : Spelled (nibble n) (extension n) n := by
  unfold greatest at h
  unfold nibble extension
  by_cases short : n < 13
  · rw [if_pos short, if_pos short]
    exact .plain (.inl short)
  · rw [if_neg short, if_neg short]
    by_cases one : n < 269
    · have sum : 13 + (UInt8.ofNat (n - 13)).toNat = n := by
        rw [UInt8.toNat_ofNat']
        omega
      rw [if_pos one, if_pos one]
      have one := Spelled.one (UInt8.ofNat (n - 13))
      rwa [sum] at one
    · have sum : 269 + (UInt8.ofNat ((n - 269) / 256)).toNat * 256 +
          (UInt8.ofNat ((n - 269) % 256)).toNat = n := by
        rw [UInt8.toNat_ofNat', UInt8.toNat_ofNat']
        omega
      rw [if_neg one, if_neg one]
      have two := Spelled.two (UInt8.ofNat ((n - 269) / 256)) (UInt8.ofNat ((n - 269) % 256))
      rwa [sum] at two

/-- An option that is written spells its number and its value. -/
theorem spells_encodeOption (number : UInt16) {value : List UInt8}
    (h : value.length ≤ greatest) : Spells number.toNat value (encodeOption number value) := by
  have range := number.toNat_lt
  have small := nibble_lt value.length
  have upper : (head number.toNat value.length).toNat / 16 = nibble number.toNat := by
    rw [toNat_head]
    omega
  have lower : (head number.toNat value.length).toNat % 16 = nibble value.length := by
    rw [toNat_head]
    omega
  rw [encodeOption_eq, written_eq_iff.mpr h]
  refine .mk ?_ ?_ (head_ne_marker _ _)
  · rw [upper]
    exact spelled_extension (by unfold greatest; omega)
  · rw [lower]
    exact spelled_extension h

/-- **One option is read back**, whatever stands behind it. -/
theorem decodeOptionValue_encodeOption (number : UInt16) {value : List UInt8}
    (h : value.length ≤ 65804) (rest : List UInt8) :
    decodeOptionValue (encodeOption number value ++ rest) =
      (value, (encodeOption number value).length) :=
  (decode_of_spells (spells_encodeOption number h) rest).1

theorem decodeOptionValue_encodeOption_long :
    decodeOptionValue (encodeOption 300 (List.replicate 300 7) ++ [0xFF]) =
      (List.replicate 300 7, (encodeOption 300 (List.replicate 300 7)).length) :=
  decodeOptionValue_encodeOption 300 (by rw [List.length_replicate]; decide) [0xFF]

/-! ## The loop -/

theorem Spells.ne_nil {delta : Nat} {value form : List UInt8} (h : Spells delta value form) :
    form ≠ [] := by
  cases h
  exact List.cons_ne_nil _ _

theorem Spells.unmarked {delta : Nat} {value form : List UInt8} (h : Spells delta value form)
    (rest : List UInt8) : (form ++ rest).getD 0 0 ≠ PAYLOAD_MARKER := by
  cases h with
  | mk _ _ unmarked => exact unmarked

theorem Begins.unmarked {prev : UInt16} {options : List CoapOption} {bytes : List UInt8}
    (h : Begins prev options bytes) (some_option : options ≠ []) :
    bytes ≠ [] ∧ bytes.head? ≠ some PAYLOAD_MARKER := by
  cases h with
  | stop => exact absurd rfl some_option
  | more spells _ =>
    cases spells with
    | mk _ _ unmarked => exact ⟨List.cons_ne_nil _ _, fun h => unmarked (Option.some.inj h)⟩

theorem optionLoop_of_spells {delta : Nat} {value form : List UInt8} (h : Spells delta value form)
    (prev : UInt16) (rest : List UInt8) :
    optionLoop prev (form ++ rest) =
      ⟨prev + UInt16.ofNat delta, value⟩ :: optionLoop (prev + UInt16.ofNat delta) rest := by
  obtain ⟨decoded, header⟩ := decode_of_spells h rest
  have some_byte : form.length ≠ 0 := by simpa using h.ne_nil
  have goesOn : ¬ ((form ++ rest).length = 0 ∨ (form ++ rest).getD 0 0 = PAYLOAD_MARKER) := by
    rintro (hlen | hmark)
    · simp only [List.length_append] at hlen
      omega
    · exact h.unmarked rest hmark
  rw [optionLoop, if_neg goesOn, decoded, header, if_neg some_byte, List.drop_left]

/-- The loop stops where no option stands in front. -/
theorem optionLoop_eq_nil {prev : UInt16} {data : List UInt8}
    (h : ∀ delta value form, Spells delta value form → ¬ form <+: data) :
    optionLoop prev data = [] := by
  rw [optionLoop]
  split
  · rfl
  · rename_i goesOn
    rw [if_pos]
    by_contra consumed
    obtain ⟨delta, value, form, rest, spells, rfl⟩ :=
      spells_of_decode (fun hmark => goesOn (.inr hmark)) consumed
    exact h delta value form spells (List.prefix_append form rest)

theorem begins_optionLoop (prev : UInt16) (data : List UInt8) :
    Begins prev (optionLoop prev data) data := by
  induction n : data.length using Nat.strongRecOn generalizing prev data with
  | ind n ih =>
    by_cases h : ∃ delta value form, Spells delta value form ∧ form <+: data
    · obtain ⟨delta, value, form, spells, rest, rfl⟩ := h
      have some_byte := List.length_pos_of_ne_nil spells.ne_nil
      rw [List.length_append] at n
      rw [optionLoop_of_spells spells]
      exact .more spells (ih rest.length (by omega) _ rest rfl)
    · have none : ∀ delta value form, Spells delta value form → ¬ form <+: data :=
        fun delta value form spells hform => h ⟨delta, value, form, spells, hform⟩
      rw [optionLoop_eq_nil none]
      exact .stop none

/-- What the loop finds is what the bytes begin with. -/
theorem optionLoop_eq_iff {prev : UInt16} {data : List UInt8} {options : List CoapOption} :
    optionLoop prev data = options ↔ Begins prev options data := by
  constructor
  · rintro rfl
    exact begins_optionLoop prev data
  · intro h
    induction h with
    | stop none => exact optionLoop_eq_nil none
    | more spells _ ih => rw [optionLoop_of_spells spells, ih]

/-! ## The whole message -/

/-- Bytes without the marker in front of them. -/
def unmarked (bytes : List UInt8) : List UInt8 :=
  if bytes.head? = some PAYLOAD_MARKER then bytes.tail else bytes

theorem taken (data : List UInt8) (pos : Nat) :
    (if pos < data.length then data.drop pos else []) = data.drop pos := by
  split
  · rfl
  · exact (List.drop_eq_nil_of_le (by omega)).symm

/-- The payload is what stands behind a position, less the marker. -/
theorem payload_eq_unmarked (data : List UInt8) (pos : Nat) :
    (if (if pos < data.length ∧ data.getD pos 0 = PAYLOAD_MARKER then pos + 1 else pos) <
        data.length then
      data.drop (if pos < data.length ∧ data.getD pos 0 = PAYLOAD_MARKER then pos + 1 else pos)
    else []) = unmarked (data.drop pos) := by
  rw [taken]
  by_cases inside : pos < data.length
  · have here : data.drop pos = data[pos] :: data.drop (pos + 1) := List.drop_eq_getElem_cons inside
    have byte : data.getD pos 0 = data[pos] := by simp [inside]
    rw [byte, unmarked, here, List.head?_cons, List.tail_cons]
    by_cases marker : data[pos] = PAYLOAD_MARKER
    · rw [if_pos ⟨inside, marker⟩, if_pos (congrArg some marker)]
    · rw [if_neg fun h => marker h.2, if_neg fun h => marker (Option.some.inj h), here]
  · have empty : data.drop pos = [] := List.drop_eq_nil_of_le (by omega)
    rw [if_neg fun h => inside h.1, empty]
    rfl

namespace WireMessage

variable (m : WireMessage)

/-- Header and token are taken as they are; the rest depends on where the options are looked for. -/
theorem parse_bytes : parseMessage m.bytes {} =
    (true, { m.message with
      options := (parseOptions m.body).1
      payload := unmarked (m.body.drop (parseOptions m.body).2) }) := by
  obtain ⟨version, type, tokenLen⟩ := parsed_header m.type m.token_le
  have long : ¬ m.bytes.length < COAP_HEADER_SIZE := by
    simp only [bytes, List.length_cons, COAP_HEADER_SIZE]
    omega
  have front : m.bytes = (m.first :: m.code :: UInt8.ofNat (m.messageId.toNat / 256) ::
      UInt8.ofNat (m.messageId.toNat % 256) :: m.token) ++ m.body := rfl
  have token : (if m.token.length > 0 ∧ COAP_HEADER_SIZE + m.token.length ≤ m.bytes.length then
      ((m.bytes.drop COAP_HEADER_SIZE).take m.token.length, COAP_HEADER_SIZE + m.token.length)
      else ([], COAP_HEADER_SIZE)) = (m.token, COAP_HEADER_SIZE + m.token.length) := by
    have taken : (m.bytes.drop COAP_HEADER_SIZE).take m.token.length = m.token := by
      change (m.token ++ m.body).take m.token.length = m.token
      exact List.take_left
    have fits : COAP_HEADER_SIZE + m.token.length ≤ m.bytes.length := by
      simp only [bytes, List.length_cons, List.length_append, COAP_HEADER_SIZE]
      omega
    split
    · rw [taken]
    · have none : m.token = [] := by
        rw [← List.length_eq_zero_iff]
        omega
      simp [none]
  have rest : m.bytes.drop (COAP_HEADER_SIZE + m.token.length) = m.body := by
    change (m.bytes.drop (4 + m.token.length)) = m.body
    rw [← List.drop_drop]
    exact List.drop_left
  have first : m.bytes.getD 0 0 = m.first := rfl
  have id : (m.bytes.getD 2 0).toUInt16 <<< 8 ||| (m.bytes.getD 3 0).toUInt16 = m.messageId :=
    parsed_message_id m.messageId
  change m.first >>> 6 &&& 0x03 = COAP_VERSION at version
  change MessageType.ofBits (m.first >>> 4 &&& 0x03) = m.type at type
  change (m.first &&& 0x0F).toNat = m.token.length at tokenLen
  rw [parseMessage, if_neg long]
  simp only [first, version, type, tokenLen, id, ne_eq, not_true_eq_false, if_false, token, rest,
    payload_eq_unmarked, ← List.drop_drop]
  rfl

/-- The parser gives the message its bytes were made from. -/
def ReadBack : Prop := parseMessage m.bytes {} = (true, m.message)

/-- The options take three bytes more than the low half of their first byte says,
and the payload begins with the same options. -/
def Repeated : Prop :=
  m.optionBytes.length = 3 + (m.optionBytes.getD 0 0).toNat % 16 ∧ Begins 0 m.options m.payload

theorem readBack_iff_parts : m.ReadBack ↔
    (parseOptions m.body).1 = m.options ∧
      unmarked (m.body.drop (parseOptions m.body).2) = m.payload := by
  rw [ReadBack, parse_bytes]
  simp [message]

theorem parseOptions_short {data : List UInt8} (h : data.length < COAP_HEADER_SIZE) :
    parseOptions data = ([], COAP_HEADER_SIZE) := if_pos h

theorem parseOptions_long {data : List UInt8} (h : ¬ data.length < COAP_HEADER_SIZE) :
    parseOptions data =
      (optionLoop 0 (data.drop (COAP_HEADER_SIZE + (data.getD 0 0).toNat % 16)),
        COAP_HEADER_SIZE + (data.getD 0 0).toNat % 16) := by
  rw [parseOptions, if_neg h, toNat_low]

variable {m}

theorem optionBytes_of_none (h : m.options = []) : m.optionBytes = [] := by
  rw [optionBytes, h]
  rfl

/-- A payload behind its marker stands where the options end. -/
theorem drop_body (h : m.payload ≠ []) : m.body.drop (m.optionBytes.length + 1) = m.payload := by
  have whole : m.body = (m.optionBytes ++ [0xFF]) ++ m.payload := by
    rw [body, marked, if_neg h]
    simp
  have size : (m.optionBytes ++ [(0xFF : UInt8)]).length = m.optionBytes.length + 1 := by simp
  rw [whole, ← size, List.drop_left]

theorem length_body (h : m.payload ≠ []) :
    m.body.length = m.optionBytes.length + 1 + m.payload.length := by
  rw [body, marked, if_neg h, List.length_append, List.length_cons]
  omega

theorem getD_body (h : m.optionBytes ≠ []) : m.body.getD 0 0 = m.optionBytes.getD 0 0 := by
  obtain ⟨b, bytes, hbytes⟩ := List.exists_cons_of_ne_nil h
  rw [body, hbytes]
  rfl

theorem ends_or_repeated_of_readBack (h : m.ReadBack) :
    (m.options = [] ∧ m.payload = []) ∨ m.Repeated := by
  obtain ⟨hoptions, hpayload⟩ := m.readBack_iff_parts.mp h
  by_cases short : m.body.length < COAP_HEADER_SIZE
  · rw [parseOptions_short short] at hoptions hpayload
    rw [List.drop_eq_nil_of_le (Nat.le_of_lt short)] at hpayload
    exact .inl ⟨hoptions.symm, hpayload.symm⟩
  · rw [parseOptions_long short] at hoptions hpayload
    simp only [COAP_HEADER_SIZE] at hoptions hpayload short
    cases hskipped : m.body.drop (4 + (m.body.getD 0 0).toNat % 16) with
    | nil =>
      rw [hskipped] at hoptions hpayload
      rw [optionLoop] at hoptions
      exact .inl ⟨hoptions.symm, hpayload.symm⟩
    | cons b rest =>
      have size := congrArg List.length hskipped
      rw [List.length_drop, List.length_cons] at size
      rw [hskipped] at hoptions hpayload
      by_cases marker : b = PAYLOAD_MARKER
      · -- the payload is read from behind the second skipped header: it is too short
        have none : m.options = [] := by
          rw [← hoptions, optionLoop, if_pos (.inr marker)]
        have shorter : rest = m.payload := by
          rwa [unmarked, List.head?_cons, if_pos (congrArg some marker)] at hpayload
        refine .inl ⟨none, ?_⟩
        by_contra some_payload
        have long := length_body some_payload
        rw [optionBytes_of_none none, ← shorter, List.length_nil] at long
        omega
      · -- options and payload are read from the same bytes
        have same : b :: rest = m.payload := by
          rwa [unmarked, List.head?_cons, if_neg fun h => marker (Option.some.inj h)] at hpayload
        have some_payload : m.payload ≠ [] := by
          rw [← same]
          exact List.cons_ne_nil b rest
        have long := length_body some_payload
        rw [← same, List.length_cons] at long
        have some_option : m.optionBytes ≠ [] := by
          rw [← List.length_pos_iff]
          omega
        rw [getD_body some_option] at size
        refine .inr ⟨by omega, ?_⟩
        rw [← same]
        exact optionLoop_eq_iff.mp hoptions

theorem readBack_of_ends (hoptions : m.options = []) (hpayload : m.payload = []) : m.ReadBack := by
  have empty : m.body = [] := by
    rw [body, optionBytes_of_none hoptions, hpayload]
    rfl
  rw [readBack_iff_parts, empty, hoptions, hpayload]
  exact ⟨rfl, rfl⟩

theorem readBack_of_repeated (h : m.Repeated) : m.ReadBack := by
  obtain ⟨size, begins⟩ := h
  have some_bytes : m.optionBytes ≠ [] := by
    rw [← List.length_pos_iff]
    omega
  have some_option : m.options ≠ [] := fun none => some_bytes (optionBytes_of_none none)
  obtain ⟨some_payload, unmarkedPayload⟩ := begins.unmarked some_option
  have long := length_body some_payload
  have skipped : m.body.drop (4 + (m.body.getD 0 0).toNat % 16) = m.payload := by
    rw [getD_body some_bytes, show 4 + (m.optionBytes.getD 0 0).toNat % 16 =
      m.optionBytes.length + 1 by omega]
    exact drop_body some_payload
  rw [readBack_iff_parts, parseOptions_long (by simp only [COAP_HEADER_SIZE]; omega)]
  simp only [COAP_HEADER_SIZE, skipped]
  exact ⟨optionLoop_eq_iff.mpr begins, if_neg unmarkedPayload⟩

/-- **Which messages are read back.** Those that end at their token, and those
whose payload repeats their options where the parser looks for them. -/
theorem readBack_iff (m : WireMessage) :
    m.ReadBack ↔ (m.options = [] ∧ m.payload = []) ∨ m.Repeated := by
  constructor
  · exact ends_or_repeated_of_readBack
  · rintro (⟨hoptions, hpayload⟩ | h)
    · exact readBack_of_ends hoptions hpayload
    · exact readBack_of_repeated h

/-- Option 300 without a value, and its bytes once more as the payload. -/
def twice : WireMessage where
  type := .CON
  code := 1
  messageId := 1
  token := []
  options := [⟨300, []⟩]
  payload := [0xE0, 0, 31]
  token_le := by decide
  ascending := List.pairwise_singleton _ _
  value_le := by decide

example : twice.Repeated := by
  have spells : Spells 300 [] [0xE0, 0, 31] :=
    @Spells.mk 300 0xE0 [0, 31] [] [] (.two 0 31) (.plain (by decide)) (by decide)
  refine ⟨by decide, .more spells (.stop ?_)⟩
  intro delta value form h hform
  exact h.ne_nil (List.prefix_nil.mp hform)

/-- An answer with the payload `hi`, which is lost. -/
def answer : WireMessage where
  type := .ACK
  code := 0x45
  messageId := 1
  token := [7]
  options := []
  payload := [0x68, 0x69]
  token_le := by decide
  ascending := .nil
  value_le := nofun

theorem not_readBack_answer : ¬ ∀ m : WireMessage, m.ReadBack := by
  intro h
  have lost : parseMessage answer.bytes {} = (true, { answer.message with payload := [] }) := by
    decide
  have same : (true, answer.message) = (true, { answer.message with payload := [] }) :=
    (h answer).symm.trans lost
  exact absurd same (by decide)

end WireMessage

end MidnightSdk.Protocols.Coap
