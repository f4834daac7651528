import MidnightSdk.Library.Cpp
import MidnightSdk.Protocols.CoapMessage

/-!
# Requests of the CoAP client

The client writes every option as if it were the first one: the whole number of
the option stands where a reader expects the step from the option before it.
-/

namespace MidnightSdk.Protocols.Coap

open DeltaOptions

inductive RequestMethod where
  | GET | POST | PUT | DELETE
  deriving DecidableEq, Repr

def RequestMethod.code (method : RequestMethod) : UInt8 := UInt8.ofNat (method.ctorIdx + 1)

inductive ContentFormat where
  | text_plain | application_json | application_octet_stream
  deriving DecidableEq, Repr

def ContentFormat.code : ContentFormat → UInt8
  | .text_plain => 0
  | .application_json => 50
  | .application_octet_stream => 21

inductive OptionCode where
  | uri_host | uri_port | uri_path | content_format | observe
  deriving DecidableEq, Repr

def OptionCode.code : OptionCode → UInt16
  | .uri_host => 3
  | .uri_port => 7
  | .uri_path => 11
  | .content_format => 12
  | .observe => 6

namespace CoapClient

/-- The previous option is always number 0. -/
def encodeOption (optionNumber : UInt16) (value : List UInt8) : List UInt8 :=
  let prevOpt := 0
  Coap.encodeOption (optionNumber - prevOpt) value

/-- What `std::getline` takes from the path one after the other, less empty segments. -/
def segments (path : List UInt8) : List (List UInt8) :=
  (path.splitOn 47).filter fun segment => !segment.isEmpty

/-- `clean_path`: the path without the slash in front. -/
def cleanPath (path : List UInt8) : List UInt8 :=
  if path.head? = some 47 then path.tail else path

/-- The bytes of the request, and `next_message_id_` afterwards. -/
def encodeRequest (nextMessageId : UInt16) (token : UInt8) (method : RequestMethod)
    (path payload : List UInt8) (observe : Bool) : List UInt8 × UInt16 :=
  let msgId := nextMessageId + 1
  let nextMessageId := if msgId = 0 then 1 else msgId
  let header0 := COAP_VERSION <<< 6 ||| MessageType.CON.code <<< 4 ||| 1
  let message := [header0, method.code, (msgId >>> 8).toUInt8, (msgId &&& 0xFF).toUInt8, token]
  let options := (segments (cleanPath path)).flatMap (encodeOption OptionCode.uri_path.code)
  let options :=
    if observe then options ++ encodeOption OptionCode.observe.code [] else options
  let options :=
    if payload ≠ [] then
      options ++ encodeOption OptionCode.content_format.code
        (Cpp.literal (toString ContentFormat.text_plain.code.toNat))
    else options
  let message := message ++ options
  let message := if payload ≠ [] then message ++ PAYLOAD_MARKER :: payload else message
  (message, nextMessageId)

/-! ## What a request asks for -/

/-- A Uri-Path option for each segment in order, the other two on demand, and nothing else. -/
structure Lists (path payload : List UInt8) (observe : Bool) (options : List Numbered) : Prop where
  uriPath : (options.filter (·.number = 11)).map Numbered.value = segments path
  observe : (options.filter (·.number = 6)).length = if observe then 1 else 0
  contentFormat : (options.filter (·.number = 12)).length = if payload ≠ [] then 1 else 0
  known : ∀ f ∈ options, f.number = 11 ∨ f.number = 6 ∨ f.number = 12

structure Asks (method : RequestMethod) (path payload : List UInt8) (observe : Bool)
    (c : Contents) : Prop where
  confirmable : c.type = .CON
  method : c.code = method.code
  token : c.token.length = 1
  options : Lists path payload observe c.options
  payload : c.payload = payload

/-- A reader of the layout finds the request that was asked for. -/
def Understood (nextMessageId : UInt16) (token : UInt8) (method : RequestMethod)
    (path payload : List UInt8) (observe : Bool) : Prop :=
  ∃ c, readContents (encodeRequest nextMessageId token method path payload observe).1 = some c ∧
    Asks method path payload observe c

/-! ## The bytes of a request -/

theorem segments_cleanPath (path : List UInt8) : segments (cleanPath path) = segments path := by
  unfold cleanPath
  split
  · rename_i slash
    obtain ⟨rest, rfl⟩ : ∃ rest, path = 47 :: rest := by
      cases path with
      | nil => cases slash
      | cons b rest => exact ⟨rest, by rw [Option.some.inj slash]⟩
    simp [segments, List.splitOn, List.splitOnP_cons_eq_if_modifyHead]
  · rfl

/-- The options of a request, in the order the client writes them. -/
def options (path payload : List UInt8) (observe : Bool) : List CoapOption :=
  (segments path).map (CoapOption.mk OptionCode.uri_path.code) ++
    ((if observe then [⟨OptionCode.observe.code, []⟩] else []) ++
      if payload ≠ [] then
        [⟨OptionCode.content_format.code, Cpp.literal (toString ContentFormat.text_plain.code.toNat)⟩]
      else [])

/-- Options one behind the other, each written on its own. -/
def optionsBytes (options : List CoapOption) : List UInt8 :=
  options.flatMap fun o => Coap.encodeOption o.number o.value

@[simp] theorem optionsBytes_cons (o : CoapOption) (options : List CoapOption) :
    optionsBytes (o :: options) = Coap.encodeOption o.number o.value ++ optionsBytes options := rfl

theorem encodeRequest_eq (nextMessageId : UInt16) (token : UInt8) (method : RequestMethod)
    (path payload : List UInt8) (observe : Bool) :
    ∃ high low, (encodeRequest nextMessageId token method path payload observe).1 =
      0x41 :: method.code :: high :: low :: token ::
        (optionsBytes (options path payload observe) ++ marked payload) := by
  refine ⟨((nextMessageId + 1) >>> 8).toUInt8, ((nextMessageId + 1) &&& 0xFF).toUInt8, ?_⟩
  have paths : (segments path).flatMap (encodeOption OptionCode.uri_path.code) =
      optionsBytes ((segments path).map (CoapOption.mk OptionCode.uri_path.code)) := by
    rw [optionsBytes, List.flatMap_map]
    rfl
  simp only [encodeRequest, segments_cleanPath, paths, options, marked]
  cases observe <;> by_cases empty : payload = [] <;>
    simp [empty, optionsBytes, encodeOption, PAYLOAD_MARKER] <;> rfl

/-- A request is understood when its options are. -/
theorem understood_iff_lists {nextMessageId : UInt16} {token : UInt8} {method : RequestMethod}
    {path payload : List UInt8} {observe : Bool} :
    Understood nextMessageId token method path payload observe ↔
      ∃ fields, read 0 (optionsBytes (options path payload observe) ++ marked payload) =
        some (fields, payload) ∧ Lists path payload observe fields := by
  obtain ⟨high, low, bytes⟩ := encodeRequest_eq nextMessageId token method path payload observe
  have contents : readContents (encodeRequest nextMessageId token method path payload observe).1 =
      (read 0 (optionsBytes (options path payload observe) ++ marked payload)).map fun r =>
        ⟨.CON, method.code, high.toUInt16 <<< 8 ||| low.toUInt16, [token], r.1, r.2⟩ := by
    rw [bytes, readContents, if_pos]
    · rfl
    · exact ⟨by decide, by decide, Nat.le_add_left _ _⟩
  rw [Understood, contents]
  constructor
  · rintro ⟨c, hread, asks⟩
    obtain ⟨⟨fields, payload'⟩, hbody, rfl⟩ := Option.map_eq_some_iff.mp hread
    have same : payload' = payload := asks.payload
    exact ⟨fields, by rw [hbody, same], asks.options⟩
  · rintro ⟨fields, hbody, lists⟩
    rw [hbody]
    exact ⟨_, rfl, rfl, rfl, rfl, lists, rfl⟩

/-! ## Reading them -/

theorem read_encodeOption (prev : Nat) (number : UInt16) (value rest : List UInt8)
    (small : number.toNat ≤ greatest) :
    read prev (Coap.encodeOption number value ++ rest) =
      (read (prev + number.toNat) (value.drop (written value.length) ++ rest)).map fun r =>
        (⟨prev + number.toNat, value.take (written value.length)⟩ :: r.1, r.2) := by
  have fits := written_le value.length
  have one := readOne_head small (written_le_greatest value.length)
    (show written value.length ≤ (value ++ rest).length by rw [List.length_append]; omega)
  rw [List.take_append_of_le_length fits, List.drop_append_of_le_length fits] at one
  have bytes : Coap.encodeOption number value ++ rest =
      head number.toNat (written value.length) :: (extension number.toNat ++
        (extension (written value.length) ++ (value ++ rest))) := by
    rw [encodeOption_eq]
    simp
  rw [bytes]
  exact read_of_readOne (head_ne_marker _ _) one

theorem known_of_mem_options {path payload : List UInt8} {observe : Bool} {o : CoapOption}
    (h : o ∈ options path payload observe) :
    o.number.toNat = 11 ∨ o.number.toNat = 6 ∨ o.number.toNat = 12 := by
  simp only [options, List.mem_append, List.mem_map] at h
  rcases h with ⟨segment, -, rfl⟩ | h | h
  · exact .inl rfl
  · cases observe
    · cases h
    · obtain rfl := List.mem_singleton.mp h
      exact .inr (.inl rfl)
  · split at h
    · obtain rfl := List.mem_singleton.mp h
      exact .inr (.inr rfl)
    · cases h

theorem mem_options_of_mem_segments {path segment : List UInt8} (h : segment ∈ segments path)
    (payload : List UInt8) (observe : Bool) :
    CoapOption.mk OptionCode.uri_path.code segment ∈ options path payload observe :=
  List.mem_append_left _ (List.mem_map_of_mem h)

theorem length_le_of_mem_options {path payload : List UInt8} {observe : Bool} {o : CoapOption}
    (short : ∀ segment ∈ segments path, segment.length ≤ greatest)
    (h : o ∈ options path payload observe) : o.value.length ≤ greatest := by
  simp only [options, List.mem_append, List.mem_map] at h
  rcases h with ⟨segment, hsegment, rfl⟩ | h | h
  · exact short segment hsegment
  · cases observe
    · cases h
    · obtain rfl := List.mem_singleton.mp h
      exact Nat.zero_le _
  · split at h
    · obtain rfl := List.mem_singleton.mp h
      decide
    · cases h

/-- Two options add up to more than the number of any of them. -/
theorem add_number_ge {path payload : List UInt8} {observe : Bool} {o p : CoapOption}
    {rest : List CoapOption} (h : options path payload observe = o :: p :: rest) :
    17 ≤ o.number.toNat + p.number.toNat := by
  have second : p ∈ options path payload observe := by
    rw [h]
    simp
  cases hsegments : segments path with
  | cons segment others =>
    have path_first : o.number.toNat = 11 := by
      simp only [options, hsegments, List.map_cons, List.cons_append, List.cons.injEq] at h
      rw [← h.1]
      rfl
    have := known_of_mem_options second
    omega
  | nil =>
    -- without a segment there is room for two only if both flags are set
    by_cases empty : payload = []
    · cases observe <;> simp [options, hsegments, empty] at h
    · cases observe
      · simp [options, hsegments, empty] at h
      · simp only [options, hsegments, empty, List.map_nil, List.nil_append, if_true, ne_eq,
          not_false_eq_true, List.cons_append, List.cons.injEq] at h
        rw [← h.1, ← h.2.1]
        decide

/-- The value of the first option is read whole only if its length fits. -/
theorem length_le_of_lists {path payload : List UInt8} {observe : Bool} {o : CoapOption}
    {rest : List CoapOption} (hoptions : options path payload observe = o :: rest)
    {fields : List Numbered} {payload' : List UInt8}
    (hread : read 0 (optionsBytes (o :: rest) ++ marked payload) = some (fields, payload'))
    (lists : Lists path payload observe fields) : o.value.length ≤ greatest := by
  have found : o ∈ options path payload observe := hoptions ▸ List.mem_cons_self
  have small := known_of_mem_options found
  rw [optionsBytes_cons, List.append_assoc,
    read_encodeOption _ _ _ _ (by simp only [greatest]; omega), Option.map_eq_some_iff] at hread
  obtain ⟨⟨behind, _⟩, -, heq⟩ := hread
  cases heq
  cases hsegments : segments path with
  | cons segment others =>
    simp only [options, hsegments, List.map_cons, List.cons_append, List.cons.injEq] at hoptions
    obtain ⟨rfl, -⟩ := hoptions
    have whole := lists.uriPath
    rw [hsegments, List.filter_cons_of_pos (by rfl), List.map_cons, List.cons.injEq] at whole
    have size := congrArg List.length whole.1
    rw [List.length_take, Nat.min_eq_left (written_le _)] at size
    exact written_eq_iff.mp size
  | nil =>
    refine length_le_of_mem_options ?_ found
    rw [hsegments]
    exact List.forall_mem_nil _

/-- A second option is read under a number that is none of the three. -/
theorem not_lists_of_two {path payload : List UInt8} {observe : Bool} {o p : CoapOption}
    {rest : List CoapOption} (hoptions : options path payload observe = o :: p :: rest)
    {fields : List Numbered} {payload' : List UInt8}
    (hread : read 0 (optionsBytes (o :: p :: rest) ++ marked payload) = some (fields, payload')) :
    ¬ Lists path payload observe fields := by
  intro lists
  have first : o.number.toNat = 11 ∨ o.number.toNat = 6 ∨ o.number.toNat = 12 :=
    known_of_mem_options (by rw [hoptions]; simp)
  have second : p.number.toNat = 11 ∨ p.number.toNat = 6 ∨ p.number.toNat = 12 :=
    known_of_mem_options (by rw [hoptions]; simp)
  have sum := add_number_ge hoptions
  have whole := written_eq_iff.mpr (length_le_of_lists hoptions hread lists)
  rw [optionsBytes_cons, List.append_assoc,
    read_encodeOption _ _ _ _ (by simp only [greatest]; omega), whole, List.drop_length,
    List.nil_append, optionsBytes_cons, List.append_assoc,
    read_encodeOption _ _ _ _ (by simp only [greatest]; omega)] at hread
  obtain ⟨⟨behind, _⟩, hbehind, heq⟩ := Option.map_eq_some_iff.mp hread
  cases heq
  obtain ⟨⟨further, _⟩, -, heq⟩ := Option.map_eq_some_iff.mp hbehind
  cases heq
  rw [Nat.zero_add] at lists
  have number : o.number.toNat + p.number.toNat = 11 ∨ o.number.toNat + p.number.toNat = 6 ∨
      o.number.toNat + p.number.toNat = 12 :=
    lists.known _ (List.mem_cons_of_mem _ List.mem_cons_self)
  omega

/-- A single option that fits is read as it is. -/
theorem read_single (o : CoapOption) (small : o.number.toNat ≤ greatest)
    (short : o.value.length ≤ greatest) (payload : List UInt8) :
    read 0 (optionsBytes [o] ++ marked payload) = some ([o.numbered], payload) := by
  have size := written_eq_iff.mpr short
  rw [optionsBytes_cons, List.append_assoc, read_encodeOption _ _ _ _ small, size,
    List.take_length, List.drop_length, Nat.zero_add]
  change (read _ (marked payload)).map _ = _
  rw [read_marked]
  rfl

theorem length_options (path payload : List UInt8) (observe : Bool) :
    (options path payload observe).length =
      (segments path).length + (if observe then 1 else 0) + (if payload ≠ [] then 1 else 0) := by
  simp only [options, List.length_append, List.length_map, Nat.add_assoc]
  congr 2
  · split <;> rfl
  · split <;> rfl

/-- The options of a request, as a reader should list them. -/
theorem lists_options (path payload : List UInt8) (observe : Bool) :
    Lists path payload observe ((options path payload observe).map CoapOption.numbered) := by
  have numbers : ((segments path).map (CoapOption.mk OptionCode.uri_path.code)).map
      CoapOption.numbered = (segments path).map (Numbered.mk 11) := List.map_map ..
  have kept : ((segments path).map (Numbered.mk 11)).filter (·.number = 11) =
      (segments path).map (Numbered.mk 11) := List.filter_eq_self.mpr (by simp)
  have others (n : Nat) (h : n ≠ 11) :
      ((segments path).map (Numbered.mk 11)).filter (·.number = n) = [] :=
    List.filter_eq_nil_iff.mpr (by simp [h.symm])
  have values : ((segments path).map (Numbered.mk 11)).map Numbered.value = segments path := by
    rw [List.map_map]
    exact List.map_id _
  constructor
  · rw [options, List.map_append, numbers, List.filter_append, kept, List.map_append, values]
    cases observe <;> by_cases empty : payload = [] <;> simp [empty, CoapOption.numbered] <;> decide
  · rw [options, List.map_append, numbers, List.filter_append, others 6 (by decide)]
    cases observe <;> by_cases empty : payload = [] <;> simp [empty, CoapOption.numbered] <;> decide
  · rw [options, List.map_append, numbers, List.filter_append, others 12 (by decide)]
    cases observe <;> by_cases empty : payload = [] <;> simp [empty, CoapOption.numbered] <;> decide
  · intro f hf
    obtain ⟨o, ho, rfl⟩ := List.mem_map.mp hf
    exact known_of_mem_options ho

/-- **Which requests are understood.** Those with one option at most, whose length
two bytes can hold. -/
theorem understood_iff (nextMessageId : UInt16) (token : UInt8) (method : RequestMethod)
    (path payload : List UInt8) (observe : Bool) :
    Understood nextMessageId token method path payload observe ↔
      (segments path).length + (if observe then 1 else 0) + (if payload ≠ [] then 1 else 0) ≤ 1 ∧
        ∀ segment ∈ segments path, segment.length ≤ greatest := by
  rw [understood_iff_lists, ← length_options]
  have each : ∀ o ∈ options path payload observe, o.number.toNat ≤ greatest := by
    intro o ho
    have := known_of_mem_options ho
    simp only [greatest]
    omega
  have listed := lists_options path payload observe
  rcases hoptions : options path payload observe with - | ⟨o, - | ⟨p, rest⟩⟩
  · have none : segments path = [] := by
      simpa [options] using (List.append_eq_nil_iff.mp hoptions).1
    rw [hoptions] at listed
    refine iff_of_true ⟨[], read_marked 0 payload, listed⟩ ⟨Nat.zero_le 1, ?_⟩
    rw [none]
    exact List.forall_mem_nil _
  · rw [hoptions] at listed each
    have small := each o List.mem_cons_self
    constructor
    · rintro ⟨fields, hread, lists⟩
      refine ⟨Nat.le_refl 1, fun segment hsegment => ?_⟩
      have sent := mem_options_of_mem_segments hsegment payload observe
      rw [hoptions, List.mem_singleton] at sent
      have fits := length_le_of_lists hoptions hread lists
      rwa [← sent] at fits
    · rintro ⟨-, short⟩
      have fits := length_le_of_mem_options short (hoptions ▸ List.mem_cons_self)
      exact ⟨_, read_single o small fits payload, listed⟩
  · refine iff_of_false ?_ fun h => ?_
    · rintro ⟨fields, hread, lists⟩
      exact not_lists_of_two hoptions hread lists
    · have := h.1
      simp only [List.length_cons] at this
      omega

/-- The second segment of `/a/b` is read as option 22. -/
theorem not_understood_twoSegments : ¬ ∀ nextMessageId token method path payload observe,
    Understood nextMessageId token method path payload observe := by
  intro h
  have two : options [47, 97, 47, 98] [] false = [⟨11, [97]⟩, ⟨11, [98]⟩] := by decide
  obtain ⟨fields, hread, lists⟩ :=
    understood_iff_lists.mp (h 0 7 .GET [47, 97, 47, 98] [] false)
  rw [two] at hread
  exact not_lists_of_two two hread lists

end CoapClient

end MidnightSdk.Protocols.Coap
