import Mathlib.Data.List.TakeWhile
import MidnightSdk.Library.Stoull
import MidnightSdk.Library.TextSearch
import MidnightSdk.Util.Hex

/-!
# The text of an encrypted key

An encrypted key is stored as a JSON object. The reader does not parse it: it
searches the text for each name and takes what stands behind it, up to the next
comma or brace.
-/

namespace MidnightSdk.Crypto

open Cpp HexText TextSearch

namespace KeyEncryptionConfig

def keySize : Nat := 32
def nonceSize : Nat := 12
def tagSize : Nat := 16
def saltSize : Nat := 32
def currentVersion : UInt32 := 1

end KeyEncryptionConfig

structure EncryptedKey where
  version : UInt32 := KeyEncryptionConfig.currentVersion
  salt : List UInt8
  nonce : List UInt8
  ciphertext : List UInt8
  tag : List UInt8
  deriving DecidableEq, Repr

namespace EncryptedKey

def toJson (e : EncryptedKey) : List Char :=
  ['{'] ++
  ("\"version\":".toList ++ e.version.toNat.repr.toList ++ ",".toList) ++
  ("\"salt\":\"".toList ++ Util.bytesToHex e.salt ++ "\",".toList) ++
  ("\"nonce\":\"".toList ++ Util.bytesToHex e.nonce ++ "\",".toList) ++
  ("\"ciphertext\":\"".toList ++ Util.bytesToHex e.ciphertext ++ "\",".toList) ++
  ("\"tag\":\"".toList ++ Util.bytesToHex e.tag ++ "\"".toList) ++
  ['}']

def goesOn (c : Char) : Bool := c != ',' && c != '}'

/-- Where the value of a field starts and ends. -/
def findField (str field : List Char) : Option (Nat × Nat) :=
  (find ('"' :: (field ++ ['"', ':'])) str).map fun pos =>
    let start := pos + (field.length + 3)
    (start, start + ((str.drop start).takeWhile goesOn).length)

/-- `s.substr(start, end - start)` of a field that was found. -/
def fieldText (s field : List Char) : Option (List Char) :=
  (findField s field).map fun (start, stop) => (s.drop start).take (stop - start)

def withoutQuotes (hexVal : List Char) : List Char :=
  let opened := if hexVal.head? = some '"' then hexVal.drop 1 else hexVal
  if opened.getLast? = some '"' then opened.dropLast else opened

/-- `hex_from_field`; what `hex_to_bytes` throws is caught by the reader. -/
def hexFromField (s field : List Char) : Option (List UInt8) := do
  let hexVal ← fieldText s field
  (Util.hexToBytes (withoutQuotes hexVal)).toOption

/-- `std::stoul` of 64 bits, cut to 32; a text without a version has the current one. -/
def readVersion (s : List Char) : Option UInt32 :=
  match fieldText s "version".toList with
  | none => some KeyEncryptionConfig.currentVersion
  | some number => (Stoull.stoull 10 number).toOption.map UInt64.toUInt32

def fromJson (s : List Char) : Option EncryptedKey := do
  let version ← readVersion s
  let salt ← hexFromField s "salt".toList
  let nonce ← hexFromField s "nonce".toList
  let ciphertext ← hexFromField s "ciphertext".toList
  let tag ← hexFromField s "tag".toList
  return { version, salt, nonce, ciphertext, tag }

/-! ## What is found -/

/-- What stands between the quotes of a text, in order. -/
def versionPieces (version : UInt32) : List (List Char) :=
  ["version".toList, ':' :: (version.toNat.repr.toList ++ [','])]

def fieldPieces (name : List Char) (bytes : List UInt8) (last : Char) : List (List Char) :=
  [name, [':'], Util.bytesToHex bytes, [last]]

theorem toJson_eq (e : EncryptedKey) :
    e.toJson = ['{'] ++ divided '"' (versionPieces e.version ++
      (fieldPieces "salt".toList e.salt ',' ++ (fieldPieces "nonce".toList e.nonce ',' ++
        (fieldPieces "ciphertext".toList e.ciphertext ',' ++
          fieldPieces "tag".toList e.tag '}')))) := by
  simp [toJson, versionPieces, fieldPieces, divided]

theorem fieldText_divided {name rest : List Char} {before : List (List Char)} (hname : '"' ∉ name)
    (hbefore : ∀ piece ∈ before, '"' ∉ piece ∧ piece ≠ name) :
    fieldText (['{'] ++ (divided '"' before ++ '"' :: (name ++ '"' :: ':' :: rest))) name =
      some (rest.takeWhile goesOn) := by
  have found : find ('"' :: (name ++ ['"', ':']))
      (['{'] ++ (divided '"' before ++ '"' :: (name ++ '"' :: ':' :: rest))) =
        some (1 + (divided '"' before).length) :=
    find_divided (by decide) hname hbefore
  have length : name.length + 3 = 1 + (name.length + 2) := by omega
  have behind : (['{'] ++ (divided '"' before ++ '"' :: (name ++ '"' :: ':' :: rest))).drop
      (1 + (divided '"' before).length + (name.length + 3)) = rest := by
    rw [Nat.add_assoc, ← List.drop_drop, ← List.drop_drop, List.singleton_append, List.drop_one,
      List.tail_cons, List.drop_left, length, ← List.drop_drop, List.drop_one, List.tail_cons,
      ← List.drop_drop, List.drop_left]
    rfl
  have value : rest.takeWhile goesOn = rest.take (rest.takeWhile goesOn).length :=
    List.prefix_iff_eq_take.mp (List.takeWhile_prefix goesOn)
  rw [fieldText, findField, found]
  simp only [Option.map_some, behind, Nat.add_sub_cancel_left]
  rw [← value]

/-! ## What was written is read back -/

theorem not_mem_of_digits {text : List Char} (h : ∀ c ∈ text, c ∈ digits) {c : Char}
    (hc : c ∉ digits) : c ∉ text := fun hmem => hc (h c hmem)

theorem digits_repr (version : UInt32) : ∀ c ∈ version.toNat.repr.toList, c ∈ digits := by
  intro c hc
  rw [Nat.toList_repr] at hc
  have digit := Nat.isDigit_of_mem_toDigits (by decide) (by decide) hc
  exact mem_of_digitValue (Stoull.digitValue_of_isDigit digit)

theorem digits_bytesToHex (bytes : List UInt8) : ∀ c ∈ Util.bytesToHex bytes, c ∈ digits :=
  (Util.bytesToHex_spells bytes).mem_digits

theorem goesOn_digits {text : List Char} (h : ∀ c ∈ text, c ∈ digits) :
    ∀ c ∈ text, goesOn c = true := by
  have all : digits.Forall fun c => goesOn c = true := by decide
  exact fun c hc => List.forall_iff_forall_mem.mp all c (h c hc)

/-- What no written value, and nothing between the values, is. -/
def IsName (name : List Char) : Prop :=
  '"' ∉ name ∧ ':' ∉ name ∧ 2 ≤ name.length ∧ (name.any fun c => !digits.contains c) = true

instance (name : List Char) : Decidable (IsName name) := instDecidableAnd

theorem not_name_versionPieces (version : UInt32) {name : List Char} (h : IsName name)
    (hne : "version".toList ≠ name) :
    ∀ piece ∈ versionPieces version, '"' ∉ piece ∧ piece ≠ name := by
  have unquoted : '"' ∉ version.toNat.repr.toList :=
    not_mem_of_digits (digits_repr version) (by decide)
  simp only [versionPieces, List.forall_mem_cons, List.not_mem_nil, false_implies, implies_true,
    and_true]
  refine ⟨⟨by decide, hne⟩, by simpa using unquoted, ?_⟩
  rintro rfl
  exact h.2.1 List.mem_cons_self

theorem not_name_fieldPieces (bytes : List UInt8) {name other : List Char} {last : Char}
    (h : IsName name) (hother : '"' ∉ other ∧ other ≠ name) (hlast : '"' ≠ last) :
    ∀ piece ∈ fieldPieces other bytes last, '"' ∉ piece ∧ piece ≠ name := by
  obtain ⟨-, -, long, unlike⟩ := h
  have short (mark : Char) : [mark] ≠ name := by
    rintro rfl
    simp at long
  have value : Util.bytesToHex bytes ≠ name := by
    rintro rfl
    obtain ⟨c, hc, hdigit⟩ := List.any_eq_true.mp unlike
    simp [digits_bytesToHex bytes c hc] at hdigit
  have unquoted : '"' ∉ Util.bytesToHex bytes :=
    not_mem_of_digits (digits_bytesToHex bytes) (by decide)
  simp only [fieldPieces, List.forall_mem_cons, List.not_mem_nil, false_implies, implies_true,
    and_true]
  exact ⟨hother, ⟨by decide, short ':'⟩, ⟨unquoted, value⟩, by simpa using hlast, short last⟩

theorem withoutQuotes_quoted (text : List Char) :
    withoutQuotes ('"' :: (text ++ ['"'])) = text := by
  simp [withoutQuotes]

/-- A field whose value is in quotes, behind pieces that are not its name. -/
theorem hexFromField_divided {name : List Char} {last : Char} {before after : List (List Char)}
    (bytes : List UInt8) (hname : '"' ∉ name)
    (hbefore : ∀ piece ∈ before, '"' ∉ piece ∧ piece ≠ name) (hlast : goesOn last = false) :
    hexFromField (['{'] ++ divided '"' (before ++ (fieldPieces name bytes last ++ after))) name =
      some bytes := by
  have value (behind : List Char) :
      ('"' :: (Util.bytesToHex bytes ++ '"' :: last :: behind)).takeWhile goesOn =
        '"' :: (Util.bytesToHex bytes ++ ['"']) := by
    rw [List.takeWhile_cons_of_pos (by decide),
      List.takeWhile_append_of_pos (goesOn_digits (digits_bytesToHex bytes)),
      List.takeWhile_cons_of_pos (by decide), List.takeWhile_cons_of_neg (by simp [hlast])]
  have layout : divided '"' (fieldPieces name bytes last ++ after) = '"' :: (name ++ '"' :: ':' ::
      '"' :: (Util.bytesToHex bytes ++ '"' :: last :: divided '"' after)) := by
    simp [fieldPieces, divided]
  rw [hexFromField, divided_append, layout, fieldText_divided hname hbefore, value]
  change (Util.hexToBytes (withoutQuotes _)).toOption = _
  rw [withoutQuotes_quoted, Util.hexToBytes_spells (Util.bytesToHex_spells bytes)]
  rfl

theorem versionText_toJson (e : EncryptedKey) :
    fieldText e.toJson "version".toList = some e.version.toNat.repr.toList := by
  have layout (others : List (List Char)) :
      divided '"' (versionPieces e.version ++ others) = divided '"' [] ++
        '"' :: ("version".toList ++ '"' :: ':' ::
          (e.version.toNat.repr.toList ++ ',' :: divided '"' others)) := by
    simp [versionPieces, divided]
  rw [toJson_eq, layout, fieldText_divided (by decide) (by simp),
    List.takeWhile_append_of_pos (goesOn_digits (digits_repr e.version))]
  simp [goesOn]

theorem readVersion_toJson (e : EncryptedKey) : readVersion e.toJson = some e.version := by
  have fits : ¬2 ^ 64 ≤ e.version.toNat := by
    have := e.version.toNat_lt
    omega
  rw [readVersion, versionText_toJson]
  change (Stoull.stoull 10 _).toOption.map _ = _
  rw [Stoull.stoull_ten_repr, if_neg fits]
  change some (UInt64.ofNat e.version.toNat).toUInt32 = _
  rw [UInt64.toUInt32_ofNat', UInt32.ofNat_toNat]

/-- **Every encrypted key is read back** from its text. -/
theorem fromJson_toJson (e : EncryptedKey) : fromJson e.toJson = some e := by
  have field {name other : List Char} (bytes : List UInt8) (h : IsName name)
      (hother : '"' ∉ other ∧ other ≠ name) :
      ∀ piece ∈ fieldPieces other bytes ',', '"' ∉ piece ∧ piece ≠ name :=
    not_name_fieldPieces bytes h hother (by decide)
  have salt : hexFromField e.toJson "salt".toList = some e.salt := by
    rw [toJson_eq]
    apply hexFromField_divided e.salt (by decide) _ rfl
    exact not_name_versionPieces e.version (by decide) (by decide)
  have nonce : hexFromField e.toJson "nonce".toList = some e.nonce := by
    rw [toJson_eq, ← List.append_assoc]
    apply hexFromField_divided e.nonce (by decide) _ rfl
    rw [List.forall_mem_append]
    exact ⟨not_name_versionPieces e.version (by decide) (by decide),
      field e.salt (by decide) (by decide)⟩
  have ciphertext : hexFromField e.toJson "ciphertext".toList = some e.ciphertext := by
    rw [toJson_eq, ← List.append_assoc, ← List.append_assoc]
    apply hexFromField_divided e.ciphertext (by decide) _ rfl
    rw [List.forall_mem_append, List.forall_mem_append]
    exact ⟨⟨not_name_versionPieces e.version (by decide) (by decide),
      field e.salt (by decide) (by decide)⟩, field e.nonce (by decide) (by decide)⟩
  have tag : hexFromField e.toJson "tag".toList = some e.tag := by
    rw [toJson_eq, ← List.append_assoc, ← List.append_assoc, ← List.append_assoc,
      ← List.append_nil (fieldPieces "tag".toList e.tag '}')]
    apply hexFromField_divided e.tag (by decide) _ rfl
    rw [List.forall_mem_append, List.forall_mem_append, List.forall_mem_append]
    exact ⟨⟨⟨not_name_versionPieces e.version (by decide) (by decide),
      field e.salt (by decide) (by decide)⟩, field e.nonce (by decide) (by decide)⟩,
      field e.ciphertext (by decide) (by decide)⟩
  rw [fromJson, readVersion_toJson, salt, nonce, ciphertext, tag]
  rfl

/-! ## Text behind the object -/

theorem fieldText_eq (s name : List Char) : fieldText s name =
    (find ('"' :: (name ++ ['"', ':'])) s).map fun pos =>
      (s.drop (pos + (name.length + 3))).takeWhile goesOn := by
  rw [fieldText, findField, Option.map_map]
  congr 1
  funext pos
  have value := List.prefix_iff_eq_take.mp
    (List.takeWhile_prefix (l := s.drop (pos + (name.length + 3))) goesOn)
  simp only [Function.comp_apply, Nat.add_sub_cancel_left]
  exact value.symm

/-- A field that is found in an object ends there. -/
theorem fieldText_append {s name value : List Char} (hs : s.getLast? = some '}')
    (h : fieldText s name = some value) (rest : List Char) :
    fieldText (s ++ rest) name = some value := by
  rw [fieldText_eq] at h ⊢
  obtain ⟨pos, found, rfl⟩ := Option.map_eq_some_iff.mp h
  rw [find_append_right found, Option.map_some, Option.some.injEq]
  obtain ⟨behind, hbehind⟩ := prefix_of_find found
  have drop : s.drop (pos + (name.length + 3)) = behind := by
    rw [← List.drop_drop, ← hbehind]
    apply List.drop_left'
    simp
  have nonempty : behind ≠ [] := by
    rintro rfl
    have last := congrArg List.getLast? hbehind
    rw [List.append_nil, List.getLast?_drop] at last
    split at last
    · simp at last
    · rw [hs] at last
      simp [List.getLast?_cons, List.getLast?_append] at last
  have inside : pos + (name.length + 3) < s.length := by
    by_contra outside
    exact nonempty (by rw [← drop, List.drop_eq_nil_of_le (Nat.le_of_not_lt outside)])
  have stops : '}' ∈ behind := by
    apply List.mem_of_getLast?
    rw [← drop, List.getLast?_drop, if_neg (Nat.not_le_of_lt inside), hs]
  have part : (behind.takeWhile goesOn).length ≠ behind.length := by
    intro whole
    have all := (List.takeWhile_prefix goesOn).eq_of_length whole
    rw [← all] at stops
    cases List.mem_takeWhile_imp stops
  rw [List.drop_append_of_le_length (Nat.le_of_lt inside), drop, List.takeWhile_append, if_neg part]

theorem hexFromField_append {s name : List Char} {bytes : List UInt8} (hs : s.getLast? = some '}')
    (h : hexFromField s name = some bytes) (rest : List Char) :
    hexFromField (s ++ rest) name = some bytes := by
  obtain ⟨value, found, read⟩ := Option.bind_eq_some_iff.mp h
  exact Option.bind_eq_some_iff.mpr ⟨value, fieldText_append hs found rest, read⟩

/-- The reader stops at the end of the object. -/
theorem fromJson_append (e : EncryptedKey) (rest : List Char) :
    fromJson (e.toJson ++ rest) = some e := by
  have hs : e.toJson.getLast? = some '}' := by
    rw [toJson, List.getLast?_append]
    rfl
  have version : readVersion (e.toJson ++ rest) = readVersion e.toJson := by
    rw [readVersion, readVersion, fieldText_append hs (versionText_toJson e), versionText_toJson]
  have read := fromJson_toJson e
  simp only [fromJson, Option.bind_eq_bind, Option.bind_eq_some_iff] at read ⊢
  obtain ⟨v, hv, salt, hsalt, nonce, hnonce, ciphertext, hciphertext, tag, htag, whole⟩ := read
  exact ⟨v, version.trans hv, salt, hexFromField_append hs hsalt rest, nonce,
    hexFromField_append hs hnonce rest, ciphertext, hexFromField_append hs hciphertext rest, tag,
    hexFromField_append hs htag rest, whole⟩

end EncryptedKey

end MidnightSdk.Crypto
