import MidnightSdk.MonitoringFinality.Rpc
import MidnightSdk.Network.NodeWaits
import MidnightSdk.Production.Finality

/-!
# Readers of a block height

Four functions read the height off a header. Three let the text show its base; the
client reads every text in base ten, so of a hexadecimal one it sees the zero in front
of the `x`. The node's client looks for a height of another name first.
-/

namespace MidnightSdk.Network

open Cpp MonitoringFinality Production

/-- `query_chain_tip_`, given what the request answers or throws. -/
def queryChainTip (answer : Throws Json) : Throws UInt32 := do
  let response ← answer
  match response.find? "result" with
  | some (.object header) =>
    match Json.lookup "number" header with
    | some (.string s) =>
      let height ← Stoull.stoul 0 s.toList
      return height.toUInt32
    | some (.unsigned n) => return n.toUInt32
    | _ => throw (.runtimeError "Could not parse chain tip response")
  | _ => throw (.runtimeError "Could not parse chain tip response")

/-! ## Spellings -/

/-- How a header writes its height. -/
inductive Spelling where
  | hex
  | decimal
  | unsigned
  deriving DecidableEq, Repr

def Spelling.write : Spelling → Nat → Json
  | hex, h => .string (String.ofList ('0' :: 'x' :: Nat.toDigits 16 h))
  | decimal, h => .string h.repr
  | unsigned, h => .unsigned (UInt64.ofNat h)

/-- The call for the tip is answered with the header, or failing that the one for it. -/
def AnswersTip (node : NodeAnswers) (header : Json) : Prop :=
  rpcCall node "getChainTip" (.object []) = .ok header ∨
    (∃ e, rpcCall node "getChainTip" (.object []) = .error e) ∧
      rpcCall node "chain_getHeader" (.array []) = .ok header

/-- All four make the same height of a header. -/
structure ReadersAgree (header : Json) (h : Nat) : Prop where
  client : (parseHeaderHeight header).toNat = h
  monitor : (parseBlockHeight header).toNat = h
  confirmation : ∀ response, response.find? "result" = some header →
    ∃ tip, queryChainTip (.ok response) = .ok tip ∧ tip.toNat = h
  tip : ∀ node, AnswersTip node header →
    ∃ height hash, getChainTip node = .ok (height, hash) ∧ height.toNat = h

/-- The header's other members leave its number alone: a height it states beside is
missing, zero or the same, and a hash beside is a text. -/
structure Plain (header : Json) (h : Nat) : Prop where
  height : ∃ own, header.valueUInt64 "height" 0 = .ok own ∧ (own = 0 ∨ own.toNat = h)
  hash : ∃ hash, header.valueString "hash" "" = .ok hash

/-! ## What each of them reads -/

/-- With the base taken from the text both written forms are read. -/
theorem stoull_zero_write {spelling : Spelling} {h : Nat} {s : String} (hh : h < 2 ^ 32)
    (hs : spelling.write h = .string s) : Stoull.stoull 0 s.toList = .ok (UInt64.ofNat h) := by
  have fits : ¬2 ^ 64 ≤ h := by omega
  cases spelling with
  | hex =>
    obtain rfl := Json.string.inj hs
    rw [String.toList_ofList, Stoull.stoull_zero_toDigits, if_neg fits]
  | decimal =>
    obtain rfl := Json.string.inj hs
    rw [Stoull.stoull_zero_repr, Stoull.stoull_ten_repr, if_neg fits]
  | unsigned => cases hs

/-- A written height is a text or the number. -/
theorem write_cases (spelling : Spelling) (h : Nat) :
    (∃ s, spelling.write h = .string s) ∨ spelling.write h = .unsigned (UInt64.ofNat h) := by
  cases spelling with
  | hex => exact .inl ⟨_, rfl⟩
  | decimal => exact .inl ⟨_, rfl⟩
  | unsigned => exact .inr rfl

section
variable {header : Json} {spelling : Spelling} {h : Nat} (hh : h < 2 ^ 32)
  (hnumber : header.find? "number" = some (spelling.write h))
include hh

theorem toNat_ofNat_height : (UInt64.ofNat h).toNat = h ∧ (UInt64.ofNat h).toUInt32.toNat = h := by
  have wide : (UInt64.ofNat h).toNat = h := UInt64.toNat_ofNat_of_lt' (by omega : h < 2 ^ 64)
  rw [UInt64.toNat_toUInt32, wide]
  exact ⟨rfl, Nat.mod_eq_of_lt hh⟩

include hnumber

theorem parseBlockHeight_write : (parseBlockHeight header).toNat = h := by
  obtain ⟨wide, narrow⟩ := toNat_ofNat_height hh
  rcases write_cases spelling h with ⟨s, hs⟩ | hs
  · simp only [parseBlockHeight, hnumber, hs, stoull_zero_write hh hs, Except.toOption,
      Option.getD_some, narrow]
  · simp only [parseBlockHeight, hnumber, hs, narrow]

theorem queryChainTip_write {response : Json} (hresponse : response.find? "result" = some header) :
    ∃ tip, queryChainTip (.ok response) = .ok tip ∧ tip.toNat = h := by
  obtain ⟨fields, rfl⟩ : ∃ fields, header = .object fields := by
    cases header with
    | object fields => exact ⟨fields, rfl⟩
    | _ => cases hnumber
  have number : Json.lookup "number" fields = some (spelling.write h) := hnumber
  obtain ⟨wide, narrow⟩ := toNat_ofNat_height hh
  refine ⟨(UInt64.ofNat h).toUInt32, ?_, narrow⟩
  rcases write_cases spelling h with ⟨s, hs⟩ | hs
  · simp only [queryChainTip, ok_bind, hresponse, number, hs, Stoull.stoul, stoull_zero_write hh hs]
    rfl
  · simp only [queryChainTip, ok_bind, hresponse, number, hs]
    rfl

theorem tipNumber_write : (tipNumber header).toNat = h := by
  obtain ⟨wide, narrow⟩ := toNat_ofNat_height hh
  rcases write_cases spelling h with ⟨s, hs⟩ | hs
  · simp only [tipNumber, hnumber, hs, stoull_zero_write hh hs, Except.toOption, Option.getD_some,
      wide]
  · simp only [tipNumber, hnumber, hs, wide]

/-- Base ten reads a zero of every hexadecimal text. -/
theorem parseHeaderHeight_write :
    (parseHeaderHeight header).toNat = h ↔ (spelling = .hex → h = 0) := by
  obtain ⟨wide, narrow⟩ := toNat_ofNat_height hh
  have fits : ¬2 ^ 64 ≤ h := by omega
  cases spelling with
  | hex =>
    have zero : parseHeaderHeight header = 0 := by
      simp only [parseHeaderHeight, hnumber, Spelling.write, parseJsonU64, String.toList_ofList,
        Stoull.stoull_ten_of_hex, Except.toOption, Option.getD_some]
    rw [zero]
    exact ⟨fun h _ => h.symm, fun h => (h rfl).symm⟩
  | decimal =>
    refine iff_of_true ?_ fun hhex => Spelling.noConfusion hhex
    simp only [parseHeaderHeight, hnumber, Spelling.write, parseJsonU64, Stoull.stoull_ten_repr,
      if_neg fits, Except.toOption, Option.getD_some, wide]
  | unsigned =>
    refine iff_of_true ?_ fun hhex => Spelling.noConfusion hhex
    simp only [parseHeaderHeight, hnumber, Spelling.write, parseJsonU64, Except.toOption,
      Option.getD_some, wide]

end

/-! ## The tip of the node's client -/

/-- What the client makes of the answer that states the tip. -/
theorem getChainTip_iff {node : NodeAnswers} {header : Json} (hanswer : AnswersTip node header)
    (height : UInt64) : (∃ hash, getChainTip node = .ok (height, hash)) ↔
      ∃ own, header.valueUInt64 "height" 0 = .ok own ∧
        (∃ hash, header.valueString "hash" "" = .ok hash) ∧
          (if own = 0 then tipNumber header else own) = height := by
  have answered : ∃ hashOf : String → String, getChainTip node = (do
      let own ← header.valueUInt64 "height" 0
      let text ← header.valueString "hash" ""
      return (if own = 0 then tipNumber header else own, hashOf text)) := by
    rcases hanswer with htip | ⟨⟨e, htip⟩, hheader⟩
    · rw [getChainTip, htip]
      exact ⟨fun text => if text = "" then _ else text, rfl⟩
    · rw [getChainTip, htip, hheader]
      exact ⟨fun text => if text = "" then _ else text, rfl⟩
  obtain ⟨hashOf, answered⟩ := answered
  simp only [answered, bind_eq_ok]
  constructor
  · rintro ⟨hash, own, hown, text, htext, h⟩
    obtain ⟨hheight, -⟩ := Prod.mk.inj (Except.ok.inj h)
    exact ⟨own, hown, ⟨text, htext⟩, hheight⟩
  · rintro ⟨own, hown, ⟨text, htext⟩, hheight⟩
    refine ⟨hashOf text, own, hown, text, htext, ?_⟩
    rw [hheight]
    rfl

/-- A node that knows the header as its tip. -/
def tipNode (header : Json) : NodeAnswers := fun method _ =>
  if method = "getChainTip" then .ok header else .error "unknown"

theorem tipNode_answers (header : Json) : AnswersTip (tipNode header) header := .inl rfl

theorem getChainTip_write {header : Json} {spelling : Spelling} {h : Nat} (hh : h < 2 ^ 32)
    (hnumber : header.find? "number" = some (spelling.write h)) :
    (∀ node, AnswersTip node header →
      ∃ height hash, getChainTip node = .ok (height, hash) ∧ height.toNat = h) ↔ Plain header h := by
  have number := tipNumber_write hh hnumber
  constructor
  · intro all
    obtain ⟨height, hash, htip, hheight⟩ := all _ (tipNode_answers header)
    obtain ⟨own, hown, hhash, rfl⟩ := (getChainTip_iff (tipNode_answers header) height).mp ⟨hash, htip⟩
    refine ⟨⟨own, hown, ?_⟩, hhash⟩
    by_cases hzero : own = 0
    · exact .inl hzero
    · rw [if_neg hzero] at hheight
      exact .inr hheight
  · rintro ⟨⟨own, hown, hsame⟩, hhash⟩ node hanswer
    obtain ⟨hash, htip⟩ := (getChainTip_iff hanswer _).mpr ⟨own, hown, hhash, rfl⟩
    refine ⟨_, hash, htip, ?_⟩
    split
    · exact number
    · rename_i hne
      exact hsame.resolve_left hne

/-- **The readers agree unless the height is hexadecimal**, as every node of the chain
writes it, or the header states another height beside it. -/
theorem readersAgree_iff {header : Json} {spelling : Spelling} {h : Nat} (hh : h < 2 ^ 32)
    (hnumber : header.find? "number" = some (spelling.write h)) :
    ReadersAgree header h ↔ (spelling = .hex → h = 0) ∧ Plain header h := by
  rw [← parseHeaderHeight_write hh hnumber, ← getChainTip_write hh hnumber]
  constructor
  · exact fun agree => ⟨agree.client, agree.tip⟩
  · rintro ⟨client, tip⟩
    exact ⟨client, parseBlockHeight_write hh hnumber,
      fun response hresponse => queryChainTip_write hh hnumber hresponse, tip⟩

theorem readersAgree_decimal :
    ReadersAgree (.object [("number", .string (Nat.repr 31))]) 31 ↔
      (Spelling.decimal = .hex → 31 = 0) ∧ Plain (.object [("number", .string (Nat.repr 31))]) 31 :=
  readersAgree_iff (by decide) rfl

/-- Of block 31 the client makes zero, the others thirty-one. -/
theorem readers_disagree :
    (parseHeaderHeight (.object [("number", Spelling.hex.write 31)])).toNat = 0 ∧
      (parseBlockHeight (.object [("number", Spelling.hex.write 31)])).toNat = 31 ∧
      ¬ ReadersAgree (.object [("number", Spelling.hex.write 31)]) 31 := by
  have client : (parseHeaderHeight (.object [("number", Spelling.hex.write 31)])).toNat = 0 := by
    decide
  refine ⟨client, by decide, fun agree => ?_⟩
  have same := agree.client
  rw [client] at same
  cases same

end MidnightSdk.Network
