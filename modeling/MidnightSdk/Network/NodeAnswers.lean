import MidnightSdk.Library.Json
import MidnightSdk.Library.Stoull

/-!
# What a node answers

The calls a program makes of a node at one moment are answered each with a value or the
text of an error. Heights are hexadecimal texts in headers; whether they are read as such
depends on the base.
-/

namespace MidnightSdk.Network

open Cpp HexText

abbrev NodeAnswers : Type := String → Json → Except String Json

/-- A call; a failed one throws. -/
def rpcCall (node : NodeAnswers) (method : String) (params : Json) : Throws Json :=
  (node method params).mapError .runtimeError

theorem rpcCall_eq_ok {node : NodeAnswers} {method : String} {params answer : Json} :
    rpcCall node method params = .ok answer ↔ node method params = .ok answer := by
  unfold rpcCall
  cases node method params <;> simp [Except.mapError]

/-- The height a header states: hexadecimal digits behind `0x`. -/
def HexHeight (header : Json) (height : Nat) : Prop :=
  ∃ text ds, header.find? "number" = some (.string (String.ofList ('0' :: 'x' :: text))) ∧
    ds ≠ [] ∧ text.mapM digitValue = some ds ∧ Stoul.ofDigits ds = height

end MidnightSdk.Network
