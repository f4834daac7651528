import Mathlib.Logic.Basic

/-!
# Calls on a handle

A library that keeps its state behind a handle is known by its answers: each
call returns a code and some output, both of which may depend on every call made
on the handle before. A caller requires a code of each call and goes on, or gives
up.
-/

namespace MidnightSdk.Handle

structure Answer (Out : Type) where
  code : Int
  out : Out
  deriving DecidableEq, Repr

variable {Call Out : Type}

/-- A call that has to return a given code: its output, and the calls made by then. -/
def require (answer : List Call → Call → Answer Out) (code : Int) (before : List Call)
    (call : Call) : Option (Out × List Call) :=
  if (answer before call).code ≠ code then none
  else some ((answer before call).out, before ++ [call])

/-- Each call of a row returns the code. -/
def AllReturn (answer : List Call → Call → Answer Out) (code : Int) : List Call → List Call → Prop
  | _, [] => True
  | before, call :: calls =>
    (answer before call).code = code ∧ AllReturn answer code (before ++ [call]) calls

variable {answer : List Call → Call → Answer Out} {code : Int} {before : List Call}

/-- What a required call leaves, if it returns the code. -/
theorem require_eq_some {call : Call} {left : Out × List Call} :
    require answer code before call = some left ↔
      (answer before call).code = code ∧ left = ((answer before call).out, before ++ [call]) := by
  unfold require
  by_cases h : (answer before call).code = code
  · simp [h, eq_comm]
  · simp [h]

theorem allReturn_append {calls later : List Call} :
    AllReturn answer code before (calls ++ later) ↔
      AllReturn answer code before calls ∧ AllReturn answer code (before ++ calls) later := by
  induction calls generalizing before with
  | nil => simp [AllReturn]
  | cons call calls ih =>
    rw [List.cons_append, AllReturn, AllReturn, ih, and_assoc, List.append_assoc,
      List.singleton_append]

theorem allReturn_singleton {call : Call} :
    AllReturn answer code before [call] ↔ (answer before call).code = code :=
  and_iff_left trivial

end MidnightSdk.Handle
