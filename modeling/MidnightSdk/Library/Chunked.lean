import Mathlib.Data.List.Basic

/-!
# A stream that arrives in chunks

What a socket brings before it is closed, cut anywhere. A call takes what it asks
for from the next chunk, or all of a shorter one; nothing means the end.
-/

namespace MidnightSdk.Chunked

variable {α : Type}

/-- The chunks still to come. -/
abbrev Stream (α : Type) : Type := List (List α)

/-- `recv` of at most `len` values. -/
def recv (len : Nat) : Stream α → List α × Stream α
  | [] => ([], [])
  | [] :: rest => recv len rest
  | (b :: bs) :: rest => ((b :: bs).take len, (b :: bs).drop len :: rest)

/-- A loop of `recv` calls for `len` values in all. -/
def recvAll (len : Nat) (s : Stream α) : Option (List α × Stream α) :=
  if len = 0 then some ([], s)
  else if (recv len s).1.length = 0 then none
  else (recvAll (len - (recv len s).1.length) (recv len s).2).map fun p =>
    ((recv len s).1 ++ p.1, p.2)
termination_by len
decreasing_by omega

/-- No value is lost or moved. -/
theorem recv_append (len : Nat) (s : Stream α) :
    (recv len s).1 ++ (recv len s).2.flatten = s.flatten := by
  induction s with
  | nil => rfl
  | cons chunk rest ih =>
    cases chunk with
    | nil =>
      rw [recv, ih]
      rfl
    | cons b bs =>
      rw [recv, List.flatten_cons, List.flatten_cons, ← List.append_assoc, List.take_append_drop]

theorem length_recv_le (len : Nat) (s : Stream α) : (recv len s).1.length ≤ len := by
  induction s with
  | nil => exact Nat.zero_le len
  | cons chunk rest ih =>
    cases chunk with
    | nil => exact ih
    | cons b bs => exact List.length_take_le len (b :: bs)

/-- Nothing comes back. -/
theorem length_recv {len : Nat} {s rest : Stream α} {front : List α}
    (h : recv len s = (front, rest)) : front.length + rest.flatten.length = s.flatten.length := by
  rw [← List.length_append, ← recv_append len s, h]

theorem length_recvAll {len : Nat} {s rest : Stream α} {front : List α}
    (h : recvAll len s = some (front, rest)) : rest.flatten.length ≤ s.flatten.length := by
  induction len using Nat.strongRecOn generalizing s front with
  | ind len ih =>
    rw [recvAll] at h
    split at h
    · cases h
      exact Nat.le_refl _
    · split at h
      · cases h
      · obtain ⟨⟨back, later⟩, hback, heq⟩ := Option.map_eq_some_iff.mp h
        cases heq
        have here := @length_recv _ len s _ _ rfl
        have there := ih _ (by omega) hback
        omega

/-- Only the end brings nothing. -/
theorem recv_pos {len : Nat} (hlen : 0 < len) {s : Stream α} (h : 0 < s.flatten.length) :
    0 < (recv len s).1.length := by
  induction s with
  | nil => exact absurd h (Nat.lt_irrefl 0)
  | cons chunk rest ih =>
    cases chunk with
    | nil => exact ih h
    | cons b bs =>
      rw [recv, List.length_take, List.length_cons]
      omega

/-- One value at a time, the cuts make no difference. -/
theorem recv_one {s : Stream α} {b : α} {bs : List α} (h : s.flatten = b :: bs) :
    ∃ rest, recv 1 s = ([b], rest) ∧ rest.flatten = bs := by
  have whole := recv_append 1 s
  have atMost := length_recv_le 1 s
  have some : 0 < (recv 1 s).1.length := recv_pos (by decide) (by rw [h]; exact Nat.succ_pos _)
  obtain ⟨x, hx⟩ := List.length_eq_one_iff.mp (show (recv 1 s).1.length = 1 by omega)
  rw [hx, h, List.singleton_append, List.cons.injEq] at whole
  exact ⟨(recv 1 s).2, Prod.ext (hx.trans (by rw [whole.1])) rfl, whole.2⟩

theorem recv_nil {len : Nat} {s : Stream α} (h : s.flatten = []) : (recv len s).1 = [] := by
  have whole := recv_append len s
  rw [h] at whole
  exact (List.append_eq_nil_iff.mp whole).1

/-- The loop brings the front of the stream, however it is cut. -/
theorem recvAll_front (len : Nat) {s : Stream α} (h : len ≤ s.flatten.length) :
    ∃ rest, recvAll len s = some (s.flatten.take len, rest) ∧ rest.flatten = s.flatten.drop len := by
  induction len using Nat.strongRecOn generalizing s with
  | ind len ih =>
    rw [recvAll]
    by_cases hzero : len = 0
    · subst hzero
      exact ⟨s, rfl, rfl⟩
    · have whole := recv_append len s
      have atMost := length_recv_le len s
      have some := recv_pos (show 0 < len by omega) (s := s) (by omega)
      generalize hfront : (recv len s).1 = front at *
      generalize (recv len s).2 = later at *
      have lengths := congrArg List.length whole
      rw [List.length_append] at lengths
      obtain ⟨rest, hrest, hflat⟩ :=
        ih (len - front.length) (by omega) (s := later) (by omega)
      refine ⟨rest, ?_, ?_⟩
      · rw [if_neg hzero, if_neg (by omega), hrest, ← whole, List.take_append,
          List.take_of_length_le atMost]
        rfl
      · rw [hflat, ← whole, List.drop_append, List.drop_eq_nil_of_le atMost, List.nil_append]

end MidnightSdk.Chunked
