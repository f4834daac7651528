import MidnightSdk.Codec.RoundTrip
import MidnightSdk.Library.Runs

/-!
# Decoder calls on arbitrary bytes

A decoder over any bytes is given any sequence of calls. Fixed widths and raw
bytes are safe at every offset. A compact number is not when exactly one byte of
its big-integer form is missing, and a length-prefixed value throws only after
its length was consumed.
-/

namespace MidnightSdk.Codec

open ByteReader Runs ScaleDecoder

variable {buf : Buffer} {o : UInt64}

/-! ## One call -/

/-- A length-prefixed value is complete, or its length is not there. -/
def PrefixedFits (front : List UInt8) : Prop :=
  CompactFits front ∧
    ∀ len tail, Compact.decode front = some (len, tail) → len % 2 ^ 64 ≤ tail.length

theorem compact_unsafe (ho : o.toNat ≤ buf.bytes.length) (h : ¬ CompactFits (buf.bytes.drop o.toNat)) :
    (∃ index, decodeCompact buf o = .outOfBounds index) ∨
      ∃ v o', decodeCompact buf o = .ok v o' ∧ o'.toNat = buf.bytes.length + 1 := by
  simp only [CompactFits, not_forall, not_not] at h
  obtain ⟨first, rest, hfront, hmode, hlen⟩ := h
  rw [hfront, List.length_cons] at hlen
  rw [decodeCompact_cons ho hfront, if_neg (by omega), if_neg (by omega), if_neg (by omega)]
  exact decodeBig_incomplete ho hfront hlen.symm

theorem compact_safe_iff (ho : o.toNat ≤ buf.bytes.length) :
    Safe buf o (decodeCompact buf o) ↔ CompactFits (buf.bytes.drop o.toNat) := by
  constructor
  · intro safe
    by_contra hfit
    rcases compact_unsafe ho hfit with ⟨index, hread⟩ | ⟨v, o', hread, hpast⟩
    · rw [hread] at safe
      exact safe
    · rw [hread] at safe
      change o'.toNat ≤ _ at safe
      omega
  · intro hfit
    cases hnumber : Compact.decode (buf.bytes.drop o.toNat) with
    | none =>
      rw [decodeCompact_none ho hfit hnumber]
      rfl
    | some number =>
      obtain ⟨header, -, hfront, hread⟩ := decodeCompact_some ho hnumber
      rw [hread]
      change (o + UInt64.ofNat _).toNat ≤ _
      rw [toNat_add_front ho hfront]
      exact front_le ho hfront

theorem raw_safe (ho : o.toNat ≤ buf.bytes.length) (len : UInt64) :
    Safe buf o (decodeRaw len buf o) := by
  have small := buf.small
  by_cases hlen : o.toNat + len.toNat ≤ buf.bytes.length
  · have front : buf.bytes.drop o.toNat = (buf.bytes.drop o.toNat).take len.toNat ++
        (buf.bytes.drop o.toNat).drop len.toNat := (List.take_append_drop _ _).symm
    have width : len.toNat = ((buf.bytes.drop o.toNat).take len.toNat).length := by
      rw [List.length_take_of_le]
      rw [List.length_drop]
      omega
    exact (decodeRaw_reads width).safe ho front
  · obtain ⟨e, hthrows⟩ := decodeRaw_throws buf len (by omega) (Nat.not_le.mp hlen)
    rw [hthrows]
    rfl

/-- Once the length is read, the value must be there: an exception comes too late. -/
theorem bytes_after_length (ho : o.toNat ≤ buf.bytes.length) {len : Nat} {tail : List UInt8}
    (hnumber : Compact.decode (buf.bytes.drop o.toNat) = some (len, tail)) :
    Safe buf o (decodeBytes buf o) ↔ len % 2 ^ 64 ≤ tail.length := by
  obtain ⟨header, hne, hfront, hread⟩ := decodeCompact_some ho hnumber
  have small := buf.small
  have moved := toNat_add_front ho hfront
  have inside := front_le ho hfront
  have next := drop_front ho hfront
  have total := congrArg List.length hfront
  rw [List.length_drop, List.length_append] at total
  have count : (UInt64.ofNat len).toNat = len % 2 ^ 64 := UInt64.toNat_ofNat'
  rw [decodeBytes, bind_of_ok hread]
  constructor
  · intro safe
    by_contra hlen
    have short : buf.bytes.length <
        (o + UInt64.ofNat header.length).toNat + (UInt64.ofNat len).toNat := by
      omega
    obtain ⟨e, hthrows⟩ := decodeRaw_throws buf (UInt64.ofNat len) (by omega) short
    rw [hthrows] at safe
    have back := congrArg UInt64.toNat (show o + UInt64.ofNat header.length = o from safe)
    have := List.length_pos_iff.mpr hne
    omega
  · intro hlen
    have front : buf.bytes.drop (o + UInt64.ofNat header.length).toNat =
        tail.take (len % 2 ^ 64) ++ tail.drop (len % 2 ^ 64) := by
      rw [next, List.take_append_drop]
    have width : (UInt64.ofNat len).toNat = (tail.take (len % 2 ^ 64)).length := by
      rw [count, List.length_take_of_le hlen]
    have last := toNat_add_front (by omega) front
    have within := front_le (by omega) front
    rw [decodeRaw_reads width buf _ _ (by omega) front]
    change (o + UInt64.ofNat header.length + UInt64.ofNat _).toNat ≤ _
    rw [last]
    exact within

theorem bytes_safe_iff (ho : o.toNat ≤ buf.bytes.length) :
    Safe buf o (decodeBytes buf o) ↔ PrefixedFits (buf.bytes.drop o.toNat) := by
  by_cases hfit : CompactFits (buf.bytes.drop o.toNat)
  · cases hnumber : Compact.decode (buf.bytes.drop o.toNat) with
    | none =>
      have throws : decodeBytes buf o = .throws insufficientData o :=
        bind_of_throws (decodeCompact_none ho hfit hnumber)
      rw [throws]
      apply iff_of_true rfl
      refine ⟨hfit, ?_⟩
      intro len tail h
      rw [hnumber] at h
      cases h
    | some number =>
      rw [bytes_after_length ho hnumber]
      constructor
      · intro hlen
        refine ⟨hfit, ?_⟩
        intro len tail h
        rw [hnumber] at h
        cases h
        exact hlen
      · intro fits
        exact fits.2 _ _ hnumber
  · apply iff_of_false
    · intro safe
      rcases compact_unsafe ho hfit with ⟨index, hread⟩ | ⟨v, o', hread, hpast⟩
      · rw [decodeBytes, bind_of_outOfBounds hread] at safe
        exact safe
      · have small := buf.small
        have past : buf.bytes.length < o'.toNat + v.toNat := by omega
        obtain ⟨e, hthrows⟩ := decodeRaw_throws buf v (by omega) past
        rw [decodeBytes, bind_of_ok hread, hthrows] at safe
        have back := congrArg UInt64.toNat (show o' = o from safe)
        omega
    · intro fits
      exact hfit fits.1

/-! ## A sequence of calls -/

/-- The bytes left are enough for the call, or visibly too few. -/
def Call.Fits (front : List UInt8) : Call → Prop
  | .compact => CompactFits front
  | .bytes => PrefixedFits front
  | .string => PrefixedFits front
  | _ => True

/-- The offset after a call; the caller goes on after an exception. -/
def nextOffset (buf : Buffer) (o : UInt64) (call : Call) : UInt64 :=
  match call.run buf o with
  | .ok _ o' => o'
  | .throws _ o' => o'
  | .outOfBounds _ => o

theorem call_safe_iff (ho : o.toNat ≤ buf.bytes.length) (call : Call) :
    Safe buf o (call.run buf o) ↔ call.Fits (buf.bytes.drop o.toNat) := by
  have fixed {α : Type} {r : Reader α} (f : α → Value) (safe : Safe buf o (r buf o)) :
      Safe buf o ((r >>= fun a => pure (f a)) buf o) ↔ True :=
    iff_of_true ((safe_map f).mpr safe) trivial
  cases call with
  | u8 => exact fixed _ (decodeU8_fixed.safe ho)
  | u16 => exact fixed _ (decodeU16Le_fixed.safe ho)
  | u32 => exact fixed _ (decodeU32Le_fixed.safe ho)
  | u64 => exact fixed _ (decodeU64Le_fixed.safe ho)
  | u128 => exact fixed _ (decodeU128Le_fixed.safe ho)
  | bool => exact fixed _ (decodeBool_fixed.safe ho)
  | raw len => exact fixed _ (raw_safe ho len)
  | compact => exact (safe_map _).trans (compact_safe_iff ho)
  | bytes => exact (safe_map _).trans (bytes_safe_iff ho)
  | string => exact (safe_map _).trans (bytes_safe_iff ho)

/-- A safe call leaves the offset inside the vector. -/
theorem nextOffset_le {call : Call} (ho : o.toNat ≤ buf.bytes.length)
    (safe : Safe buf o (call.run buf o)) : (nextOffset buf o call).toNat ≤ buf.bytes.length := by
  unfold nextOffset
  cases hrun : call.run buf o with
  | ok v o' =>
    rw [hrun] at safe
    exact safe
  | throws e o' =>
    rw [hrun] at safe
    cases safe
    exact ho
  | outOfBounds index => exact ho

/-- **Which runs are safe.** Every call of a run reads inside the vector, leaves
the offset inside and keeps it when it throws exactly when at every call the
bytes left fit it. -/
theorem calls_safe_iff (buf : Buffer) (calls : List Call) :
    EveryStep (nextOffset buf) (fun o call => Safe buf o (call.run buf o)) 0 calls ↔
      EveryStep (nextOffset buf) (fun o call => call.Fits (buf.bytes.drop o.toNat)) 0 calls := by
  have agree (o : UInt64) (call : Call) (ho : o.toNat ≤ buf.bytes.length) :
      Safe buf o (call.run buf o) ↔ call.Fits (buf.bytes.drop o.toNat) := call_safe_iff ho call
  have keeps (o : UInt64) (call : Call) (ho : o.toNat ≤ buf.bytes.length) :
      Safe buf o (call.run buf o) → (nextOffset buf o call).toNat ≤ buf.bytes.length :=
    nextOffset_le ho
  exact every_step_iff agree keeps (Nat.zero_le _)

/-- The first byte announces four more and three are there: the check passes and
the loop reads past the end. -/
theorem compact_reads_past_end :
    Call.compact.run ⟨[0x03, 0, 0, 0], by decide⟩ 0 = .outOfBounds 4 ∧
      ¬ EveryStep (nextOffset ⟨[0x03, 0, 0, 0], by decide⟩)
        (fun o call => Safe ⟨[0x03, 0, 0, 0], by decide⟩ o
          (call.run ⟨[0x03, 0, 0, 0], by decide⟩ o)) 0 [.compact] :=
  ⟨rfl, fun h => h.1⟩

/-- A string whose length is there and whose bytes are not: the exception comes
after the offset passed the length. -/
example : Call.string.run ⟨[0x08, 0x61], by decide⟩ 0 = .throws insufficientData 1 := rfl

end MidnightSdk.Codec
