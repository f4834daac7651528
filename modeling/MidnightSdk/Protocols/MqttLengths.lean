import MidnightSdk.Protocols.MqttProtocol

/-!
# Length fields without an end

The decoder of the remaining length stops at a terminator, after four bytes or where the
buffer ends, and says only how many bytes it took. A field that was cut off or goes on too
long is taken for a length.
-/

namespace MidnightSdk.Protocols.Mqtt

open Base128

/-- The buffer starts with a packet around these bytes. -/
inductive PacketAt : List UInt8 → List UInt8 → Prop
  | mk {first : UInt8} {field bytes rest : List UInt8} (terminated : Terminated field)
      (short : field.length ≤ 4) (size : bytes.length = value field) :
      PacketAt (first :: (field ++ (bytes ++ rest))) bytes

structure ReadsPacket (data : List UInt8) : Prop where
  complete : (parsePacket data).error = "" ↔ ∃ bytes, PacketAt data bytes
  payload : ∀ bytes, PacketAt data bytes → (parsePacket data).payload = bytes

/-- No byte of the length field is its last one, and as many bytes as it counts are there. -/
inductive Misread : List UInt8 → Prop
  | mk {first : UInt8} {tail : List UInt8} (some_byte : tail ≠ [])
      (endless : ∀ b ∈ tail.take 4, 128 ≤ b.toNat)
      (fits : value (tail.take 4) ≤ (tail.drop 4).length) : Misread (first :: tail)

/-! ## Fields with an end -/

theorem parsePacket_of_packetAt {data bytes : List UInt8} (h : PacketAt data bytes) :
    (parsePacket data).error = "" ∧ (parsePacket data).payload = bytes := by
  obtain ⟨terminated, short, size⟩ := h
  rename_i first field rest
  have fits : ¬ value field > (bytes ++ rest).length := by
    rw [List.length_append, size]
    omega
  rw [parsePacket_field _ terminated short, if_neg fits, ← size, List.take_left]
  exact ⟨rfl, rfl⟩

theorem incomplete_ne : "Invalid remaining length or incomplete packet" ≠ "" := by decide

theorem readsPacket_of_terminated (first : UInt8) {field : List UInt8} (h : Terminated field)
    (short : field.length ≤ 4) (body : List UInt8) : ReadsPacket (first :: (field ++ body)) := by
  refine ⟨⟨fun fine => ?_, fun ⟨bytes, packet⟩ => (parsePacket_of_packetAt packet).1⟩,
    fun bytes packet => (parsePacket_of_packetAt packet).2⟩
  rw [parsePacket_field first h short] at fine
  split at fine
  · exact absurd fine incomplete_ne
  · rename_i fits
    have packet := @PacketAt.mk first field (body.take (value field)) (body.drop (value field)) h
      short (List.length_take_of_le (Nat.not_lt.mp fits))
    rw [List.take_append_drop] at packet
    exact ⟨_, packet⟩

/-! ## Fields without one -/

/-- Without a terminator the decoder takes what there is, up to four bytes. -/
theorem decodeRemainingLength_endless {tail : List UInt8}
    (endless : ∀ b ∈ tail.take 4, 128 ≤ b.toNat) :
    decodeRemainingLength tail = ((tail.take 4).length, UInt32.ofNat (value (tail.take 4))) := by
  have short : 0 + (tail.take 4).length ≤ 4 := by
    have := List.length_take_le 4 tail
    omega
  have counted := decodeLoop_more endless (tail.drop 4) short 0 1
  rw [List.take_append_drop, UInt32.zero_add, UInt32.mul_one, UInt32.mul_one, Nat.zero_add]
    at counted
  rw [decodeRemainingLength, counted]
  cases behind : tail.drop 4 with
  | nil => rfl
  | cons byte rest =>
    have four : (tail.take 4).length = 4 := by
      have := congrArg List.length behind
      rw [List.length_drop, List.length_cons] at this
      rw [List.length_take]
      omega
    rw [decodeLoop, if_neg (by omega)]

theorem error_endless_iff {first : UInt8} {tail : List UInt8} (some_byte : tail ≠ [])
    (endless : ∀ b ∈ tail.take 4, 128 ≤ b.toNat) :
    (parsePacket (first :: tail)).error = "" ↔ value (tail.take 4) ≤ (tail.drop 4).length := by
  obtain ⟨second, rest, rfl⟩ := List.exists_cons_of_ne_nil some_byte
  have small : (UInt32.ofNat (value ((second :: rest).take 4))).toNat =
      value ((second :: rest).take 4) := by
    have below := value_lt ((second :: rest).take 4)
    have widest := Nat.pow_le_pow_right (show 0 < 128 by decide)
      (List.length_take_le 4 (second :: rest))
    rw [UInt32.toNat_ofNat']
    omega
  have whole : ((second :: rest).take 4).length + ((second :: rest).drop 4).length =
      (second :: rest).length := by
    rw [← List.length_append, List.take_append_drop]
  have positive : 0 < ((second :: rest).take 4).length := by simp
  simp only [parsePacket, decodeRemainingLength_endless endless, small]
  split
  · rename_i cut
    rw [List.length_cons, ← whole] at cut
    refine iff_of_false incomplete_ne ?_
    omega
  · rename_i whole_packet
    rw [List.length_cons, ← whole] at whole_packet
    refine iff_of_true rfl ?_
    omega

theorem not_packetAt_of_endless {first : UInt8} {tail bytes : List UInt8}
    (endless : ∀ b ∈ tail.take 4, 128 ≤ b.toNat) : ¬ PacketAt (first :: tail) bytes := by
  rintro ⟨terminated, short, -⟩
  rename_i field rest
  obtain ⟨more, last, rfl, hlast, -⟩ := terminated.eq_concat
  have inside : last ∈ ((more ++ [last]) ++ (bytes ++ rest)).take 4 := by
    rw [List.take_append, List.take_of_length_le short]
    simp
  have := endless last inside
  omega

/-! ## Every buffer -/

/-- **Which buffers are read as the packet they start with.** All of them, but where the
length field is cut off or too long and what it counts is there. -/
theorem readsPacket_iff (data : List UInt8) : ReadsPacket data ↔ ¬ Misread data := by
  constructor
  · rintro reads ⟨some_byte, endless, fits⟩
    obtain ⟨bytes, packet⟩ := reads.complete.mp ((error_endless_iff some_byte endless).mpr fits)
    exact not_packetAt_of_endless endless packet
  · intro fine
    cases data with
    | nil => exact ⟨⟨fun h => absurd h (by decide), nofun⟩, nofun⟩
    | cons first tail =>
      rcases terminated_or_endless tail 4 with ⟨field, rest, rfl, terminated, short⟩ | endless
      · exact readsPacket_of_terminated first terminated short rest
      · have none : ¬ ∃ bytes, PacketAt (first :: tail) bytes :=
          fun ⟨bytes, packet⟩ => not_packetAt_of_endless endless packet
        refine ⟨iff_of_false ?_ none, fun bytes packet => absurd ⟨bytes, packet⟩ none⟩
        by_cases some_byte : tail = []
        · subst some_byte
          change ¬ "Packet too small" = ""
          decide
        · rw [error_endless_iff some_byte endless]
          exact fun fits => fine (.mk some_byte endless fits)

/-- A length field of which only the first byte came. -/
theorem misread_cutOff :
    (parsePacket [0x30, 0x80]).error = "" ∧ ¬ ReadsPacket [0x30, 0x80] := by
  have fine : (parsePacket [0x30, 0x80]).error = "" := by decide
  refine ⟨fine, fun reads => ?_⟩
  obtain ⟨bytes, packet⟩ := reads.complete.mp fine
  exact not_packetAt_of_endless (by simp) packet

end MidnightSdk.Protocols.Mqtt
