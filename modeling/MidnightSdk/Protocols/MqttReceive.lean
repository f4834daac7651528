import MidnightSdk.Library.Chunked
import MidnightSdk.Protocols.MqttProtocol

/-!
# Packets from a socket

The reader takes the fixed header byte by byte, then the body, and hands both to
the parser. It adds up the length itself, with a multiplier of eight bits.
-/

namespace MidnightSdk.Protocols.Mqtt

open Base128 Chunked

/-- What the socket still brings. -/
abbrev Socket : Type := Stream UInt8

/-- What the loop over the length leaves: the header array, its bytes in use and the length. -/
inductive LengthRead where
  | ok (header : List UInt8) (rlBytes : Nat) (remainingLen : UInt32) (rest : Socket)
  | failed
  | outOfBounds (index : Nat)
  deriving DecidableEq, Repr

/-- The `do … while` loop of `receive_packet`. A write behind the array ends the run. -/
def lengthLoop (s : Socket) (header : List UInt8) (rlBytes : Nat) (remainingLen : UInt32)
    (multiplier : UInt8) : LengthRead :=
  match recv 1 s with
  | ([], _) => .failed
  | (byte :: _, rest) =>
    if 1 + rlBytes < header.length then
      if rlBytes + 1 > 4 then .failed
      else if byte &&& 0x80 ≠ 0 then
        lengthLoop rest (header.set (1 + rlBytes) byte) (rlBytes + 1)
          (remainingLen + (byte &&& 0x7F).toUInt32 * multiplier.toUInt32) (multiplier * 128)
      else
        .ok (header.set (1 + rlBytes) byte) (rlBytes + 1)
          (remainingLen + (byte &&& 0x7F).toUInt32 * multiplier.toUInt32) rest
    else .outOfBounds (1 + rlBytes)
termination_by header.length - rlBytes
decreasing_by
  rw [List.length_set]
  omega

inductive Received where
  | packet (out : List UInt8) (rest : Socket)
  | failed
  | outOfBounds (index : Nat)
  deriving DecidableEq, Repr

/-- The header array has four bytes, which nothing has set yet. -/
def receivePacket (s : Socket) : Received :=
  match recv 1 s with
  | ([], _) => .failed
  | (first :: _, rest) =>
    match lengthLoop rest ([0, 0, 0, 0].set 0 first) 0 0 1 with
    | .failed => .failed
    | .outOfBounds index => .outOfBounds index
    | .ok header rlBytes remainingLen rest =>
      if remainingLen > 0 then
        match recvAll remainingLen.toNat rest with
        | none => .failed
        | some (payload, rest) => .packet (header.take (1 + rlBytes) ++ payload) rest
      else .packet (header.take (1 + rlBytes)) rest

theorem length_lengthLoop {s : Socket} {header : List UInt8} {rlBytes : Nat}
    {remainingLen : UInt32} {multiplier : UInt8} {header' : List UInt8} {rlBytes' : Nat}
    {remainingLen' : UInt32} {rest : Socket}
    (h : lengthLoop s header rlBytes remainingLen multiplier =
      .ok header' rlBytes' remainingLen' rest) : rest.flatten.length ≤ s.flatten.length := by
  fun_induction lengthLoop s header rlBytes remainingLen multiplier with
  | case1 | case2 | case5 => cases h
  | case3 s header rlBytes remainingLen multiplier byte front later hrecv hin hlong hmore ih =>
    have goneOn := ih h
    have taken := length_recv hrecv
    omega
  | case4 s header rlBytes remainingLen multiplier byte front later hrecv hin hlong hmore =>
    cases h
    have taken := length_recv hrecv
    omega

/-- Every packet takes something from the socket. -/
theorem length_receivePacket {s : Socket} {out : List UInt8} {rest : Socket}
    (h : receivePacket s = .packet out rest) : rest.flatten.length < s.flatten.length := by
  unfold receivePacket at h
  split at h
  · cases h
  · rename_i first front later hrecv
    have taken := length_recv hrecv
    rw [List.length_cons] at taken
    split at h
    · cases h
    · cases h
    · rename_i header rlBytes remainingLen behind hloop
      have looped := length_lengthLoop hloop
      split at h
      · split at h
        · cases h
        · rename_i payload left hall
          have all := length_recvAll hall
          cases h
          omega
      · cases h
        omega

/-- What the parser made of the packets, and the first access outside the header array. -/
structure Reading where
  parsed : List ParsedPacket
  outOfBounds : Option Nat
  deriving DecidableEq, Repr

def Reading.after (r : Reading) (packet : ParsedPacket) : Reading :=
  { r with parsed := packet :: r.parsed }

/-- `reader_loop` up to the first `receive_packet` that fails. -/
def readerLoop (s : Socket) : Reading :=
  match _h : receivePacket s with
  | .failed => ⟨[], none⟩
  | .outOfBounds index => ⟨[], some index⟩
  | .packet out rest => (readerLoop rest).after (parsePacket out)
termination_by s.flatten.length
decreasing_by exact length_receivePacket _h

theorem readerLoop_eq (s : Socket) : readerLoop s =
    match receivePacket s with
    | .failed => ⟨[], none⟩
    | .outOfBounds index => ⟨[], some index⟩
    | .packet out rest => (readerLoop rest).after (parsePacket out) := by
  rw [readerLoop]
  split <;> simp only [*]

/-! ## Packets on the wire -/

/-- A control packet with its length in at most four bytes, shortest or not. -/
structure WirePacket where
  type : PacketType
  flags : UInt8
  length : List UInt8
  body : List UInt8
  flags_lt : flags.toNat < 16
  terminated : Terminated length
  length_le : length.length ≤ 4
  counts : value length = body.length

def WirePacket.first (p : WirePacket) : UInt8 := p.type.code <<< 4 ||| p.flags

def WirePacket.bytes (p : WirePacket) : List UInt8 := p.first :: (p.length ++ p.body)

/-- The packet as the parser shall give it. -/
def WirePacket.parsed (p : WirePacket) : ParsedPacket :=
  { type := p.type, flags := p.flags, payload := p.body }

/-- Packets sent back to back. -/
def wire (ps : List WirePacket) : List UInt8 := ps.flatMap WirePacket.bytes

theorem first_parsed (p : WirePacket) :
    PacketType.ofNibble (p.first >>> 4) = p.type ∧ p.first &&& 0x0F = p.flags := by
  have both (t : PacketType) : ∀ flags : UInt8, flags.toNat < 16 →
      PacketType.ofNibble ((t.code <<< 4 ||| flags) >>> 4) = t ∧
        (t.code <<< 4 ||| flags) &&& 0x0F = flags := by
    cases t <;> exact Cpp.forall_byte (by decide +kernel)
  exact both p.type p.flags p.flags_lt

/-! ## The length as the reader adds it up -/

/-- The sum with a multiplier of eight bits. -/
def wrapped (multiplier : UInt8) : List UInt8 → UInt32
  | [] => 0
  | b :: bs => (b &&& 0x7F).toUInt32 * multiplier.toUInt32 + wrapped (multiplier * 128) bs

theorem wrapped_zero (field : List UInt8) : wrapped 0 field = 0 := by
  induction field with
  | nil => rfl
  | cons b bs ih =>
    have none : (0 : UInt8).toUInt32 = 0 := rfl
    rw [wrapped, UInt8.zero_mul, ih, none, UInt32.mul_zero, UInt32.add_zero]

/-- From the third byte on the multiplier is zero. -/
theorem wrapped_eq (field : List UInt8) : wrapped 1 field = UInt32.ofNat (value (field.take 2)) := by
  have digit (b : UInt8) : (b &&& 0x7F).toUInt32 = UInt32.ofNat (b.toNat % 128) := by
    apply UInt32.toNat_inj.mp
    rw [UInt8.toNat_toUInt32, toNat_and_0x7F, UInt32.toNat_ofNat']
    omega
  have first : (1 : UInt8).toUInt32 = 1 := rfl
  have second : (1 * 128 : UInt8).toUInt32 = 128 := rfl
  have third : (1 * 128 * 128 : UInt8) = 0 := rfl
  match field with
  | [] => rfl
  | [a] =>
    simp only [wrapped, value, List.take, digit, first, UInt32.mul_one, UInt32.add_zero,
      Nat.mul_zero, Nat.add_zero]
  | a :: b :: bs =>
    simp only [wrapped, value, List.take, digit, first, second, third, wrapped_zero, UInt32.mul_one,
      UInt32.add_zero, Nat.mul_zero, Nat.add_zero, UInt32.ofNat_add, UInt32.ofNat_mul]
    rw [UInt32.mul_comm]
    rfl

theorem take_set_succ {header : List UInt8} {i : Nat} (h : i < header.length) (b : UInt8) :
    (header.set i b).take (i + 1) = header.take i ++ [b] := by
  rw [List.take_add_one, List.take_set_of_le (Nat.le_refl i), List.getElem?_set_self h]
  rfl

/-- At most three bytes of length end up in the header array. -/
theorem lengthLoop_terminated {field : List UInt8} (h : Terminated field) {tail : List UInt8}
    {s : Socket} (hs : s.flatten = field ++ tail) (header : List UInt8) (i : Nat)
    (hi : i + field.length < header.length) (hheader : header.length ≤ 4) (remainingLen : UInt32)
    (multiplier : UInt8) :
    ∃ header' rest, lengthLoop s header i remainingLen multiplier =
        .ok header' (i + field.length) (remainingLen + wrapped multiplier field) rest ∧
      header'.take (1 + (i + field.length)) = header.take (1 + i) ++ field ∧ rest.flatten = tail := by
  induction h generalizing s header i remainingLen multiplier with
  | @last b hb =>
    rw [List.length_singleton] at hi ⊢
    obtain ⟨rest, hrecv, hrest⟩ := recv_one hs
    have ends : ¬ b &&& 0x80 ≠ 0 := not_not.mpr ((and_0x80_eq_zero b).mpr hb)
    refine ⟨header.set (1 + i) b, rest, ?_, ?_, hrest⟩
    · rw [lengthLoop, hrecv]
      simp only [if_pos (show 1 + i < header.length by omega),
        if_neg (show ¬ i + 1 > 4 by omega), if_neg ends, wrapped, UInt32.add_zero]
    · rw [← Nat.add_assoc]
      exact take_set_succ (by omega) b
  | @more b bs hb _ ih =>
    rw [List.length_cons] at hi ⊢
    obtain ⟨rest, hrecv, hrest⟩ := recv_one hs
    have goesOn : b &&& 0x80 ≠ 0 := by
      rw [ne_eq, and_0x80_eq_zero]
      omega
    obtain ⟨header', left, hloop, htake, hleft⟩ :=
      ih hrest (header.set (1 + i) b) (i + 1) (by rw [List.length_set]; omega)
        (by rwa [List.length_set])
        (remainingLen + (b &&& 0x7F).toUInt32 * multiplier.toUInt32) (multiplier * 128)
    have next : i + 1 + bs.length = i + (bs.length + 1) := by omega
    rw [next] at hloop htake
    refine ⟨header', left, ?_, ?_, hleft⟩
    · rw [lengthLoop, hrecv]
      simp only [if_pos (show 1 + i < header.length by omega),
        if_neg (show ¬ i + 1 > 4 by omega), if_pos goesOn, hloop, wrapped, UInt32.add_assoc]
    · rw [htake, ← Nat.add_assoc, take_set_succ (by omega) b, List.append_assoc,
        List.singleton_append]

/-- A fourth byte is written behind the header array. -/
theorem lengthLoop_outOfBounds {more : List UInt8} (h : ∀ b ∈ more, 128 ≤ b.toNat) {b : UInt8}
    {tail : List UInt8} {s : Socket} (hs : s.flatten = more ++ b :: tail) (header : List UInt8)
    (i : Nat) (hi : 1 + (i + more.length) = header.length) (hheader : header.length ≤ 4)
    (remainingLen : UInt32) (multiplier : UInt8) :
    lengthLoop s header i remainingLen multiplier = .outOfBounds header.length := by
  induction more generalizing s header i remainingLen multiplier with
  | nil =>
    obtain ⟨rest, hrecv, -⟩ := recv_one hs
    rw [List.length_nil, Nat.add_zero] at hi
    rw [lengthLoop, hrecv]
    simp only [hi, if_neg (Nat.lt_irrefl header.length)]
  | cons c more ih =>
    obtain ⟨hc, hmore⟩ := List.forall_mem_cons.mp h
    obtain ⟨rest, hrecv, hrest⟩ := recv_one hs
    have goesOn : c &&& 0x80 ≠ 0 := by
      rw [ne_eq, and_0x80_eq_zero]
      omega
    rw [List.length_cons] at hi
    have later := ih hmore hrest (header.set (1 + i) c) (i + 1)
      (by rw [List.length_set]; omega) (by rwa [List.length_set])
      (remainingLen + (c &&& 0x7F).toUInt32 * multiplier.toUInt32) (multiplier * 128)
    rw [List.length_set] at later
    rw [lengthLoop, hrecv]
    simp only [if_pos (show 1 + i < header.length by omega),
      if_neg (show ¬ i + 1 > 4 by omega), if_pos goesOn, later]

/-! ## One packet -/

variable {s : Socket} {tail : List UInt8}

/-- The length the reader arrives at. -/
def WirePacket.readLength (p : WirePacket) : Nat := value (p.length.take 2)

theorem readLength_le (p : WirePacket) : p.readLength ≤ p.body.length := by
  rw [← p.counts, value_take_two, WirePacket.readLength]
  exact Nat.le_add_right _ _

theorem readLength_eq_iff (p : WirePacket) :
    p.readLength = p.body.length ↔ p.body.length ≤ 16383 := by
  have below := value_take_two_lt p.length
  rw [← p.counts, value_take_two, WirePacket.readLength]
  omega

/-- A packet with a short length is taken up to the length the reader arrives at. -/
theorem receivePacket_short (p : WirePacket) (hs : s.flatten = p.bytes ++ tail)
    (h : p.length.length ≤ 3) :
    ∃ rest, receivePacket s = .packet (p.first :: (p.length ++ p.body.take p.readLength)) rest ∧
      rest.flatten = p.body.drop p.readLength ++ tail := by
  rw [WirePacket.bytes, List.cons_append, List.append_assoc] at hs
  obtain ⟨behind, hrecv, hbehind⟩ := recv_one hs
  obtain ⟨header, left, hloop, htake, hleft⟩ :=
    lengthLoop_terminated p.terminated hbehind ([0, 0, 0, 0].set 0 p.first) 0
      (by change 0 + p.length.length < 4; omega) (Nat.le_refl 4) 0 1
  have count : (UInt32.ofNat p.readLength).toNat = p.readLength := by
    have below := value_take_two_lt p.length
    rw [UInt32.toNat_ofNat', WirePacket.readLength]
    omega
  rw [UInt32.zero_add, wrapped_eq, ← WirePacket.readLength] at hloop
  have headed : header.take (1 + (0 + p.length.length)) = p.first :: p.length := htake
  rw [Nat.zero_add] at hloop headed
  by_cases hzero : p.readLength = 0
  · have none : ¬ UInt32.ofNat p.readLength > 0 := by
      rw [hzero]
      decide
    have taken : receivePacket s = .packet (p.first :: p.length) left := by
      simp only [receivePacket, hrecv, hloop, if_neg none, headed]
    refine ⟨left, ?_, by rw [hleft, hzero, List.drop_zero]⟩
    rw [taken, hzero, List.take_zero, List.append_nil]
  · have some : UInt32.ofNat p.readLength > 0 := by
      rw [gt_iff_lt, UInt32.lt_iff_toNat_lt, count]
      exact Nat.pos_of_ne_zero hzero
    have inside := readLength_le p
    obtain ⟨rest, hall, hrest⟩ := recvAll_front p.readLength (s := left)
      (by rw [hleft, List.length_append]; omega)
    refine ⟨rest, ?_, ?_⟩
    · simp only [receivePacket, hrecv, hloop, if_pos some, count, hall, headed, hleft,
        List.cons_append, List.take_append_of_le_length inside]
    · rw [hrest, hleft, List.drop_append_of_le_length inside]

/-- A fourth byte of length is written outside the header array, whatever follows. -/
theorem receivePacket_outOfBounds {first b : UInt8} {more : List UInt8} (hlen : more.length = 3)
    (hmore : ∀ x ∈ more, 128 ≤ x.toNat) (hs : s.flatten = first :: (more ++ b :: tail)) :
    receivePacket s = .outOfBounds 4 := by
  obtain ⟨behind, hrecv, hbehind⟩ := recv_one hs
  have loop := lengthLoop_outOfBounds hmore hbehind ([0, 0, 0, 0].set 0 first) 0
    (by rw [hlen]; rfl) (Nat.le_refl 4) 0 1
  simp only [receivePacket, hrecv, loop]
  rfl

/-- A length of four bytes has three that go on. -/
theorem receivePacket_long (p : WirePacket) (hs : s.flatten = p.bytes ++ tail)
    (h : ¬ p.length.length ≤ 3) : receivePacket s = .outOfBounds 4 := by
  obtain ⟨more, b, hlength, -, hmore⟩ := p.terminated.eq_concat
  have atMost := p.length_le
  rw [hlength, List.length_append, List.length_singleton] at h atMost
  have bytes : s.flatten = p.first :: (more ++ b :: (p.body ++ tail)) := by
    rw [hs, WirePacket.bytes, hlength, List.cons_append, List.append_assoc, List.append_assoc,
      List.singleton_append]
  exact receivePacket_outOfBounds (show more.length = 3 by omega) hmore bytes

/-- What the parser makes of what was taken. -/
theorem parsePacket_taken (p : WirePacket) :
    parsePacket (p.first :: (p.length ++ p.body.take p.readLength)) =
      if p.body.length ≤ 16383 then p.parsed
      else { p.parsed with
        payload := [], error := "Invalid remaining length or incomplete packet" } := by
  have inside := readLength_le p
  have exact_iff := readLength_eq_iff p
  obtain ⟨htype, hflags⟩ := first_parsed p
  rw [parsePacket_field p.first p.terminated p.length_le, htype, hflags, p.counts,
    List.length_take_of_le inside, List.take_take]
  by_cases h : p.body.length ≤ 16383
  · have all : p.readLength = p.body.length := exact_iff.mpr h
    rw [if_neg (by omega), if_pos h, all, Nat.min_self, List.take_length]
    rfl
  · rw [if_pos (by omega), if_neg h]
    rfl

/-! ## Streams of packets -/

/-- The lengths the reader gets right: at most three bytes, of a value below 128 squared. -/
def WirePacket.Short (p : WirePacket) : Prop := p.length.length ≤ 3 ∧ p.body.length ≤ 16383

/-- In the shortest form the value alone decides. -/
theorem short_iff_of_encode {p : WirePacket} (h : p.length = encode p.body.length) :
    p.Short ↔ p.body.length ≤ 16383 := by
  refine ⟨fun hshort => hshort.2, fun hbody => ⟨?_, hbody⟩⟩
  rw [h]
  exact Nat.le_succ_of_le (length_encode_le (k := 1) (by omega))

theorem reading_after_iff {r : Reading} {packet : ParsedPacket} {packets : List ParsedPacket} :
    r.after packet = ⟨packet :: packets, none⟩ ↔ r = ⟨packets, none⟩ := by
  obtain ⟨parsed, outOfBounds⟩ := r
  simp only [Reading.after, Reading.mk.injEq, List.cons.injEq, true_and]

theorem readerLoop_wire (ps : List WirePacket) (hs : s.flatten = wire ps) :
    readerLoop s = ⟨ps.map WirePacket.parsed, none⟩ ↔ ∀ p ∈ ps, p.Short := by
  induction ps generalizing s with
  | nil =>
    have ended : receivePacket s = .failed := by
      have nothing : recv 1 s = ([], (recv 1 s).2) := Prod.ext (recv_nil hs) rfl
      rw [receivePacket, nothing]
    rw [readerLoop_eq, ended]
    exact iff_of_true rfl nofun
  | cons p ps ih =>
    rw [List.forall_mem_cons, readerLoop_eq]
    by_cases hlen : p.length.length ≤ 3
    · obtain ⟨rest, hreceive, hrest⟩ := receivePacket_short p hs hlen
      rw [hreceive]
      simp only [parsePacket_taken]
      by_cases hbody : p.body.length ≤ 16383
      · have taken := (readLength_eq_iff p).mpr hbody
        rw [taken, List.drop_length, List.nil_append] at hrest
        rw [if_pos hbody, and_iff_right ⟨hlen, hbody⟩, ← ih hrest, List.map_cons]
        exact reading_after_iff
      · rw [if_neg hbody, List.map_cons]
        refine iff_of_false ?_ (fun hshort => hbody hshort.1.2)
        intro h
        have first := congrArg Reading.parsed h
        have error : "Invalid remaining length or incomplete packet" = "" :=
          congrArg ParsedPacket.error (List.cons.inj first).1
        exact absurd error (by decide)
    · rw [receivePacket_long p hs hlen]
      exact iff_of_false (fun h => nomatch congrArg Reading.outOfBounds h)
        (fun hshort => hlen hshort.1.1)

/-- **The reader yields exactly the packets on the wire, however they are cut, when all
their lengths are short**, and every longer length field runs out of the header array. -/
theorem readsExactly_iff (ps : List WirePacket) (s : Socket) (hs : s.flatten = wire ps) :
    (readerLoop s = ⟨ps.map WirePacket.parsed, none⟩ ↔ ∀ p ∈ ps, p.Short) ∧
    ∀ (first : UInt8) (more tail : List UInt8) (s' : Socket), 5 ≤ more.length →
      (∀ b ∈ more, 128 ≤ b.toNat) → s'.flatten = first :: (more ++ tail) →
      receivePacket s' = .outOfBounds 4 := by
  refine ⟨readerLoop_wire ps hs, ?_⟩
  intro first more tail s' hlen hmore hs'
  match more, hlen, hmore with
  | a :: b :: c :: d :: more, _, hmore =>
    have three : ∀ x ∈ [a, b, c], 128 ≤ x.toNat := by
      intro x hx
      exact hmore x (List.mem_append_left (d :: more) hx)
    exact receivePacket_outOfBounds rfl three hs'

def pingResponse : WirePacket where
  type := .PINGRESP
  flags := 0
  length := [0]
  body := []
  flags_lt := by decide
  terminated := .last (by decide)
  length_le := by decide
  counts := rfl

theorem readsExactly_iff_pingResponses :
    (readerLoop [[0xD0], [0, 0xD0], [], [0]] =
        ⟨[pingResponse, pingResponse].map WirePacket.parsed, none⟩ ↔
      ∀ p ∈ [pingResponse, pingResponse], p.Short) ∧
    receivePacket [[0x30, 0xFF, 0xFF], [0xFF, 0xFF, 0xFF, 0x7F]] = .outOfBounds 4 :=
  have both := readsExactly_iff [pingResponse, pingResponse] [[0xD0], [0, 0xD0], [], [0]] rfl
  ⟨both.1, both.2 0x30 [0xFF, 0xFF, 0xFF, 0xFF, 0xFF] [0x7F]
    [[0x30, 0xFF, 0xFF], [0xFF, 0xFF, 0xFF, 0x7F]] (by decide) (by simp) rfl⟩

/-- A message of 16381 bytes under the topic "a". -/
def longPublish : WirePacket where
  type := .PUBLISH
  flags := 0
  length := [0x80, 0x80, 0x01]
  body := 0 :: 1 :: 97 :: List.replicate 16381 0
  flags_lt := by decide
  terminated := .more (by decide) (.more (by decide) (.last (by decide)))
  length_le := by decide
  counts := by
    rw [List.length_cons, List.length_cons, List.length_cons, List.length_replicate]
    rfl

theorem longPublish_lost :
    readerLoop [longPublish.bytes] ≠ ⟨[longPublish.parsed], none⟩ := by
  intro h
  have whole : [longPublish.bytes].flatten = wire [longPublish] := rfl
  have short := (readerLoop_wire [longPublish] whole).mp h longPublish List.mem_cons_self
  have total : value longPublish.length = 16384 := rfl
  have counted := longPublish.counts
  have bound := short.2
  omega

end MidnightSdk.Protocols.Mqtt
