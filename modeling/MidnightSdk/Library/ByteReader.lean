import MidnightSdk.Library.Cpp
import MidnightSdk.Library.LittleEndian

/-!
# Reading a byte vector through an offset

A reader holds a reference to a vector and a 64-bit offset into it. A call
returns a value, throws, or reads outside the vector; the offset keeps whatever
was written to it before an exception.
-/

namespace MidnightSdk.ByteReader

open Cpp LittleEndian

/-- A byte vector, no longer than a vector can be. -/
structure Buffer where
  bytes : List UInt8
  small : bytes.length < 2 ^ 63

def Buffer.size (buf : Buffer) : UInt64 := UInt64.ofNat buf.bytes.length

inductive Outcome (α : Type) where
  | ok (a : α) (offset : UInt64)
  | throws (e : Exception) (offset : UInt64)
  | outOfBounds (index : UInt64)
  deriving DecidableEq, Repr

def Reader (α : Type) := Buffer → UInt64 → Outcome α

instance : Monad Reader where
  pure a := fun _ offset => .ok a offset
  bind r f := fun buf offset =>
    match r buf offset with
    | .ok a offset' => f a buf offset'
    | .throws e offset' => .throws e offset'
    | .outOfBounds index => .outOfBounds index

/-! ## Primitive readers -/

def offset : Reader UInt64 := fun _ o => .ok o o

/-- `offset += n` -/
def advance (n : UInt64) : Reader Unit := fun _ o => .ok () (o + n)

/-- `data[index]` -/
def byteAt (index : UInt64) : Reader UInt8 := fun buf o =>
  match buf.bytes[index.toNat]? with
  | some b => .ok b o
  | none => .outOfBounds index

/-- `if (offset + needed > data.size()) throw e` -/
def require (e : Exception) (needed : UInt64) : Reader Unit := fun buf o =>
  if o + needed > buf.size then .throws e o else .ok () o

/-- A new vector from the range between two indices. Its size is their
difference in 64 bits, and more than a vector can hold throws. -/
def copyRange (first last : UInt64) : Reader (List UInt8) := fun buf o =>
  if (last - first).toNat ≥ 2 ^ 63 then
    .throws (.lengthError "cannot create std::vector larger than max_size()") o
  else if last > buf.size then .outOfBounds buf.size
  else .ok ((buf.bytes.drop first.toNat).take (last - first).toNat) o

/-! ## Running them -/

section Run
variable {α β : Type} {buf : Buffer} {o : UInt64}

@[simp] theorem pure_run (a : α) : (pure a : Reader α) buf o = .ok a o := rfl

theorem bind_run (r : Reader α) (f : α → Reader β) :
    (r >>= f) buf o = match r buf o with
      | .ok a offset' => f a buf offset'
      | .throws e offset' => .throws e offset'
      | .outOfBounds index => .outOfBounds index := rfl

theorem bind_of_ok {r : Reader α} {f : α → Reader β} {a : α} {o' : UInt64} (h : r buf o = .ok a o') :
    (r >>= f) buf o = f a buf o' := by
  rw [bind_run, h]

theorem bind_of_throws {r : Reader α} {f : α → Reader β} {e : Exception} {o' : UInt64}
    (h : r buf o = .throws e o') : (r >>= f) buf o = .throws e o' := by
  rw [bind_run, h]

theorem bind_of_outOfBounds {r : Reader α} {f : α → Reader β} {index : UInt64}
    (h : r buf o = .outOfBounds index) : (r >>= f) buf o = .outOfBounds index := by
  rw [bind_run, h]

@[simp] theorem offset_bind (f : UInt64 → Reader β) : (offset >>= f) buf o = f o buf o := rfl

@[simp] theorem advance_bind (n : UInt64) (f : Unit → Reader β) :
    (advance n >>= f) buf o = f () buf (o + n) := rfl

theorem Buffer.toNat_size (buf : Buffer) : buf.size.toNat = buf.bytes.length := by
  have := buf.small
  rw [size, UInt64.toNat_ofNat']
  omega

end Run

/-! ## Reading a known front

What a reader does when the bytes at its offset are known. Readers that consume
exactly what they read compose. -/

/-- At bytes starting with these, the reader returns the value and moves past them. -/
def Reads {α : Type} (r : Reader α) (xs : List UInt8) (a : α) : Prop :=
  ∀ (buf : Buffer) (o : UInt64) (tail : List UInt8), o.toNat ≤ buf.bytes.length →
    buf.bytes.drop o.toNat = xs ++ tail → r buf o = .ok a (o + UInt64.ofNat xs.length)

section Front
variable {α β : Type} {buf : Buffer} {o : UInt64} {xs tail : List UInt8}

theorem front_le (ho : o.toNat ≤ buf.bytes.length) (h : buf.bytes.drop o.toNat = xs ++ tail) :
    o.toNat + xs.length ≤ buf.bytes.length := by
  have := congrArg List.length h
  rw [List.length_drop, List.length_append] at this
  omega

/-- Offsets inside the vector do not wrap. -/
theorem toNat_add_front (ho : o.toNat ≤ buf.bytes.length)
    (h : buf.bytes.drop o.toNat = xs ++ tail) :
    (o + UInt64.ofNat xs.length).toNat = o.toNat + xs.length := by
  have := front_le ho h
  have := buf.small
  rw [UInt64.toNat_add, UInt64.toNat_ofNat']
  omega

theorem drop_front (ho : o.toNat ≤ buf.bytes.length) (h : buf.bytes.drop o.toNat = xs ++ tail) :
    buf.bytes.drop (o + UInt64.ofNat xs.length).toNat = tail := by
  rw [toNat_add_front ho h, ← List.drop_drop, h, List.drop_left' rfl]

theorem Reads.pure (a : α) : Reads (Pure.pure a : Reader α) [] a := by
  intro buf o tail _ _
  simp

theorem Reads.bind {r : Reader α} {f : α → Reader β} {a : α} {b : β} {ys : List UInt8}
    (hr : Reads r xs a) (hf : Reads (f a) ys b) : Reads (r >>= f) (xs ++ ys) b := by
  intro buf o tail ho h
  rw [List.append_assoc] at h
  rw [bind_of_ok (hr buf o _ ho h)]
  have next : (o + UInt64.ofNat xs.length).toNat ≤ buf.bytes.length := by
    rw [toNat_add_front ho h]
    exact front_le ho h
  rw [hf buf _ tail next (drop_front ho h), List.length_append, UInt64.ofNat_add, UInt64.add_assoc]

theorem Reads.map {r : Reader α} {a : α} (h : Reads r xs a) (f : α → β) :
    Reads (r >>= fun a => Pure.pure (f a)) xs (f a) := by
  have wrapped := Reads.bind (f := fun a => Pure.pure (f a)) h (Reads.pure (f a))
  rwa [List.append_nil] at wrapped

theorem byteAt_front {k : UInt64} {b : UInt8} (ho : o.toNat ≤ buf.bytes.length)
    (h : buf.bytes.drop o.toNat = xs ++ tail) (hb : xs[k.toNat]? = some b) (o' : UInt64) :
    byteAt (o + k) buf o' = .ok b o' := by
  obtain ⟨hlt, hget⟩ := List.getElem?_eq_some_iff.mp hb
  have := front_le ho h
  have := buf.small
  have index : (o + k).toNat = o.toNat + k.toNat := by
    rw [UInt64.toNat_add]
    omega
  have found : buf.bytes[(o + k).toNat]? = some b := by
    rw [index, ← List.getElem?_drop, h, List.getElem?_append_left hlt, hb]
  simp only [byteAt, found]

theorem require_front {e : Exception} (ho : o.toNat ≤ buf.bytes.length)
    (h : buf.bytes.drop o.toNat = xs ++ tail) {needed : UInt64} (hn : needed.toNat ≤ xs.length) :
    require e needed buf o = .ok () o := by
  have := front_le ho h
  have := buf.small
  apply if_neg
  rw [gt_iff_lt, UInt64.lt_iff_toNat_lt, UInt64.toNat_add, buf.toNat_size]
  omega

theorem require_short {e : Exception} (ho : o.toNat ≤ buf.bytes.length) {needed : UInt64}
    (hn : needed.toNat < 2 ^ 63) (h : buf.bytes.length < o.toNat + needed.toNat) :
    require e needed buf o = .throws e o := by
  have := buf.small
  apply if_pos
  rw [gt_iff_lt, UInt64.lt_iff_toNat_lt, UInt64.toNat_add, buf.toNat_size]
  omega

theorem copyRange_front (ho : o.toNat ≤ buf.bytes.length) (h : buf.bytes.drop o.toNat = xs ++ tail)
    {len : UInt64} (hlen : len.toNat = xs.length) :
    copyRange o (o + len) buf o = .ok xs o := by
  have inside := front_le ho h
  have small := buf.small
  have span : o + len - o = len := by
    rw [UInt64.add_comm, UInt64.add_sub_cancel]
  have last : ¬ o + len > buf.size := by
    rw [gt_iff_lt, UInt64.lt_iff_toNat_lt, UInt64.toNat_add, buf.toNat_size]
    omega
  rw [copyRange, span, if_neg (by omega), if_neg last, h, hlen, List.take_left' rfl]

end Front

/-! ## Gathering a little-endian word -/

/-- Or the bytes from `start` on into a word, `k` of them from the `i`th. Bytes
past the eighth are read and dropped. -/
def orBytes (start : UInt64) (i : Nat) (acc : UInt64) : Nat → Reader UInt64
  | 0 => pure acc
  | k + 1 => do
    let b ← byteAt (start + UInt64.ofNat i)
    orBytes start (i + 1) (if i < 8 then acc ||| b.toUInt64 <<< UInt64.ofNat (i * 8) else acc) k

theorem or_byte {i : Nat} (hi : i < 8) {acc : UInt64} (hacc : acc.toNat < 256 ^ i) (b : UInt8) :
    (acc ||| b.toUInt64 <<< UInt64.ofNat (i * 8)).toNat = acc.toNat + 256 ^ i * b.toNat := by
  have shift : (UInt64.ofNat (i * 8)).toNat % 64 = 8 * i := by
    rw [UInt64.toNat_ofNat']
    omega
  have fits : b.toNat <<< (8 * i) < 2 ^ 64 := by
    rw [Nat.shiftLeft_eq]
    calc b.toNat * 2 ^ (8 * i) < 2 ^ 8 * 2 ^ (8 * i) :=
          Nat.mul_lt_mul_of_pos_right b.toNat_lt (Nat.two_pow_pos _)
      _ = 2 ^ (8 + 8 * i) := (Nat.pow_add ..).symm
      _ ≤ 2 ^ 64 := Nat.pow_le_pow_right (by decide) (by omega)
  rw [pow_256] at hacc ⊢
  rw [UInt64.toNat_or, UInt64.toNat_shiftLeft, shift, UInt8.toNat_toUInt64, Nat.mod_eq_of_lt fits,
    or_shiftLeft hacc]

/-- The loop carries the value of the bytes it has read, up to eight of them. -/
theorem orBytes_front {buf : Buffer} {start : UInt64} {xs tail : List UInt8}
    (hs : start.toNat ≤ buf.bytes.length) (h : buf.bytes.drop start.toNat = xs ++ tail)
    (o : UInt64) {k i : Nat} (hk : i + k = xs.length) {acc : UInt64}
    (hacc : acc.toNat = leValue (xs.take (min i 8))) :
    orBytes start i acc k buf o = .ok (UInt64.ofNat (leValue (xs.take 8))) o := by
  induction k generalizing i acc with
  | zero =>
    have all : xs.take (min i 8) = xs.take 8 := by
      rcases Nat.le_total i 8 with h8 | h8
      · rw [Nat.min_eq_left h8, List.take_of_length_le (by omega), List.take_of_length_le (by omega)]
      · rw [Nat.min_eq_right h8]
    rw [orBytes, pure_run, ← all, ← hacc, UInt64.ofNat_toNat]
  | succ k ih =>
    have small := buf.small
    have inside := front_le hs h
    have hi : i < xs.length := by omega
    have index : (UInt64.ofNat i).toNat = i := by
      rw [UInt64.toNat_ofNat']
      omega
    have read : byteAt (start + UInt64.ofNat i) buf o = .ok xs[i] o :=
      byteAt_front hs h (by rw [index, List.getElem?_eq_getElem hi]) o
    rw [orBytes, bind_of_ok read]
    apply ih (by omega)
    by_cases h8 : i < 8
    · rw [if_pos h8]
      rw [Nat.min_eq_left (by omega)] at hacc ⊢
      have bound : acc.toNat < 256 ^ i := by
        have := leValue_lt (xs.take i)
        rw [List.length_take_of_le (by omega)] at this
        omega
      rw [or_byte h8 bound, hacc, List.take_add_one, List.getElem?_eq_getElem hi, Option.toList_some,
        leValue_concat, List.length_take_of_le (by omega)]
    · rw [if_neg h8]
      rw [Nat.min_eq_right (by omega)] at hacc ⊢
      exact hacc

/-- The whole loop, from an empty word. -/
theorem orBytes_all {buf : Buffer} {start : UInt64} {xs tail : List UInt8}
    (hs : start.toNat ≤ buf.bytes.length) (h : buf.bytes.drop start.toNat = xs ++ tail)
    (o : UInt64) {k : Nat} (hk : k = xs.length) :
    orBytes start 0 0 k buf o = .ok (UInt64.ofNat (leValue (xs.take 8))) o :=
  orBytes_front hs h o (by omega) rfl

/-- A loop that starts inside the vector and runs past its end reads outside. -/
theorem orBytes_outOfBounds {buf : Buffer} {start : UInt64} (o : UInt64) {k i : Nat} {acc : UInt64}
    (hs : start.toNat + i ≤ buf.bytes.length) (hk : buf.bytes.length < start.toNat + i + k) :
    ∃ index, orBytes start i acc k buf o = .outOfBounds index := by
  induction k generalizing i acc with
  | zero => omega
  | succ k ih =>
    have small := buf.small
    have index : (start + UInt64.ofNat i).toNat = start.toNat + i := by
      rw [UInt64.toNat_add, UInt64.toNat_ofNat']
      omega
    rw [orBytes]
    cases hread : buf.bytes[(start + UInt64.ofNat i).toNat]? with
    | none =>
      refine ⟨start + UInt64.ofNat i, bind_of_outOfBounds ?_⟩
      simp only [byteAt, hread]
    | some b =>
      obtain ⟨hlt, -⟩ := List.getElem?_eq_some_iff.mp hread
      rw [bind_of_ok (show byteAt _ buf o = .ok b o by simp only [byteAt, hread])]
      exact ih (by omega) (by omega)

/-! ## Safe calls -/

/-- A call is safe when it reads inside the vector, leaves the offset inside,
and does not move it when it throws. -/
def Safe {α : Type} (buf : Buffer) (o : UInt64) : Outcome α → Prop
  | .ok _ o' => o'.toNat ≤ buf.bytes.length
  | .throws _ o' => o' = o
  | .outOfBounds _ => False

/-- A reader of exactly `n` bytes that checks for them first. -/
structure FixedWidth {α : Type} (e : Exception) (r : Reader α) (n : Nat) (value : List UInt8 → α) :
    Prop where
  reads : ∀ xs, xs.length = n → Reads r xs (value xs)
  short : ∀ (buf : Buffer) (o : UInt64), o.toNat ≤ buf.bytes.length →
    buf.bytes.length < o.toNat + n → r buf o = .throws e o

theorem safe_map {α β : Type} {r : Reader α} {buf : Buffer} {o : UInt64} (f : α → β) :
    Safe buf o ((r >>= fun a => pure (f a)) buf o) ↔ Safe buf o (r buf o) := by
  cases h : r buf o with
  | ok a o' => rw [bind_of_ok h]; rfl
  | throws e o' => rw [bind_of_throws h]; rfl
  | outOfBounds index => rw [bind_of_outOfBounds h]; rfl

/-- A reader that consumes what is there stays inside. -/
theorem Reads.safe {α : Type} {r : Reader α} {xs tail : List UInt8} {a : α} (h : Reads r xs a)
    {buf : Buffer} {o : UInt64} (ho : o.toNat ≤ buf.bytes.length)
    (hfront : buf.bytes.drop o.toNat = xs ++ tail) : Safe buf o (r buf o) := by
  rw [h buf o tail ho hfront]
  change (o + UInt64.ofNat _).toNat ≤ _
  rw [toNat_add_front ho hfront]
  exact front_le ho hfront

/-- With enough bytes left it reads the first of them. -/
theorem FixedWidth.take {α : Type} {e : Exception} {r : Reader α} {n : Nat} {value : List UInt8 → α}
    (h : FixedWidth e r n value) {buf : Buffer} {o : UInt64} (ho : o.toNat ≤ buf.bytes.length)
    {front : List UInt8} (hfront : buf.bytes.drop o.toNat = front) (hn : n ≤ front.length) :
    r buf o = .ok (value (front.take n)) (o + UInt64.ofNat (front.take n).length) := by
  have width : (front.take n).length = n := List.length_take_of_le hn
  have split : buf.bytes.drop o.toNat = front.take n ++ front.drop n := by
    rw [hfront, List.take_append_drop]
  exact h.reads _ width buf o _ ho split

theorem FixedWidth.safe {α : Type} {e : Exception} {r : Reader α} {n : Nat} {value : List UInt8 → α}
    (h : FixedWidth e r n value) {buf : Buffer} {o : UInt64} (ho : o.toNat ≤ buf.bytes.length) :
    Safe buf o (r buf o) := by
  by_cases hn : buf.bytes.length < o.toNat + n
  · rw [h.short buf o ho hn]
    rfl
  · have left : n ≤ (buf.bytes.drop o.toNat).length := by
      rw [List.length_drop]
      omega
    have split : buf.bytes.drop o.toNat =
        (buf.bytes.drop o.toNat).take n ++ (buf.bytes.drop o.toNat).drop n :=
      (List.take_append_drop n _).symm
    rw [h.take ho rfl left]
    change (o + UInt64.ofNat _).toNat ≤ _
    rw [toNat_add_front ho split]
    exact front_le ho split

/-- A reader that starts by checking for its bytes. -/
theorem FixedWidth.checked {α : Type} {e : Exception} {body : Unit → Reader α} {n : Nat}
    {value : List UInt8 → α} (hn : n < 2 ^ 63)
    (h : ∀ xs, xs.length = n → ∀ (buf : Buffer) (o : UInt64) (tail : List UInt8),
      o.toNat ≤ buf.bytes.length → buf.bytes.drop o.toNat = xs ++ tail →
      body () buf o = .ok (value xs) (o + UInt64.ofNat n)) :
    FixedWidth e (require e (UInt64.ofNat n) >>= body) n value := by
  have count : (UInt64.ofNat n).toNat = n := by
    rw [UInt64.toNat_ofNat']
    omega
  constructor
  · intro xs hxs buf o tail ho hfront
    rw [bind_of_ok (require_front ho hfront (by omega)), h xs hxs buf o tail ho hfront, hxs]
  · intro buf o ho hshort
    exact bind_of_throws (require_short ho (by omega) (by omega))

theorem FixedWidth.map {α β : Type} {e : Exception} {r : Reader α} {n : Nat} {value : List UInt8 → α}
    (h : FixedWidth e r n value) (f : α → β) :
    FixedWidth e (r >>= fun a => pure (f a)) n (f ∘ value) := by
  constructor
  · intro xs hxs buf o tail ho hfront
    rw [bind_of_ok (h.reads xs hxs buf o tail ho hfront)]
    rfl
  · intro buf o ho hshort
    exact bind_of_throws (h.short buf o ho hshort)

end MidnightSdk.ByteReader
