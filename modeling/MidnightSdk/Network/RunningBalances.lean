import Mathlib.Algebra.Ring.Int.Defs
import MidnightSdk.Library.Tally
import MidnightSdk.Network.GraphqlSubscription

/-!
# What the running balances hold

The two balances and the number of outputs are three counters moved the same way. They
hold what was created less what was spent as long as no message spends more than is
there with what it creates; what a counter cannot give is never taken off later.
-/

namespace MidnightSdk.Network

open Cpp Words

inductive Counter where
  | night
  | dust
  | outputs
  deriving DecidableEq, Repr

namespace Counter

def held : Counter → GraphQLSubscriptionClient → UInt64
  | night, client => client.nightBalance
  | dust, client => client.dustBalance
  | outputs, client => client.utxoCount

/-- What an output counts for. -/
def weight : Counter → UtxoEvent → UInt64
  | night, utxo => if Watched.isNight utxo then utxo.amount else 0
  | dust, utxo => if utxo.tokenType = "DUST" then utxo.amount else 0
  | outputs, _ => 1

end Counter

def Message.created : Message → List UtxoEvent
  | .transaction evt => evt.created
  | _ => []

def Message.spent : Message → List UtxoEvent
  | .transaction evt => evt.spent
  | _ => []

/-! ## Moving the counters -/

section Moving

variable {ρ : Type} (calls : Callbacks ρ) (counter : Counter)

theorem isNight_dust {utxo : UtxoEvent} (h : utxo.tokenType = "DUST") :
    Watched.isNight utxo = false := by
  rw [Watched.isNight, h]
  decide

theorem held_credit (w : Watched ρ) (utxo : UtxoEvent) :
    counter.held (w.credit calls utxo).client = counter.held w.client + counter.weight utxo := by
  unfold Watched.credit
  by_cases hdust : utxo.tokenType = "DUST"
  · cases counter <;> simp [Counter.held, Counter.weight, isNight_dust hdust, hdust]
  · cases hnight : Watched.isNight utxo <;> cases counter <;>
      simp [Counter.held, Counter.weight, hnight, hdust]

theorem held_debit (w : Watched ρ) (utxo : UtxoEvent) :
    counter.held (w.debit utxo).client =
      Tally.takeOff (counter.held w.client) (counter.weight utxo) := by
  unfold Watched.debit
  cases counter with
  | outputs =>
    simp only [Counter.held, Counter.weight, Tally.takeOff_one]
    split
    · rfl
    · split <;> rfl
  | night =>
    cases hnight : Watched.isNight utxo with
    | true => simp only [Counter.held, Counter.weight, hnight, if_true, Tally.takeOff]
    | false =>
      simp only [Counter.held, Counter.weight, hnight, Bool.false_eq_true, if_false,
        Tally.takeOff_zero]
      split <;> rfl
  | dust =>
    by_cases hdust : utxo.tokenType = "DUST"
    · simp only [Counter.held, Counter.weight, isNight_dust hdust, hdust, Bool.false_eq_true,
        if_false, if_true, Tally.takeOff]
    · simp only [Counter.held, Counter.weight, hdust, if_false, Tally.takeOff_zero]
      split <;> rfl

theorem held_foldl_credit (w : Watched ρ) (created : List UtxoEvent) :
    counter.held (created.foldl (Watched.credit calls) w).client =
      (created.map counter.weight).foldl (· + ·) (counter.held w.client) := by
  induction created generalizing w with
  | nil => rfl
  | cons utxo created ih =>
    rw [List.foldl_cons, ih, held_credit]
    rfl

theorem held_foldl_debit (w : Watched ρ) (spent : List UtxoEvent) :
    counter.held (spent.foldl Watched.debit w).client =
      (spent.map counter.weight).foldl Tally.takeOff (counter.held w.client) := by
  induction spent generalizing w with
  | nil => rfl
  | cons utxo spent ih =>
    rw [List.foldl_cons, ih, held_debit]
    rfl

theorem held_apply (w : Watched ρ) (message : Message) :
    counter.held (message.apply calls w).client =
      Tally.after (counter.held w.client) (message.created.map counter.weight)
        (message.spent.map counter.weight) := by
  cases message with
  | other => rfl
  | progress highestId => cases counter <;> rfl
  | transaction evt =>
    have moved : counter.held
        (evt.spent.foldl Watched.debit (evt.created.foldl (Watched.credit calls) w)).client =
        Tally.after (counter.held w.client) (evt.created.map counter.weight)
          (evt.spent.map counter.weight) := by
      rw [held_foldl_debit, held_foldl_credit]
      rfl
    simp only [Message.apply, Message.created, Message.spent]
    split
    · exact moved
    · rw [← moved]
      cases counter <;> rfl

end Moving

/-! ## Totals -/

section Totals

variable (throughDouble : ThroughDouble)

def createdIn (data : Json) : List UtxoEvent :=
  match readMessage throughDouble data with
  | .ok message => message.created
  | .error _ => []

def spentIn (data : Json) : List UtxoEvent :=
  match readMessage throughDouble data with
  | .ok message => message.spent
  | .error _ => []

def Counter.total (counter : Counter) (utxos : List UtxoEvent) : Int :=
  exactSum (utxos.map counter.weight)

/-- What some messages create, less what they spend. -/
def Counter.net (counter : Counter) (datas : List Json) : Int :=
  (datas.map fun data =>
    counter.total (createdIn throughDouble data) - counter.total (spentIn throughDouble data)).sum

theorem Counter.net_snoc (counter : Counter) (seen : List Json) (data : Json) :
    counter.net throughDouble (seen ++ [data]) = counter.net throughDouble seen +
      (counter.total (createdIn throughDouble data) - counter.total (spentIn throughDouble data)) := by
  simp only [Counter.net, List.map_append, List.sum_append, List.map_cons, List.map_nil,
    List.sum_singleton]

/-- The order of the messages does not matter for what they make. -/
theorem Counter.net_perm (counter : Counter) {order datas : List Json} (h : order.Perm datas) :
    counter.net throughDouble order = counter.net throughDouble datas :=
  (h.map _).sum_eq

/-- Every counter holds what some messages create, less what they spend. -/
def HoldsNet (datas : List Json) (client : GraphQLSubscriptionClient) : Prop :=
  ∀ counter : Counter, ((counter.held client).toNat : Int) = counter.net throughDouble datas

/-- No message spends more than the messages before it left and it creates itself, and
what there is fits in 64 bits, or is all spent. -/
def NeverShort (datas : List Json) : Prop :=
  ∀ seen data, seen ++ [data] <+: datas → ∀ counter : Counter,
    Tally.Covers (counter.net throughDouble seen) (counter.total (createdIn throughDouble data))
      (counter.total (spentIn throughDouble data))

end Totals

/-! ## Runs -/

section Runs

variable {ρ : Type} (calls : Callbacks ρ) (throughDouble : ThroughDouble)

/-- The client before any message. -/
def Watched.start (listener : ρ) : Watched ρ := ⟨{}, listener⟩

theorem handleMessages_snoc {seen : List Json} {data : Json} {w w' : Watched ρ} :
    handleMessages calls throughDouble w (seen ++ [data]) = .ok w' ↔
      ∃ before, handleMessages calls throughDouble w seen = .ok before ∧
        ∃ message, readMessage throughDouble data = .ok message ∧
          message.apply calls before = w' := by
  simp only [handleMessages, List.foldlM_append, List.foldlM_cons, List.foldlM_nil,
    parseUnshieldedTransactionEvent_eq, map_eq_pure_bind, bind_eq_ok, pure, Except.pure,
    Except.ok.injEq, exists_exists_and_eq_and]

/-- Messages that are all handled are handled up to any of them. -/
theorem handleMessages_prefix {seen datas : List Json} {w final : Watched ρ}
    (handled : handleMessages calls throughDouble w datas = .ok final) (hp : seen <+: datas) :
    ∃ reached, handleMessages calls throughDouble w seen = .ok reached := by
  obtain ⟨later, rfl⟩ := hp
  rw [handleMessages, List.foldlM_append, bind_eq_ok] at handled
  obtain ⟨reached, hreached, -⟩ := handled
  exact ⟨reached, hreached⟩

/-- A message keeps the counters exact where it finds enough, and only there. -/
theorem HoldsNet.apply_iff {seen : List Json} {data : Json} {message : Message} {w : Watched ρ}
    (h : HoldsNet throughDouble seen w.client)
    (hmessage : readMessage throughDouble data = .ok message) :
    HoldsNet throughDouble (seen ++ [data]) (message.apply calls w).client ↔
      ∀ counter : Counter, Tally.Covers (counter.net throughDouble seen)
        (counter.total (createdIn throughDouble data))
        (counter.total (spentIn throughDouble data)) := by
  apply forall_congr'
  intro counter
  have exactly := Tally.after_exact_iff (counter.held w.client)
    (message.created.map counter.weight) (message.spent.map counter.weight)
  rw [h counter] at exactly
  simpa only [held_apply, Counter.net_snoc, Counter.total, createdIn, spentIn, hmessage,
    add_sub_assoc] using exactly

/-- **When the running balances are exact.** After every message the balances and the
count are what was created less what was spent where no message finds too little, and
only there; two orders of the same messages that never find too little end the same. -/
theorem running_exact (listener : ρ) {order datas : List Json} (hperm : order.Perm datas)
    {final : Watched ρ}
    (handled : handleMessages calls throughDouble (.start listener) order = .ok final) :
    ((∀ seen, seen <+: order → ∀ w,
        handleMessages calls throughDouble (.start listener) seen = .ok w →
          HoldsNet throughDouble seen w.client) ↔ NeverShort throughDouble order) ∧
      (NeverShort throughDouble order → HoldsNet throughDouble datas final.client) := by
  have every : (∀ seen, seen <+: order → ∀ w,
      handleMessages calls throughDouble (.start listener) seen = .ok w →
        HoldsNet throughDouble seen w.client) ↔ NeverShort throughDouble order := by
    apply Runs.every_prefix_iff
    · rintro w ⟨⟩ counter
      cases counter <;> rfl
    · intro seen data hp hseen
      obtain ⟨after, hafter⟩ := handleMessages_prefix calls throughDouble handled hp
      obtain ⟨w, hw, message, hmessage, rfl⟩ :=
        (handleMessages_snoc calls throughDouble).mp hafter
      rw [← (hseen w hw).apply_iff calls throughDouble hmessage]
      simp only [hafter, Except.ok.injEq, forall_eq']
  refine ⟨every, fun never counter => ?_⟩
  rw [← counter.net_perm throughDouble hperm]
  exact every.mpr never order (List.prefix_refl order) final handled counter

end Runs

/-! ## An output spent before it is created -/

def silent : Callbacks Unit := ⟨fun _ _ u => u, fun _ _ u => u, fun _ u => u⟩

def transactionOf (created spent : List Json) : Json :=
  .object [("unshieldedTransactions", .object [
    ("__typename", .string "UnshieldedTransaction"),
    ("createdUtxos", .array created),
    ("spentUtxos", .array spent)])]

def fiveNight : Json := .object [("tokenType", .string ""), ("value", .string "5")]

def spentFirst : List Json := [transactionOf [] [fiveNight], transactionOf [fiveNight] []]

theorem running_exact_spentFirst :
    ∃ final, handleMessages silent UInt64.ofInt (.start ()) spentFirst = .ok final ∧
      ((∀ seen, seen <+: spentFirst → ∀ w,
          handleMessages silent UInt64.ofInt (.start ()) seen = .ok w →
            HoldsNet UInt64.ofInt seen w.client) ↔ NeverShort UInt64.ofInt spentFirst) ∧
        (NeverShort UInt64.ofInt spentFirst → HoldsNet UInt64.ofInt spentFirst.reverse final.client) :=
  ⟨_, rfl, running_exact silent UInt64.ofInt () (List.Perm.swap _ _ []) rfl⟩

/-- Nothing is left of the five, and the balance says five. -/
theorem not_holdsNet_spentFirst :
    ∃ final, handleMessages silent UInt64.ofInt (.start ()) spentFirst = .ok final ∧
      (∀ counter : Counter, 0 ≤ counter.net UInt64.ofInt spentFirst) ∧
        ¬ HoldsNet UInt64.ofInt spentFirst final.client := by
  refine ⟨_, rfl, ?_, fun h => ?_⟩
  · intro counter
    cases counter <;> exact Int.le_refl 0
  · have night := h .night
    revert night
    decide

end MidnightSdk.Network
