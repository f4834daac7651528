import MidnightSdk.Wallet.RandomImprove

/-!
# Success over all shuffles

With no overflow, Random-Improve succeeds when some prefix of the shuffled
coins pays for itself. Net of its own input fee a coin can weigh less than
nothing, so a prefix can stop being affordable by growing, and whether a
funded wallet succeeds depends on the order.
-/

namespace MidnightSdk.Wallet

open Cpp Words Prefixes

/-- A coin's amount less the fee for spending it. -/
def net (feePerInput : UInt64) (c : UtxoWithMeta) : Int := c.amount.toNat - feePerInput.toNat

/-- No sum the selection computes reaches 2^64. -/
structure NoWrap (b : TransactionBalancer) (target feePerInput feePerOutput : UInt64) : Prop where
  coins : worth b.filterByTokenType < 2 ^ 64
  need : need target feePerInput feePerOutput b.filterByTokenType.length < 2 ^ 64

/-- A nonempty list of coins worth the target and the fee of spending them. -/
def Affordable (target feePerInput feePerOutput : UInt64) (coins : List UtxoWithMeta) : Prop :=
  coins ≠ [] ∧ need target feePerInput feePerOutput coins.length ≤ worth coins

instance (target feePerInput feePerOutput : UInt64) (coins : List UtxoWithMeta) :
    Decidable (Affordable target feePerInput feePerOutput coins) :=
  inferInstanceAs (Decidable (_ ∧ _))

theorem weight_net (feePerInput : UInt64) (coins : List UtxoWithMeta) :
    weight (net feePerInput) coins = worth coins - coins.length * feePerInput.toNat := by
  induction coins with
  | nil => simp
  | cons c coins ih =>
    rw [weight_cons, ih, net, worth_cons, List.length_cons]
    push_cast
    rw [Int.add_mul, Int.one_mul]
    omega

/-- Affordability is a threshold on the net weight. -/
theorem need_le_worth_iff (target feePerInput feePerOutput : UInt64) (coins : List UtxoWithMeta) :
    need target feePerInput feePerOutput coins.length ≤ worth coins ↔
      (target.toNat + feePerOutput.toNat : Int) ≤ weight (net feePerInput) coins := by
  rw [weight_net, need, ← Int.ofNat_le]
  push_cast
  omega

theorem NoWrap.not_overflows {b : TransactionBalancer} {target feePerInput feePerOutput : UInt64}
    (h : NoWrap b target feePerInput feePerOutput) {q : List UtxoWithMeta}
    (hq : q.Subperm b.filterByTokenType) : ¬ Overflows target feePerInput feePerOutput q := by
  have hw := worth_subperm hq
  have hn := need_mono target feePerInput feePerOutput hq.length_le
  have := h.coins
  have := h.need
  simp only [Overflows]
  omega

/-- With no overflow a shuffle succeeds exactly when one of its prefixes is
affordable. -/
theorem succeeds_iff {b : TransactionBalancer} {target feePerInput feePerOutput : UInt64}
    (h : NoWrap b target feePerInput feePerOutput) (shuffle : Shuffle UtxoWithMeta) :
    (b.randomImproveSelect shuffle target feePerInput feePerOutput).selected ≠ [] ↔
      ∃ q, q <+: shuffle.run b.filterByTokenType ∧ Affordable target feePerInput feePerOutput q := by
  have hperm := shuffle.perm b.filterByTokenType
  have exact_test : ∀ q, q <+: shuffle.run b.filterByTokenType →
      (Accepts target feePerInput feePerOutput q ↔
        need target feePerInput feePerOutput q.length ≤ worth q) := fun q hq =>
    accepts_of_fits (h.not_overflows (hq.sublist.subperm.trans hperm.subperm))
  rw [randomImproveSelect_eq]
  cases hs : shortestPrefix (Accepts target feePerInput feePerOutput)
      (shuffle.run b.filterByTokenType) with
  | none =>
    simp only [ne_eq, not_true_eq_false, false_iff, not_exists, not_and]
    rintro q hp ⟨hq, hpaid⟩
    exact shortestPrefix_eq_none.mp hs q hq hp ((exact_test q hp).mpr hpaid)
  | some p =>
    have short := shortestPrefix_isShortest hs
    simp only [resultOf, ne_eq, short.nonempty, not_false_eq_true, true_iff]
    exact ⟨p, short.isPrefix, short.nonempty, (exact_test p short.isPrefix).mp short.passes⟩

theorem affordable_iff (target feePerInput feePerOutput : UInt64) (coins : List UtxoWithMeta) :
    Affordable target feePerInput feePerOutput coins ↔
      coins ≠ [] ∧ (target.toNat + feePerOutput.toNat : Int) ≤ weight (net feePerInput) coins := by
  rw [Affordable, need_le_worth_iff]

/-- Every shuffle succeeds exactly when all the coins together are affordable,
or each of them alone is. -/
theorem every_shuffle_succeeds_iff {b : TransactionBalancer}
    {target feePerInput feePerOutput : UInt64} (h : NoWrap b target feePerInput feePerOutput) :
    (∀ shuffle, (b.randomImproveSelect shuffle target feePerInput feePerOutput).selected ≠ []) ↔
      b.filterByTokenType ≠ [] ∧
        (Affordable target feePerInput feePerOutput b.filterByTokenType ∨
          ∀ c ∈ b.filterByTokenType, Affordable target feePerInput feePerOutput [c]) := by
  simp only [succeeds_iff h]
  rw [Shuffle.forall_run_iff (P := fun m => ∃ q, q <+: m ∧ Affordable target feePerInput feePerOutput q)]
  have hall := all_orders_reach (w := net feePerInput) (l := b.filterByTokenType)
    (t := (target.toNat + feePerOutput.toNat : Int))
  simp only [affordable_iff, ne_eq, List.cons_ne_nil, not_false_eq_true, true_and, weight_cons,
    weight_nil, add_zero] at hall ⊢
  have swap (m : List UtxoWithMeta) :
      (∃ q, q <+: m ∧ ¬ q = [] ∧
        (target.toNat + feePerOutput.toNat : Int) ≤ weight (net feePerInput) q) ↔
      ∃ q, ¬ q = [] ∧ q <+: m ∧
        (target.toNat + feePerOutput.toNat : Int) ≤ weight (net feePerInput) q :=
    exists_congr fun q => and_left_comm
  simp only [swap, hall]
  tauto

/-- Some shuffle succeeds exactly when some of the coins are affordable. -/
theorem some_shuffle_succeeds_iff {b : TransactionBalancer}
    {target feePerInput feePerOutput : UInt64} (h : NoWrap b target feePerInput feePerOutput) :
    (∃ shuffle, (b.randomImproveSelect shuffle target feePerInput feePerOutput).selected ≠ []) ↔
      ∃ s, s.Subperm b.filterByTokenType ∧ Affordable target feePerInput feePerOutput s := by
  simp only [succeeds_iff h]
  rw [Shuffle.exists_run_iff (P := fun m => ∃ q, q <+: m ∧ Affordable target feePerInput feePerOutput q)]
  have hsome := some_order_reaches (w := net feePerInput) (l := b.filterByTokenType)
    (t := (target.toNat + feePerOutput.toNat : Int))
  simp only [affordable_iff]
  constructor
  · rintro ⟨m, hm, q, hp, hq, ht⟩
    obtain ⟨s, hs, hsub, hst⟩ := hsome.mp ⟨m, hm, q, hq, hp, ht⟩
    exact ⟨s, hsub, hs, hst⟩
  · rintro ⟨s, hsub, hs, hst⟩
    obtain ⟨m, hm, q, hq, hp, ht⟩ := hsome.mpr ⟨s, hs, hsub, hst⟩
    exact ⟨m, hm, q, hp, hq, ht⟩

/-- When no coin costs more than it is worth, all the coins are affordable as
soon as some of them are. -/
theorem all_affordable_of_some {b : TransactionBalancer} {target feePerInput feePerOutput : UInt64}
    (hfee : ∀ c ∈ b.filterByTokenType, feePerInput ≤ c.amount) {s : List UtxoWithMeta}
    (hsub : s.Subperm b.filterByTokenType) (hs : Affordable target feePerInput feePerOutput s) :
    Affordable target feePerInput feePerOutput b.filterByTokenType := by
  rw [affordable_iff] at hs ⊢
  have hnet : ∀ c ∈ b.filterByTokenType, 0 ≤ net feePerInput c := by
    intro c hc
    have := UInt64.le_iff_toNat_le.mp (hfee c hc)
    simp only [net]
    omega
  refine ⟨?_, hs.2.trans (weight_subperm_le hnet hsub)⟩
  intro h0
  rw [h0] at hsub
  exact hs.1 (List.subperm_nil.mp hsub)

/-- **Which shuffles succeed.** With no overflow: every shuffle succeeds
exactly when all the coins together, or each one alone, are affordable; some
shuffle succeeds exactly when some of the coins are; and when every coin is
worth its own input fee the outcome is the same for every shuffle. -/
theorem success_over_shuffles (b : TransactionBalancer) (target feePerInput feePerOutput : UInt64)
    (h : NoWrap b target feePerInput feePerOutput) :
    ((∀ shuffle, (b.randomImproveSelect shuffle target feePerInput feePerOutput).selected ≠ []) ↔
      b.filterByTokenType ≠ [] ∧
        (Affordable target feePerInput feePerOutput b.filterByTokenType ∨
          ∀ c ∈ b.filterByTokenType, Affordable target feePerInput feePerOutput [c])) ∧
    ((∃ shuffle, (b.randomImproveSelect shuffle target feePerInput feePerOutput).selected ≠ []) ↔
      ∃ s, s.Subperm b.filterByTokenType ∧ Affordable target feePerInput feePerOutput s) ∧
    ((∀ c ∈ b.filterByTokenType, feePerInput ≤ c.amount) → ∀ shuffle,
      ((b.randomImproveSelect shuffle target feePerInput feePerOutput).selected ≠ [] ↔
        ∃ s, s.Subperm b.filterByTokenType ∧ Affordable target feePerInput feePerOutput s)) := by
  refine ⟨every_shuffle_succeeds_iff h, some_shuffle_succeeds_iff h, ?_⟩
  intro hfee shuffle
  constructor
  · exact fun hs => (some_shuffle_succeeds_iff h).mp ⟨shuffle, hs⟩
  · rintro ⟨s, hsub, hs⟩
    have hall := all_affordable_of_some hfee hsub hs
    exact (every_shuffle_succeeds_iff h).mpr ⟨hall.1, Or.inl hall⟩ shuffle

/-- Two coins of 10 and 7 with an input fee of 5: together they pay for a target of 3. -/
theorem success_over_shuffles_two_coins :
    let b : TransactionBalancer :=
      ⟨[{ utxoHash := "a", amount := 10 }, { utxoHash := "b", amount := 7 }], 0, "NIGHT"⟩
    ∀ shuffle, (b.randomImproveSelect shuffle 3 5 0).selected ≠ [] :=
  (success_over_shuffles _ 3 5 0 ⟨by decide, by decide⟩).1.mpr ⟨by decide, Or.inl (by decide)⟩

/-- Coins of 10 and 1 with an input fee of 5 and a target of 3: the first coin
alone pays, but a shuffle that takes the second one first fails. -/
theorem shuffle_decides_success :
    let b : TransactionBalancer :=
      ⟨[{ utxoHash := "a", amount := 10 }, { utxoHash := "b", amount := 1 }], 0, "NIGHT"⟩
    NoWrap b 3 5 0 ∧
    (∃ s, s.Subperm b.filterByTokenType ∧ Affordable 3 5 0 s) ∧
    (b.randomImproveSelect ⟨id, fun l => .refl l⟩ 3 5 0).selected ≠ [] ∧
    (b.randomImproveSelect ⟨List.reverse, List.reverse_perm⟩ 3 5 0).selected = [] := by
  refine ⟨⟨by decide, by decide⟩, ⟨[{ utxoHash := "a", amount := 10 }], ?_, by decide⟩, by decide, by decide⟩
  exact (List.singleton_sublist.mpr (by decide)).subperm

end MidnightSdk.Wallet
