import MidnightSdk.Library.Prefixes
import MidnightSdk.Wallet.Coins

/-!
# Random-Improve coin selection

`randomImproveSelect` shuffles the coins of one token and takes them until they
cover the target and the fee of what was taken. All sums are 64-bit.

* `randomImproveSelect_eq`: the result is the shortest prefix of the shuffled
  coins that the wrapping comparison accepts; the improvement pass only runs
  when every coin is selected, so it never changes anything;
* `selection_sound_iff`: the selection is worth what it claims to cover unless
  a sum that overflows makes a prefix look affordable.
-/

namespace MidnightSdk.Wallet

open Cpp Words Prefixes

structure UtxoSelectionResult where
  selected : List UtxoWithMeta := []
  totalAmount : UInt64 := 0
  excess : UInt64 := 0
  deriving DecidableEq, Repr

/-- The generator of the source is the shuffle each selection is given. -/
structure TransactionBalancer where
  available : List UtxoWithMeta
  target : UInt64
  tokenType : String := "NIGHT"

def TransactionBalancer.filterByTokenType (b : TransactionBalancer) : List UtxoWithMeta :=
  b.available.filter fun utxo => utxo.tokenType = b.tokenType

/-- How the accumulation loop ends: with an early return, or with every coin
selected. -/
inductive Accumulated where
  | found (result : UtxoSelectionResult)
  | exhausted (selected : List UtxoWithMeta) (runningTotal : UInt64)
  deriving Repr

def accumulate (target feePerInput feePerOutput : UInt64) (selected : List UtxoWithMeta)
    (runningTotal estimatedInputs : UInt64) : List UtxoWithMeta → Accumulated
  | [] => .exhausted selected runningTotal
  | utxo :: rest =>
    let selected := selected ++ [utxo]
    let runningTotal := runningTotal + utxo.amount
    let estimatedInputs := estimatedInputs + 1
    let currentFee := estimatedInputs * feePerInput + feePerOutput
    let needed := target + currentFee
    if runningTotal ≥ needed then .found ⟨selected, runningTotal, runningTotal - target⟩
    else accumulate target feePerInput feePerOutput selected runningTotal estimatedInputs rest

def TransactionBalancer.randomImproveSelect (b : TransactionBalancer) (shuffle : Shuffle UtxoWithMeta)
    (target feePerInput feePerOutput : UInt64) : UtxoSelectionResult :=
  if b.filterByTokenType.isEmpty then {} else
  let candidates := shuffle.run b.filterByTokenType
  match accumulate target feePerInput feePerOutput [] 0 0 candidates with
  | .found result => result
  | .exhausted selected runningTotal =>
    let waste := wasteOver runningTotal target
    let start : Tally := ⟨selected, runningTotal, waste⟩
    let t := if waste > 0 ∧ selected.length > 1 then start.improve target candidates else start
    let finalFee := UInt64.ofNat t.selected.length * feePerInput + feePerOutput
    if t.total ≥ target + finalFee then ⟨t.selected, t.total, t.total - target⟩ else {}

/-! ## The shortest accepted prefix -/

/-- Target and fees for `k` inputs, over the integers. -/
def need (target feePerInput feePerOutput : UInt64) (k : Nat) : Nat :=
  target.toNat + k * feePerInput.toNat + feePerOutput.toNat

theorem need_mono (target feePerInput feePerOutput : UInt64) {j k : Nat} (h : j ≤ k) :
    need target feePerInput feePerOutput j ≤ need target feePerInput feePerOutput k := by
  have := Nat.mul_le_mul_right feePerInput.toNat h
  simp only [need]
  omega

/-- The comparison the loop makes, both sides reduced to 64 bits. -/
def Accepts (target feePerInput feePerOutput : UInt64) (coins : List UtxoWithMeta) : Prop :=
  need target feePerInput feePerOutput coins.length % 2 ^ 64 ≤ worth coins % 2 ^ 64

instance (target feePerInput feePerOutput : UInt64) :
    DecidablePred (Accepts target feePerInput feePerOutput) :=
  fun _ => inferInstanceAs (Decidable (_ ≤ _))

/-- What the selection answers for a list of coins. -/
def resultOf (target : UInt64) (coins : List UtxoWithMeta) : UtxoSelectionResult :=
  ⟨coins, wrapSum (amounts coins), wrapSum (amounts coins) - target⟩

theorem toNat_needed (target feePerInput feePerOutput : UInt64) (k : Nat) :
    (target + (UInt64.ofNat k * feePerInput + feePerOutput)).toNat =
      need target feePerInput feePerOutput k % 2 ^ 64 := by
  have hmul : (k % 2 ^ 64 * feePerInput.toNat) % 2 ^ 64 = (k * feePerInput.toNat) % 2 ^ 64 :=
    Nat.mod_mul_mod k _ _
  simp only [UInt64.toNat_add, UInt64.toNat_mul, UInt64.toNat_ofNat', need, hmul]
  omega

/-- The 64-bit comparison of the loop is `Accepts`. -/
theorem accepts_iff (target feePerInput feePerOutput : UInt64) (coins : List UtxoWithMeta) :
    target + (UInt64.ofNat coins.length * feePerInput + feePerOutput) ≤ wrapSum (amounts coins) ↔
      Accepts target feePerInput feePerOutput coins := by
  rw [UInt64.le_iff_toNat_le, toNat_needed, toNat_wrapSum]
  rfl

theorem wrapSum_amounts_snoc (seen : List UtxoWithMeta) (c : UtxoWithMeta) :
    wrapSum (amounts (seen ++ [c])) = wrapSum (amounts seen) + c.amount := by
  simp [amounts, wrapSum]

/-- The loop carries the sum and the count of what it has read, so it stops at
the first accepted prefix. -/
theorem accumulate_eq (target feePerInput feePerOutput : UInt64) (seen coins : List UtxoWithMeta) :
    accumulate target feePerInput feePerOutput seen (wrapSum (amounts seen))
        (UInt64.ofNat seen.length) coins =
      match extend (Accepts target feePerInput feePerOutput) seen coins with
      | some p => .found (resultOf target p)
      | none => .exhausted (seen ++ coins) (wrapSum (amounts (seen ++ coins))) := by
  induction coins generalizing seen with
  | nil => simp [accumulate, extend]
  | cons c coins ih =>
    have count : UInt64.ofNat seen.length + 1 = UInt64.ofNat (seen ++ [c]).length := by
      simp [UInt64.ofNat_add]
    simp only [accumulate, extend, ← wrapSum_amounts_snoc, count, ge_iff_le, accepts_iff]
    split
    · rfl
    · rw [ih (seen ++ [c])]
      simp

/-- The selection is the shortest accepted prefix of the shuffled coins. -/
theorem randomImproveSelect_eq (b : TransactionBalancer) (shuffle : Shuffle UtxoWithMeta)
    (target feePerInput feePerOutput : UInt64) :
    b.randomImproveSelect shuffle target feePerInput feePerOutput =
      match shortestPrefix (Accepts target feePerInput feePerOutput)
          (shuffle.run b.filterByTokenType) with
      | some p => resultOf target p
      | none => {} := by
  have hperm := shuffle.perm b.filterByTokenType
  unfold TransactionBalancer.randomImproveSelect
  split
  · rename_i hempty
    have hnil : shuffle.run b.filterByTokenType = [] := by
      rw [List.isEmpty_iff.mp hempty] at hperm ⊢
      exact List.perm_nil.mp hperm
    rw [hnil]
    rfl
  · rename_i hne
    generalize hc : shuffle.run b.filterByTokenType = coins at hperm
    have hcoins : coins ≠ [] := by
      rintro rfl
      exact hne (by rw [List.nil_perm.mp hperm]; rfl)
    have hrun := accumulate_eq target feePerInput feePerOutput [] coins
    simp only [List.nil_append] at hrun
    simp only [shortestPrefix]
    rw [show accumulate target feePerInput feePerOutput [] 0 0 coins = _ from hrun]
    cases hs : extend (Accepts target feePerInput feePerOutput) [] coins with
    | some p => rfl
    | none =>
      -- every coin was selected, so the pass finds nothing and the last check repeats the loop's
      have hself : ∀ t : Tally, t.selected = coins → t.improve target coins = t := by
        rintro t rfl
        exact t.improve_self target
      have hreject : ¬ Accepts target feePerInput feePerOutput coins :=
        shortestPrefix_eq_none.mp hs coins hcoins (List.prefix_refl coins)
      simp only [hself, ite_self, ge_iff_le, accepts_iff, hreject, ↓reduceIte]

/-! ## When the selection covers its target -/

/-- A selection that can pay: coins of the token, each used at most once, whose
exact worth is the reported total and covers target and fees. -/
structure Covers (b : TransactionBalancer) (target feePerInput feePerOutput : UInt64)
    (r : UtxoSelectionResult) : Prop where
  coins : r.selected.Subperm b.filterByTokenType
  total : r.totalAmount.toNat = worth r.selected
  paid : need target feePerInput feePerOutput r.selected.length ≤ worth r.selected
  excess : r.excess.toNat + target.toNat = r.totalAmount.toNat

/-- The coins, or the target with their fees, exceed 64 bits. -/
def Overflows (target feePerInput feePerOutput : UInt64) (coins : List UtxoWithMeta) : Prop :=
  2 ^ 64 ≤ worth coins ∨ 2 ^ 64 ≤ need target feePerInput feePerOutput coins.length

theorem accepts_of_fits {target feePerInput feePerOutput : UInt64} {coins : List UtxoWithMeta}
    (h : ¬ Overflows target feePerInput feePerOutput coins) :
    Accepts target feePerInput feePerOutput coins ↔
      need target feePerInput feePerOutput coins.length ≤ worth coins := by
  simp only [Overflows, not_or, Nat.not_le] at h
  simp only [Accepts, Nat.mod_eq_of_lt h.1, Nat.mod_eq_of_lt h.2]

theorem overflows_mono {target feePerInput feePerOutput : UInt64} {p q : List UtxoWithMeta}
    (h : p <+: q) (hp : Overflows target feePerInput feePerOutput p) :
    Overflows target feePerInput feePerOutput q := by
  have hw := worth_subperm h.sublist.subperm
  have hn := need_mono target feePerInput feePerOutput h.length_le
  simp only [Overflows] at hp ⊢
  omega

theorem resultOf_covers_iff (b : TransactionBalancer) (target feePerInput feePerOutput : UInt64)
    {p : List UtxoWithMeta} (hp : p.Subperm b.filterByTokenType) :
    Covers b target feePerInput feePerOutput (resultOf target p) ↔
      worth p < 2 ^ 64 ∧ need target feePerInput feePerOutput p.length ≤ worth p := by
  constructor
  · intro h
    exact ⟨(toNat_wrapSum_eq_iff _).mp h.total, h.paid⟩
  · rintro ⟨hlt, hpaid⟩
    have htotal : (wrapSum (amounts p)).toNat = worth p := toNat_wrapSum_of_lt hlt
    refine ⟨hp, htotal, hpaid, ?_⟩
    have hle : target ≤ wrapSum (amounts p) := by
      rw [UInt64.le_iff_toNat_le, htotal]
      simp only [need] at hpaid
      omega
    have := UInt64.le_iff_toNat_le.mp hle
    simp only [resultOf, UInt64.toNat_sub_of_le _ _ hle]
    omega

/-- **When a selection pays.** A nonempty selection covers its target exactly
when some prefix of the shuffled coins is affordable before any sum overflows,
or no prefix past the overflow is accepted by the wrapping comparison. -/
theorem selection_sound_iff (b : TransactionBalancer) (shuffle : Shuffle UtxoWithMeta)
    (target feePerInput feePerOutput : UInt64) :
    ((b.randomImproveSelect shuffle target feePerInput feePerOutput).selected ≠ [] →
        Covers b target feePerInput feePerOutput
          (b.randomImproveSelect shuffle target feePerInput feePerOutput)) ↔
      (∃ q, q ≠ [] ∧ q <+: shuffle.run b.filterByTokenType ∧
          ¬ Overflows target feePerInput feePerOutput q ∧
          need target feePerInput feePerOutput q.length ≤ worth q) ∨
      ∀ q, q ≠ [] → q <+: shuffle.run b.filterByTokenType →
        Overflows target feePerInput feePerOutput q →
        ¬ Accepts target feePerInput feePerOutput q := by
  rw [randomImproveSelect_eq]
  have hperm := shuffle.perm b.filterByTokenType
  generalize shuffle.run b.filterByTokenType = coins at hperm
  cases hs : shortestPrefix (Accepts target feePerInput feePerOutput) coins with
  | none =>
    refine ⟨fun _ => Or.inr fun q hq hp _ => shortestPrefix_eq_none.mp hs q hq hp, ?_⟩
    intro _ h
    exact absurd rfl h
  | some p =>
    have short := shortestPrefix_isShortest hs
    have hsub : p.Subperm b.filterByTokenType :=
      short.isPrefix.sublist.subperm.trans hperm.subperm
    have hne : (resultOf target p).selected ≠ [] := short.nonempty
    simp only [hne, ne_eq, not_false_eq_true, forall_true_left, resultOf_covers_iff _ _ _ _ hsub]
    constructor
    · rintro ⟨hlt, hpaid⟩
      refine Or.inl ⟨p, short.nonempty, short.isPrefix, ?_, hpaid⟩
      simp only [Overflows]
      omega
    · intro h
      have hfits : ¬ Overflows target feePerInput feePerOutput p := by
        rcases h with ⟨q, hq, hqp, hqfits, hqpaid⟩ | h
        · have hqok := (accepts_of_fits hqfits).mpr hqpaid
          have hpq : p <+: q := by
            rcases List.prefix_or_prefix_of_prefix short.isPrefix hqp with hpq | hqp'
            · exact hpq
            · by_cases he : q = p
              · exact he ▸ List.prefix_refl q
              · exact absurd hqok (short.first q hq hqp' he)
          exact fun hover => hqfits (overflows_mono hpq hover)
        · exact fun hover => h p short.nonempty short.isPrefix hover short.passes
      refine ⟨?_, (accepts_of_fits hfits).mp short.passes⟩
      simp only [Overflows, not_or, Nat.not_le] at hfits
      exact hfits.1

/-- One coin of 200 is selected for a target of 2^64 - 10: with the fees of 176
the need wraps to 166. -/
theorem selection_overflow :
    let b : TransactionBalancer := ⟨[{ utxoHash := "a", amount := 200 }], 0, "NIGHT"⟩
    let r := b.randomImproveSelect ⟨id, fun l => .refl l⟩ 18446744073709551606 96 80
    r.selected ≠ [] ∧ ¬ Covers b 18446744073709551606 96 80 r := by
  refine ⟨by decide, ?_⟩
  intro h
  exact absurd h.paid (by decide)

end MidnightSdk.Wallet
