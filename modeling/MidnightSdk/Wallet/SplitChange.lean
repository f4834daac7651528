import MidnightSdk.Library.Words

/-!
# Splitting change

Change is halved until what is left is at most twice the dust threshold. Every turn
of the loop takes at least the threshold off what remains, so a threshold that is
not zero stops it; with the threshold zero it takes nothing off in the end and goes
on for ever.
-/

namespace MidnightSdk.Wallet

open Words

structure UtxoOutput where
  receiver : String
  amount : UInt64
  tokenType : String := "NIGHT"
  isChange : Bool := true
  deriving DecidableEq, Repr

/-- What a turn of the loop splits off; twice the threshold wraps. -/
def splitAmount (remaining minDust : UInt64) : UInt64 :=
  if remaining > 2 * minDust then
    let half := remaining / 2
    if half < minDust then remaining - minDust else half
  else remaining

/-- The loop, which has not ended yet where it runs out of its first argument. -/
def splitLoop (minDust : UInt64) (receiver tokenType : String) :
    Nat → UInt64 → Option (List UtxoOutput)
  | 0, _ => none
  | fuel + 1, remaining =>
    if remaining ≥ minDust then
      let split := splitAmount remaining minDust
      if split ≥ minDust then
        (splitLoop minDust receiver tokenType fuel (remaining - split)).map
          (⟨receiver, split, tokenType, true⟩ :: ·)
      else some []
    else some []

def splitChange (fuel : Nat) (changeAmount minDust : UInt64) (receiver tokenType : String) :
    Option (List UtxoOutput) :=
  if changeAmount < minDust then some []
  else if changeAmount < 2 * minDust then some [⟨receiver, changeAmount, tokenType, true⟩]
  else splitLoop minDust receiver tokenType fuel changeAmount

/-! ## What a split should be -/

def Returns (changeAmount minDust : UInt64) (receiver tokenType : String)
    (outputs : List UtxoOutput) : Prop :=
  ∃ fuel, splitChange fuel changeAmount minDust receiver tokenType = some outputs

/-- No output is dust, nothing is burned, and change that is dust is not sent. -/
structure Lossless (changeAmount minDust : UInt64) (outputs : List UtxoOutput) : Prop where
  spendable : ∀ output ∈ outputs, minDust ≤ output.amount
  exact : minDust ≤ changeAmount → exactSum (outputs.map (·.amount)) = changeAmount.toNat
  dust : changeAmount < minDust → outputs = []

/-- The call returns, and without loss for every threshold whose double fits. -/
def SplitLaw (changeAmount minDust : UInt64) (receiver tokenType : String) : Prop :=
  (∃ outputs, Returns changeAmount minDust receiver tokenType outputs) ∧
  ∀ outputs, Returns changeAmount minDust receiver tokenType outputs →
    1 ≤ minDust.toNat → 2 * minDust.toNat < 18446744073709551616 →
    Lossless changeAmount minDust outputs

/-! ## One turn -/

theorem splitAmount_le {remaining minDust : UInt64} (h : minDust ≤ remaining) :
    (splitAmount remaining minDust).toNat ≤ remaining.toNat := by
  have whole := UInt64.le_iff_toNat_le.mp h
  unfold splitAmount
  split
  · dsimp only
    split
    · rw [UInt64.toNat_sub_of_le _ _ h]
      exact Nat.sub_le _ _
    · rw [UInt64.toNat_div]
      exact Nat.div_le_self _ _
  · exact Nat.le_refl _

/-- Neither what is split off nor what remains is dust. -/
theorem splitAmount_spec {remaining minDust : UInt64}
    (hfits : 2 * minDust.toNat < 18446744073709551616) (h : minDust ≤ remaining) :
    minDust.toNat ≤ (splitAmount remaining minDust).toNat ∧
      (remaining.toNat - (splitAmount remaining minDust).toNat = 0 ∨
        minDust.toNat ≤ remaining.toNat - (splitAmount remaining minDust).toNat) := by
  have whole := UInt64.le_iff_toNat_le.mp h
  have double : (2 * minDust).toNat = 2 * minDust.toNat := by
    rw [UInt64.toNat_mul]
    exact Nat.mod_eq_of_lt hfits
  have half : (remaining / 2).toNat = remaining.toNat / 2 := UInt64.toNat_div _ _
  unfold splitAmount
  split
  · rename_i large
    have large := UInt64.lt_iff_toNat_lt.mp large
    have kept : ¬remaining / 2 < minDust := by
      rw [UInt64.lt_iff_toNat_lt, half]
      omega
    dsimp only
    rw [if_neg kept, half]
    omega
  · omega

theorem toNat_rest {remaining minDust : UInt64} (h : minDust ≤ remaining) :
    (remaining - splitAmount remaining minDust).toNat =
      remaining.toNat - (splitAmount remaining minDust).toNat :=
  UInt64.toNat_sub_of_le _ _ (UInt64.le_iff_toNat_le.mpr (splitAmount_le h))

/-! ## The loop -/

section Loop
variable {minDust : UInt64} {receiver tokenType : String}

/-- Each turn takes the threshold off at least. -/
theorem splitLoop_returns (hpos : minDust ≠ 0) {fuel : Nat} {remaining : UInt64}
    (hfuel : remaining.toNat < fuel) :
    ∃ outputs, splitLoop minDust receiver tokenType fuel remaining = some outputs := by
  induction fuel generalizing remaining with
  | zero => exact absurd hfuel (Nat.not_lt_zero _)
  | succ fuel ih =>
    rw [splitLoop]
    by_cases hmore : remaining ≥ minDust
    · rw [if_pos hmore]
      dsimp only
      by_cases hsplit : splitAmount remaining minDust ≥ minDust
      · have threshold : 0 < minDust.toNat :=
          Nat.pos_of_ne_zero fun h => hpos (UInt64.toNat_inj.mp h)
        have taken := UInt64.le_iff_toNat_le.mp hsplit
        have whole := splitAmount_le hmore
        have rest := toNat_rest hmore
        have shorter : (remaining - splitAmount remaining minDust).toNat < fuel := by omega
        obtain ⟨outputs, hrest⟩ := ih shorter
        rw [if_pos hsplit, hrest]
        exact ⟨_, rfl⟩
      · exact ⟨[], if_neg hsplit⟩
    · exact ⟨[], if_neg hmore⟩

/-- With the threshold zero no turn is the last one. -/
theorem splitLoop_diverges (fuel : Nat) (remaining : UInt64) :
    splitLoop 0 receiver tokenType fuel remaining = none := by
  induction fuel generalizing remaining with
  | zero => rfl
  | succ fuel ih =>
    rw [splitLoop, if_pos UInt64.zero_le]
    dsimp only
    rw [if_pos UInt64.zero_le, ih]
    rfl

theorem splitLoop_spendable {fuel : Nat} {remaining : UInt64} {outputs : List UtxoOutput}
    (h : splitLoop minDust receiver tokenType fuel remaining = some outputs) :
    ∀ output ∈ outputs, minDust ≤ output.amount := by
  induction fuel generalizing remaining outputs with
  | zero => cases h
  | succ fuel ih =>
    rw [splitLoop] at h
    split at h
    · dsimp only at h
      split at h
      · rename_i hsplit
        obtain ⟨rest, hrest, rfl⟩ := Option.map_eq_some_iff.mp h
        intro output houtput
        rcases List.mem_cons.mp houtput with rfl | houtput
        · exact hsplit
        · exact ih hrest output houtput
      · cases h
        exact fun output houtput => absurd houtput (List.not_mem_nil)
    · cases h
      exact fun output houtput => absurd houtput (List.not_mem_nil)

/-- What remains is nothing or no dust, so the loop ends with nothing left. -/
theorem splitLoop_exact (hfits : 2 * minDust.toNat < 18446744073709551616) {fuel : Nat}
    {remaining : UInt64} {outputs : List UtxoOutput}
    (hrest : remaining.toNat = 0 ∨ minDust.toNat ≤ remaining.toNat)
    (h : splitLoop minDust receiver tokenType fuel remaining = some outputs) :
    exactSum (outputs.map (·.amount)) = remaining.toNat := by
  induction fuel generalizing remaining outputs with
  | zero => cases h
  | succ fuel ih =>
    rw [splitLoop] at h
    by_cases hmore : remaining ≥ minDust
    · obtain ⟨hkept, hleft⟩ := splitAmount_spec hfits hmore
      have whole := splitAmount_le hmore
      have rest := toNat_rest hmore
      rw [if_pos hmore] at h
      dsimp only at h
      rw [if_pos (UInt64.le_iff_toNat_le.mpr hkept)] at h
      obtain ⟨later, hlater, rfl⟩ := Option.map_eq_some_iff.mp h
      have sum := ih (rest ▸ hleft) hlater
      rw [List.map_cons, exactSum_cons, sum, rest]
      exact Nat.add_sub_cancel' whole
    · rw [if_neg hmore] at h
      cases h
      have small : ¬minDust.toNat ≤ remaining.toNat := fun le =>
        hmore (UInt64.le_iff_toNat_le.mpr le)
      rw [List.map_nil, exactSum_nil]
      omega

end Loop

/-! ## The call -/

theorem returns_lossless {changeAmount minDust : UInt64} {receiver tokenType : String}
    {outputs : List UtxoOutput} (hfits : 2 * minDust.toNat < 18446744073709551616)
    (h : Returns changeAmount minDust receiver tokenType outputs) :
    Lossless changeAmount minDust outputs := by
  obtain ⟨fuel, h⟩ := h
  unfold splitChange at h
  by_cases hdust : changeAmount < minDust
  · rw [if_pos hdust] at h
    cases h
    refine ⟨fun output houtput => absurd houtput (List.not_mem_nil), ?_, fun _ => rfl⟩
    exact fun hle => absurd hdust (UInt64.not_lt.mpr hle)
  · have covered : minDust ≤ changeAmount := UInt64.not_lt.mp hdust
    rw [if_neg hdust] at h
    by_cases hsmall : changeAmount < 2 * minDust
    · rw [if_pos hsmall] at h
      cases h
      refine ⟨?_, fun _ => by simp, fun lt => absurd lt hdust⟩
      intro output houtput
      rw [List.mem_singleton.mp houtput]
      exact covered
    · rw [if_neg hsmall] at h
      refine ⟨splitLoop_spendable h, ?_, fun lt => absurd lt hdust⟩
      intro _
      exact splitLoop_exact hfits (.inr (UInt64.le_iff_toNat_le.mp covered)) h

/-- **Which calls keep to the law.** A call returns whatever the change and the
threshold are, unless the threshold is zero. -/
theorem splitLaw_iff (changeAmount minDust : UInt64) (receiver tokenType : String) :
    SplitLaw changeAmount minDust receiver tokenType ↔ minDust ≠ 0 := by
  constructor
  · rintro ⟨⟨outputs, fuel, h⟩, -⟩ rfl
    have loops : splitChange fuel changeAmount 0 receiver tokenType = none := by
      have never (x : UInt64) : ¬x < 0 := UInt64.not_lt.mpr UInt64.zero_le
      rw [splitChange, if_neg (never _)]
      exact (if_neg (never _)).trans (splitLoop_diverges fuel changeAmount)
    rw [loops] at h
    cases h
  · intro hpos
    refine ⟨?_, fun outputs h _ hfits => returns_lossless hfits h⟩
    by_cases hdust : changeAmount < minDust
    · exact ⟨[], 0, if_pos hdust⟩
    · by_cases hsmall : changeAmount < 2 * minDust
      · exact ⟨_, 0, by rw [splitChange, if_neg hdust, if_pos hsmall]⟩
      · obtain ⟨outputs, hloop⟩ := @splitLoop_returns minDust receiver tokenType hpos
          (changeAmount.toNat + 1) changeAmount (Nat.lt_succ_self _)
        exact ⟨outputs, _, by rw [splitChange, if_neg hdust, if_neg hsmall, hloop]⟩

/-- Five units split with the threshold zero: the outputs are 2, 1, 1, 1, then zeros
without end. -/
theorem not_splitLaw_zero : ¬SplitLaw 5 0 "receiver" "NIGHT" := by
  rintro ⟨⟨outputs, fuel, h⟩, -⟩
  have loops : splitLoop 0 "receiver" "NIGHT" fuel 5 = none := splitLoop_diverges fuel 5
  change splitLoop 0 "receiver" "NIGHT" fuel 5 = some outputs at h
  rw [loops] at h
  cases h

example : (splitChange 10 1000 100 "receiver" "NIGHT").map (·.map (·.amount)) =
    some [500, 250, 125, 125] := by decide

end MidnightSdk.Wallet
