import MidnightSdk.Library.Prefixes
import MidnightSdk.Wallet.Facade

/-!
# Coin selection of the wallet facade

`selectCoins` reads the coins of one token in the order of its strategy until
they reach the amount. The random strategy then exchanges its largest coin by a
waste measure that is zero for a total below the amount too.

* `selectCoins_sound`: what is returned always pays;
* `select_coins_funded_iff`: a funded wallet is served exactly when some prefix
  of the order reaches the amount in 64 bits and the exchange keeps it there.
-/

namespace MidnightSdk.Wallet

open Cpp Words Prefixes

/-! ## The routine -/

/-- `randombytes_uniform`, one draw for each step of the shuffle: below its
bound, and zero for a bound below two. -/
structure RandomBytes where
  uniform : Nat → UInt32 → UInt32
  lt : ∀ step bound, 1 < bound → uniform step bound < bound
  small : ∀ step bound, bound ≤ 1 → uniform step bound = 0

def swapAt {α : Type} (l : List α) (i j : Nat) : List α :=
  if h : i < l.length ∧ j < l.length then
    (l.set i (l.get ⟨j, h.2⟩)).set j (l.get ⟨i, h.1⟩)
  else l

/-- The steps of the shuffle from index `i` down. The bound is passed as 32 bits. -/
def fisherYates {α : Type} (random : RandomBytes) : Nat → List α → List α
  | i + 2, l =>
    let current := i + 1
    let j := (random.uniform (i + 2) (UInt32.ofNat (i + 2))).toNat
    fisherYates random (i + 1) (if j ≠ current then swapAt l current j else l)
  | _, l => l

/-- Take coins until their running total reaches the amount. -/
def takeUntil (amount : UInt64) (selected : List UtxoWithMeta) (total : UInt64) :
    List UtxoWithMeta → List UtxoWithMeta × UInt64
  | [] => (selected, total)
  | coin :: rest =>
    let selected := selected ++ [coin]
    let total := total + coin.amount
    if total ≥ amount then (selected, total) else takeUntil amount selected total rest

def selectGreedy (amount : UInt64) (coins : List UtxoWithMeta) : List UtxoWithMeta :=
  let taken := takeUntil amount [] 0 coins
  if taken.2 < amount then [] else taken.1

def selectRandom (amount : UInt64) (shuffled : List UtxoWithMeta) : List UtxoWithMeta :=
  let taken := takeUntil amount [] 0 shuffled
  let waste := wasteOver taken.2 amount
  let start : Tally := ⟨taken.1, taken.2, waste⟩
  let t := if waste > 0 then start.improve amount shuffled else start
  if t.total < amount then [] else t.selected

def WalletFacade.candidates (f : WalletFacade) (tokenType : String) : List UtxoWithMeta :=
  f.unshielded.availableCoins.filter fun coin => coin.tokenType = tokenType

def WalletFacade.selectCoins (f : WalletFacade) (sorter : Sorter UtxoWithMeta) (random : RandomBytes)
    (amount : UInt64) (tokenType : String) : List UtxoWithMeta :=
  let candidates := f.candidates tokenType
  match f.coinStrategy with
  | .smallestFirst => selectGreedy amount (sorter.run (fun a b => a.amount < b.amount) candidates)
  | .randomImprove => selectRandom amount (fisherYates random candidates.length candidates)
  | .largestFirst => selectGreedy amount (sorter.run (fun a b => a.amount > b.amount) candidates)

/-! ## The order the coins are read in -/

/-- The candidates in the order the strategy reads them. -/
def WalletFacade.coinOrder (f : WalletFacade) (sorter : Sorter UtxoWithMeta) (random : RandomBytes)
    (tokenType : String) : List UtxoWithMeta :=
  let candidates := f.candidates tokenType
  match f.coinStrategy with
  | .smallestFirst => sorter.run (fun a b => a.amount < b.amount) candidates
  | .randomImprove => fisherYates random candidates.length candidates
  | .largestFirst => sorter.run (fun a b => a.amount > b.amount) candidates

theorem swapAt_perm {α : Type} (l : List α) (i j : Nat) : (swapAt l i j).Perm l := by
  unfold swapAt
  split
  · exact List.set_set_perm _ _
  · exact List.Perm.refl l

/-- Whatever is drawn, the shuffle reorders. -/
theorem fisherYates_perm {α : Type} (random : RandomBytes) (n : Nat) (l : List α) :
    (fisherYates random n l).Perm l := by
  induction n, l using fisherYates.induct random with
  | case1 i l current j ih =>
    rw [fisherYates]
    apply ih.trans
    split
    · exact swapAt_perm l _ _
    · exact List.Perm.refl l
  | case2 n l h =>
    unfold fisherYates
    split
    · exact absurd rfl (h _)
    · exact List.Perm.refl l

theorem coinOrder_perm (f : WalletFacade) (sorter : Sorter UtxoWithMeta) (random : RandomBytes)
    (tokenType : String) :
    (f.coinOrder sorter random tokenType).Perm (f.candidates tokenType) := by
  unfold WalletFacade.coinOrder
  cases f.coinStrategy with
  | largestFirst => exact sorter.perm _ _
  | smallestFirst => exact sorter.perm _ _
  | randomImprove => exact fisherYates_perm random _ _

/-! ## What is taken -/

/-- The running total of these coins, in 64 bits, reaches the amount. -/
def Reaches (amount : UInt64) (coins : List UtxoWithMeta) : Prop := amount ≤ wrapSum (amounts coins)

instance (amount : UInt64) : DecidablePred (Reaches amount) :=
  fun _ => inferInstanceAs (Decidable (_ ≤ _))

theorem Reaches.worth_le {amount : UInt64} {coins : List UtxoWithMeta} (h : Reaches amount coins) :
    amount.toNat ≤ worth coins :=
  (UInt64.le_iff_toNat_le.mp h).trans (toNat_wrapSum_le _)

/-- The loop carries the 64-bit sum of what it has read. -/
theorem takeUntil_eq (amount : UInt64) (seen coins : List UtxoWithMeta) :
    takeUntil amount seen (wrapSum (amounts seen)) coins =
      match extend (Reaches amount) seen coins with
      | some p => (p, wrapSum (amounts p))
      | none => (seen ++ coins, wrapSum (amounts (seen ++ coins))) := by
  induction coins generalizing seen with
  | nil => simp [takeUntil, extend]
  | cons c coins ih =>
    have total : wrapSum (amounts seen) + c.amount = wrapSum (amounts (seen ++ [c])) := by
      simp [amounts, wrapSum]
    rw [takeUntil, extend, total]
    by_cases h : Reaches amount (seen ++ [c])
    · rw [if_pos h]
      exact if_pos h
    · rw [if_neg h]
      apply (if_neg h).trans
      rw [ih]
      simp

/-- The locals after the loop stopped at a prefix. -/
def tallyOf (amount : UInt64) (p : List UtxoWithMeta) : Tally :=
  ⟨p, wrapSum (amounts p), wasteOver (wrapSum (amounts p)) amount⟩

theorem takeUntil_nil (amount : UInt64) (coins : List UtxoWithMeta) :
    takeUntil amount [] 0 coins =
      match shortestPrefix (Reaches amount) coins with
      | some p => (p, wrapSum (amounts p))
      | none => (coins, wrapSum (amounts coins)) :=
  takeUntil_eq amount [] coins

/-- A list no prefix of which reaches the amount is empty or falls short itself. -/
theorem short_of_none {amount : UInt64} {coins : List UtxoWithMeta}
    (h : shortestPrefix (Reaches amount) coins = none) :
    coins = [] ∨ wrapSum (amounts coins) < amount := by
  by_cases hnil : coins = []
  · exact Or.inl hnil
  · right
    apply UInt64.not_le.mp
    exact shortestPrefix_eq_none.mp h coins hnil (List.prefix_refl coins)

theorem selectGreedy_eq (amount : UInt64) (coins : List UtxoWithMeta) :
    selectGreedy amount coins = (shortestPrefix (Reaches amount) coins).getD [] := by
  unfold selectGreedy
  rw [takeUntil_nil]
  cases hs : shortestPrefix (Reaches amount) coins with
  | some p =>
    have reached := (shortestPrefix_isShortest hs).passes
    exact if_neg (UInt64.not_lt.mpr reached)
  | none =>
    rcases short_of_none hs with rfl | hshort
    · exact ite_self []
    · exact if_pos hshort

/-- A total at or below the target has no waste to lower. -/
theorem improve_of_no_waste {t : Tally} (target : UInt64) (coins : List UtxoWithMeta)
    (h : t.waste = 0) : t.improve target coins = t := by
  have none_left : coins.find? (t.improvedBy target) = none := by
    apply List.find?_eq_none.mpr
    intro c _
    simp [Tally.improvedBy, h]
  simp [Tally.improve, none_left]

theorem selectRandom_eq (amount : UInt64) (coins : List UtxoWithMeta) :
    selectRandom amount coins =
      match shortestPrefix (Reaches amount) coins with
      | some p =>
        let t := (tallyOf amount p).improve amount coins
        if t.total < amount then [] else t.selected
      | none => [] := by
  have guard (t : Tally) : (if t.waste > 0 then t.improve amount coins else t) =
      t.improve amount coins := by
    by_cases h : t.waste > 0
    · exact if_pos h
    · rw [if_neg h, improve_of_no_waste]
      exact UInt64.le_zero_iff.mp (UInt64.not_lt.mp h)
  unfold selectRandom
  rw [takeUntil_nil]
  cases hs : shortestPrefix (Reaches amount) coins with
  | some p =>
    simp only [guard ⟨_, _, _⟩, tallyOf]
    rfl
  | none =>
    rcases short_of_none hs with rfl | hshort
    · simp [wasteOver, amounts]
    · have no_waste : wasteOver (wrapSum (amounts coins)) amount = 0 :=
        if_neg (UInt64.not_lt.mpr (UInt64.le_of_lt hshort))
      simp [no_waste, hshort]

/-! ## The exchange -/

theorem largestIdx_lt {coins : List UtxoWithMeta} (h : coins ≠ []) : largestIdx coins < coins.length := by
  have stays (idxs : List Nat) (start : Nat) (hstart : start < coins.length)
      (hidxs : ∀ i ∈ idxs, i < coins.length) :
      idxs.foldl (fun largest i => if amountAt coins i > amountAt coins largest then i else largest)
        start < coins.length := by
    induction idxs generalizing start with
    | nil => exact hstart
    | cons i idxs ih =>
      rw [List.foldl_cons]
      apply ih _ _ fun k hk => hidxs k (List.mem_cons_of_mem i hk)
      split
      · exact hidxs i List.mem_cons_self
      · exact hstart
  have hpos := List.length_pos_iff.mpr h
  apply stays _ 0 hpos
  intro i hi
  have := List.mem_range'_1.mp hi
  omega

/-- Exchanging a coin changes the 64-bit sum by the difference. -/
theorem wrapSum_set {coins : List UtxoWithMeta} {i : Nat} (h : i < coins.length) (c : UtxoWithMeta) :
    wrapSum (amounts (coins.set i c)) = wrapSum (amounts coins) - amountAt coins i + c.amount := by
  have after := worth_perm (List.set_perm_cons_eraseIdx h c)
  have before := worth_perm (List.getElem_cons_eraseIdx_perm h)
  have out : amountAt coins i = coins[i].amount := by simp [amountAt, h]
  rw [worth_cons] at after before
  apply UInt64.toNat_inj.mp
  rw [out, UInt64.toNat_add, UInt64.toNat_sub, toNat_wrapSum, toNat_wrapSum]
  have := coins[i].amount.toNat_lt
  change worth _ % _ = ((_ + worth _ % _) % _ + _) % _
  omega

/-- The coins after an exchange still come from the list read. -/
theorem exchange_subperm {p l : List UtxoWithMeta} {c : UtxoWithMeta} {i : Nat} (hp : p <+: l)
    (hi : i < p.length) (hc : c ∈ l) (hnew : c ∉ p) : (p.set i c).Subperm l := by
  obtain ⟨rest, rfl⟩ := hp
  have hrest : c ∈ rest := (List.mem_append.mp hc).resolve_left hnew
  have sub : (p.eraseIdx i ++ [c]).Sublist (p ++ rest) :=
    (List.eraseIdx_sublist p i).append (List.singleton_sublist.mpr hrest)
  have perm : (p.set i c).Perm (p.eraseIdx i ++ [c]) :=
    (List.set_perm_cons_eraseIdx hi c).trans (List.perm_append_singleton c _).symm
  exact perm.subperm.trans sub.subperm

/-- What a pass over a taken prefix leaves: coins of the list it reads whose
64-bit sum is the total it reports. -/
theorem improve_tallyOf (amount : UInt64) {p l : List UtxoWithMeta} (hne : p ≠ [])
    (hp : p <+: l) :
    let t := (tallyOf amount p).improve amount l
    t.selected ≠ [] ∧ t.selected.Subperm l ∧ t.total = wrapSum (amounts t.selected) := by
  intro t
  cases hf : l.find? ((tallyOf amount p).improvedBy amount) with
  | none =>
    have same : t = tallyOf amount p := by simp only [t, Tally.improve, hf]
    rw [same]
    exact ⟨hne, hp.sublist.subperm, rfl⟩
  | some c =>
    have hi := largestIdx_lt hne
    have exchanged : t = ⟨p.set (largestIdx p) c, (tallyOf amount p).exchanged c,
        wasteOver ((tallyOf amount p).exchanged c) amount⟩ := by
      simp only [t, Tally.improve, hf]
      rfl
    have hnew : c ∉ p := by
      intro hmem
      have hby := List.find?_some hf
      have held : p.any (·.utxoHash == c.utxoHash) = true := List.any_eq_true.mpr ⟨c, hmem, by simp⟩
      simp [Tally.improvedBy, tallyOf, held] at hby
    rw [exchanged]
    refine ⟨?_, exchange_subperm hp hi (List.mem_of_find?_eq_some hf) hnew, ?_⟩
    · simpa using hne
    · exact (wrapSum_set hi c).symm

/-! ## When a funded wallet is served -/

/-- The coin the pass would exchange for the largest one, if there is one,
leaves the total at the amount. -/
def ExchangeKeeps (amount : UInt64) (order p : List UtxoWithMeta) : Prop :=
  ∀ c, order.find? ((tallyOf amount p).improvedBy amount) = some c →
    amount ≤ (tallyOf amount p).exchanged c

theorem improve_total_iff {amount : UInt64} {p l : List UtxoWithMeta} (hp : Reaches amount p) :
    amount ≤ ((tallyOf amount p).improve amount l).total ↔ ExchangeKeeps amount l p := by
  unfold ExchangeKeeps Tally.improve
  cases hf : l.find? ((tallyOf amount p).improvedBy amount) with
  | none => exact iff_of_true hp fun c hc => nomatch hc
  | some c => simp

/-- A selection that is made on a condition, and then takes coins of the order
that reach the amount. -/
structure TakesWhen (keeps : Prop) (amount : UInt64) (order selected : List UtxoWithMeta) :
    Prop where
  success : selected ≠ [] ↔ keeps
  coins : selected ≠ [] → selected.Subperm order
  reaches : selected ≠ [] → Reaches amount selected

theorem selectGreedy_takes {amount : UInt64} {order p : List UtxoWithMeta}
    (h : shortestPrefix (Reaches amount) order = some p) :
    TakesWhen True amount order (selectGreedy amount order) := by
  have short := shortestPrefix_isShortest h
  rw [selectGreedy_eq, h]
  exact ⟨iff_of_true short.nonempty trivial, fun _ => short.isPrefix.sublist.subperm,
    fun _ => short.passes⟩

theorem selectRandom_takes {amount : UInt64} {order p : List UtxoWithMeta}
    (h : shortestPrefix (Reaches amount) order = some p) :
    TakesWhen (ExchangeKeeps amount order p) amount order (selectRandom amount order) := by
  have short := shortestPrefix_isShortest h
  obtain ⟨hne, hsub, htotal⟩ := improve_tallyOf amount short.nonempty short.isPrefix
  rw [selectRandom_eq, h, ← improve_total_iff short.passes]
  dsimp only
  by_cases hlow : ((tallyOf amount p).improve amount order).total < amount
  · rw [if_pos hlow]
    exact ⟨iff_of_false (fun h => h rfl) (UInt64.not_le.mpr hlow), fun h => absurd rfl h,
      fun h => absurd rfl h⟩
  · rw [if_neg hlow]
    have reached := UInt64.not_lt.mp hlow
    refine ⟨iff_of_true hne reached, fun _ => hsub, ?_⟩
    intro _
    rw [Reaches, ← htotal]
    exact reached

section Facade
variable (f : WalletFacade) (sorter : Sorter UtxoWithMeta) (random : RandomBytes) (amount : UInt64)
  (tokenType : String)

theorem selectCoins_of_none
    (h : shortestPrefix (Reaches amount) (f.coinOrder sorter random tokenType) = none) :
    f.selectCoins sorter random amount tokenType = [] := by
  unfold WalletFacade.selectCoins
  unfold WalletFacade.coinOrder at h
  cases hs : f.coinStrategy with
  | randomImprove =>
    simp only [hs] at h ⊢
    rw [selectRandom_eq, h]
  | _ =>
    simp only [hs] at h ⊢
    rw [selectGreedy_eq, h, Option.getD_none]

theorem selectCoins_takes {p : List UtxoWithMeta}
    (h : shortestPrefix (Reaches amount) (f.coinOrder sorter random tokenType) = some p) :
    TakesWhen (f.coinStrategy = .randomImprove →
        ExchangeKeeps amount (f.coinOrder sorter random tokenType) p)
      amount (f.coinOrder sorter random tokenType) (f.selectCoins sorter random amount tokenType) := by
  unfold WalletFacade.selectCoins
  unfold WalletFacade.coinOrder at h ⊢
  cases hs : f.coinStrategy with
  | randomImprove =>
    simp only [hs, forall_const] at h ⊢
    exact selectRandom_takes h
  | _ =>
    simp only [hs, reduceCtorEq, false_implies] at h ⊢
    exact selectGreedy_takes h

/-- A selection serves the wallet: it is made exactly when the coins of the
token are worth the amount, and then takes such coins, each at most once. -/
structure Serves (f : WalletFacade) (amount : UInt64) (tokenType : String)
    (selected : List UtxoWithMeta) : Prop where
  success : selected ≠ [] ↔ amount.toNat ≤ worth (f.candidates tokenType)
  coins : selected ≠ [] → selected.Subperm (f.candidates tokenType)
  paid : selected ≠ [] → amount.toNat ≤ worth selected

variable {f sorter random amount tokenType}

/-- Whatever is selected pays. -/
theorem selectCoins_sound (h : f.selectCoins sorter random amount tokenType ≠ []) :
    (f.selectCoins sorter random amount tokenType).Subperm (f.candidates tokenType) ∧
      amount.toNat ≤ worth (f.selectCoins sorter random amount tokenType) := by
  cases hp : shortestPrefix (Reaches amount) (f.coinOrder sorter random tokenType) with
  | none => exact absurd (selectCoins_of_none f sorter random amount tokenType hp) h
  | some p =>
    have takes := selectCoins_takes f sorter random amount tokenType hp
    constructor
    · exact (takes.coins h).trans (coinOrder_perm f sorter random tokenType).subperm
    · exact (takes.reaches h).worth_le

variable (f sorter random amount tokenType)

/-- **When a funded wallet is served.** Selection serves the wallet exactly
when, if its coins are worth the amount, some prefix of the order reaches it in
64 bits and the exchange of the random strategy does not fall below it. -/
theorem select_coins_funded_iff :
    Serves f amount tokenType (f.selectCoins sorter random amount tokenType) ↔
      (amount.toNat ≤ worth (f.candidates tokenType) →
        ∃ p, IsShortest (Reaches amount) (f.coinOrder sorter random tokenType) p ∧
          (f.coinStrategy = .randomImprove →
            ExchangeKeeps amount (f.coinOrder sorter random tokenType) p)) := by
  constructor
  · intro serves funded
    have made := serves.success.mpr funded
    cases hp : shortestPrefix (Reaches amount) (f.coinOrder sorter random tokenType) with
    | none => exact absurd (selectCoins_of_none f sorter random amount tokenType hp) made
    | some p =>
      have takes := selectCoins_takes f sorter random amount tokenType hp
      exact ⟨p, shortestPrefix_isShortest hp, takes.success.mp made⟩
  · intro fits
    refine ⟨⟨?_, ?_⟩, fun h => (selectCoins_sound h).1, fun h => (selectCoins_sound h).2⟩
    · intro made
      obtain ⟨hsub, hpaid⟩ := selectCoins_sound made
      exact hpaid.trans (worth_subperm hsub)
    · intro funded
      obtain ⟨p, short, keeps⟩ := fits funded
      have takes := selectCoins_takes f sorter random amount tokenType (shortestPrefix_eq_some.mpr short)
      exact takes.success.mpr keeps

end Facade

/-- With every draw zero, coins of 5 and 20 are read as 20 and 5. For an amount
of 10 the pass exchanges the 20 for the 5, and the funded wallet gets nothing. -/
theorem exchange_loses_funds :
    let random : RandomBytes := ⟨fun _ _ => 0, fun _ _ h => Nat.lt_trans Nat.zero_lt_one h, fun _ _ _ => rfl⟩
    let f : WalletFacade :=
      { unshielded := { availableCoins := [{ utxoHash := "a", amount := 5 }, { utxoHash := "b", amount := 20 }] }
        coinStrategy := .randomImprove }
    f.selectCoins (.merge _) random 10 "NIGHT" = [] ∧
      ¬ Serves f 10 "NIGHT" (f.selectCoins (.merge _) random 10 "NIGHT") := by
  constructor
  · decide
  · intro serves
    exact absurd (serves.success.mpr (by decide)) (by decide)

end MidnightSdk.Wallet
