import MidnightSdk.Wallet.Transactions

/-!
# Merging transactions

`mergeTransactions` folds a list into one transaction. A side held as an array
is appended to; a side held as an object is copied only when the target has
none, and otherwise ignored, so the totals survive exactly when what was
ignored was worth nothing and the sums fit in 64 bits.
-/

namespace MidnightSdk.Wallet

open Cpp Words Json

/-- One side of a merge. -/
def mergeSide (key : String) (target source : Json) : Throws Json :=
  match target.find? key, source.find? key with
  | some held, some (.array xs) => do
    let held ← xs.foldlM Json.pushBack held
    target.set key held
  | some _, some _ => .ok target
  | none, some v => target.set key v
  | _, none => .ok target

/-- The hashes the target already records, as an array or as one string. -/
def mergedBefore (target : Json) : Throws (List String) :=
  match target.find? "merged_with" with
  | none => .ok []
  | some (.array xs) => (Json.array xs).getStrings
  | some j => do return [← j.getString]

/-- Record the hash of the transaction merged in. -/
def trackMerged (target source : Json) : Throws Json :=
  match source.find? "tx_hash" with
  | none => .ok target
  | some hash => do
    let merged ← mergedBefore target
    let hash ← hash.getString
    target.set "merged_with" (.array ((merged ++ [hash]).map .string))

def Env.mergeInto (env : Env) (target source : Json) : Throws Json :=
  if source.isNull then .ok target
  else if target.isNull then .ok source
  else do
    let target ← mergeSide "inputs" target source
    let target ← mergeSide "outputs" target source
    let feeTarget ← target.valueUInt64 "fee" 0
    let feeSource ← source.valueUInt64 "fee" 0
    let fee ← safeAdd feeTarget feeSource
    let target ← target.set "fee" (.unsigned fee)
    let target ← trackMerged target source
    target.set "tx_hash" (.string (env.hashTransaction target))

def Env.mergeTransactions (env : Env) (txs : List Json) : Throws Json :=
  txs.foldlM env.mergeInto .null

/-! ## What a transaction holds -/

/-- A side is absent, an array or an object, and its amounts can be read. -/
structure ReadableSide (key : String) (tx : Json) : Prop where
  shape : ∀ v, tx.find? key = some v → (∃ xs, v = .array xs) ∨ ∃ m, v = .object m
  amounts : ∃ xs, sideAmounts key tx = .ok xs

structure Mergeable (tx : Json) : Prop where
  isObject : ∃ m, tx = .object m
  inputs : ReadableSide "inputs" tx
  outputs : ReadableSide "outputs" tx

/-- The hashes recorded under `merged_with`, held as an array or alone. -/
def mergedWith (tx : Json) : List String :=
  match tx.find? "merged_with" with
  | some (.array xs) => xs.filterMap asString
  | some v => (asString v).toList
  | none => []

/-- The side is held as an object. -/
def hasObjectSide (key : String) (tx : Json) : Bool :=
  match tx.find? key with
  | some (.object _) => true
  | _ => false

/-- The transactions whose side a merge ignores: those holding it as an object
when an earlier one already has that side. -/
def ignored (key : String) : Bool → List Json → List Json
  | _, [] => []
  | present, t :: rest =>
    (if present && hasObjectSide key t then [t] else []) ++
      ignored key (present || t.contains key) rest

/-- The exact amount of a side that reaches the merged transaction. -/
def keptTotal (key : String) : Bool → List Json → Nat
  | _, [] => 0
  | present, t :: rest =>
    (if present && hasObjectSide key t then 0 else exactTotal key t) +
      keptTotal key (present || t.contains key) rest

theorem ReadableSide.congr {key : String} {t u : Json} (h : t.find? key = u.find? key)
    (ht : ReadableSide key t) : ReadableSide key u :=
  ⟨by rw [← h]; exact ht.shape, by rw [← sideAmounts_congr h]; exact ht.amounts⟩

theorem ReadableSide.totalOf_eq {key : String} {tx : Json} (h : ReadableSide key tx) :
    totalOf key tx = exactTotal key tx % 2 ^ 64 := by
  obtain ⟨xs, hx⟩ := h.amounts
  simp only [totalOf, exactTotal, extractTotal_eq, hx, Except.map]
  exact toNat_wrapSum xs

/-! ## One step -/

/-- What merging does to one side: the amounts of the source are appended,
unless they are ignored. -/
structure SideMerged (key : String) (target source merged : Json) : Prop where
  readable : ReadableSide key merged
  present : merged.contains key = (target.contains key || source.contains key)
  total : exactTotal key merged = exactTotal key target +
    if target.contains key && hasObjectSide key source then 0 else exactTotal key source

/-- Only the side itself matters, so later changes to other members keep it. -/
theorem SideMerged.congr {key : String} {target target' source merged merged' : Json}
    (ht : target.find? key = target'.find? key) (hm : merged.find? key = merged'.find? key)
    (h : SideMerged key target source merged) : SideMerged key target' source merged' := by
  have hc : target.contains key = target'.contains key := by simp only [contains, ht]
  have hd : merged.contains key = merged'.contains key := by simp only [contains, hm]
  refine ⟨h.readable.congr hm, ?_, ?_⟩
  · rw [← hc, ← hd]
    exact h.present
  · rw [← exactTotal_congr ht, ← exactTotal_congr hm, ← hc]
    exact h.total

theorem exactTotal_absent {key : String} {tx : Json} (h : tx.find? key = none) :
    exactTotal key tx = 0 := by simp [exactTotal, sideAmounts, h]

theorem pushBack_object_ok {m : Fields} {xs : List Json} {v : Json}
    (h : xs.foldlM Json.pushBack (.object m) = .ok v) : xs = [] ∧ v = .object m := by
  cases xs with
  | nil => exact ⟨rfl, by cases h; rfl⟩
  | cons x xs => cases h

theorem entryAmounts_eq_of_side {key : String} {tx : Json} {xs : List Json} {as : List UInt64}
    (hside : tx.find? key = some (.array xs)) (ha : sideAmounts key tx = .ok as) :
    entryAmounts xs = .ok as := by
  simpa [sideAmounts, hside] using ha

/-- Two arrays are appended. -/
theorem sideMerged_array {key : String} {m : Fields} {source : Json} {xs ys : List Json}
    (htr : ReadableSide key (.object m)) (hsr : ReadableSide key source)
    (ht : lookup key m = some (.array xs)) (hs : source.find? key = some (.array ys)) :
    SideMerged key (.object m) source (.object (assign key (.array (xs ++ ys)) m)) := by
  obtain ⟨as, ha⟩ := htr.amounts
  obtain ⟨bs, hb⟩ := hsr.amounts
  have held : (Json.object m).find? key = some (.array xs) := ht
  have amounts : sideAmounts key (.object (assign key (.array (xs ++ ys)) m)) = .ok (as ++ bs) := by
    have both : entryAmounts (xs ++ ys) = .ok (as ++ bs) := by
      rw [entryAmounts_append, entryAmounts_eq_of_side held ha, entryAmounts_eq_of_side hs hb]
      rfl
    simpa [sideAmounts] using both
  refine ⟨⟨?_, _, amounts⟩, by simp [contains, ht], ?_⟩
  · intro v hv
    exact Or.inl ⟨xs ++ ys, by simpa using hv.symm⟩
  · simp [exactTotal, amounts, ha, hb, hasObjectSide, hs]

/-- An object keeps its side, and nothing was to be appended to it. -/
theorem sideMerged_object {key : String} {m o : Fields} {source : Json}
    (htr : ReadableSide key (.object m)) (ht : lookup key m = some (.object o))
    (hs : source.find? key = some (.array [])) :
    SideMerged key (.object m) source (.object (assign key (.object o) m)) := by
  have same : (Json.object (assign key (.object o) m)).find? key = (Json.object m).find? key := by
    simp [ht]
  have empty : exactTotal key source = 0 := by
    simp [exactTotal, sideAmounts, hs, entryAmounts, pure, Except.pure]
  refine ⟨htr.congr same.symm, by simp [contains, ht], ?_⟩
  rw [exactTotal_congr same, empty]
  simp

theorem mergeSide_ok {key : String} {m : Fields} {source merged : Json}
    (htr : ReadableSide key (.object m)) (hsr : ReadableSide key source)
    (h : mergeSide key (.object m) source = .ok merged) :
    ∃ m', merged = .object m' ∧ (∀ k, k ≠ key → lookup k m' = lookup k m) ∧
      SideMerged key (.object m) source merged := by
  simp only [mergeSide] at h
  cases hs : source.find? key with
  | none =>
    have : merged = .object m := by
      cases htf : lookup key m <;> simp [htf, hs] at h <;> exact h.symm
    subst this
    exact ⟨m, rfl, fun _ _ => rfl, htr, by simp [contains, hs],
      by simp [exactTotal_absent hs, hasObjectSide, hs]⟩
  | some v =>
    cases htf : lookup key m with
    | none =>
      simp only [find?_object, htf, hs, set_object, Except.ok.injEq] at h
      subst h
      have same : (Json.object (assign key v m)).find? key = source.find? key := by simp [hs]
      refine ⟨_, rfl, fun k hk => by simp [hk], hsr.congr same.symm, by simp [contains, hs], ?_⟩
      rw [exactTotal_congr same, exactTotal_absent (show (Json.object m).find? key = none from htf)]
      simp [contains, htf]
    | some held =>
      rcases hsr.shape v hs with ⟨ys, rfl⟩ | ⟨o, rfl⟩
      · -- an array source: appended to an array, rejected by an object unless empty
        simp only [find?_object, htf, hs] at h
        rcases htr.shape held htf with ⟨xs, rfl⟩ | ⟨o, rfl⟩
        · simp only [foldlM_pushBack_array, bind, Except.bind, set_object, Except.ok.injEq] at h
          subst h
          exact ⟨_, rfl, fun k hk => by simp [hk], sideMerged_array htr hsr htf hs⟩
        · obtain ⟨v, hfold, hset⟩ := bind_eq_ok.mp h
          obtain ⟨rfl, rfl⟩ := pushBack_object_ok hfold
          simp only [set_object, Except.ok.injEq] at hset
          subst hset
          exact ⟨_, rfl, fun k hk => by simp [hk], sideMerged_object htr htf hs⟩
      · -- an object source is ignored
        simp only [find?_object, htf, hs, Except.ok.injEq] at h
        subst h
        exact ⟨m, rfl, fun _ _ => rfl, htr, by simp [contains, htf],
          by simp [contains, htf, hasObjectSide, hs]⟩

theorem mapM_getString {xs : List Json} {ss : List String} (h : xs.mapM getString = .ok ss) :
    xs.filterMap asString = ss := by
  induction xs generalizing ss with
  | nil => cases h; rfl
  | cons x xs ih =>
    rw [List.mapM_cons] at h
    cases x with
    | string s =>
      cases hx : xs.mapM getString with
      | error e => simp [getString, hx, bind, Except.bind] at h
      | ok rest =>
        simp only [getString, hx, bind, Except.bind, pure, Except.pure, Except.ok.injEq] at h
        rw [List.filterMap_cons, ← h, ih hx]
        rfl
    | _ => cases h

theorem mergedBefore_ok {tx : Json} {hashes : List String} (h : mergedBefore tx = .ok hashes) :
    mergedWith tx = hashes := by
  unfold mergedBefore at h
  unfold mergedWith
  split at h
  · cases h
    simp [*]
  · rename_i hm
    simp only [hm]
    exact mapM_getString h
  · rename_i j hnot hm
    cases j with
    | string s =>
      cases h
      simp [hm, asString]
    | array xs => exact absurd rfl (hnot xs)
    | _ => cases h

theorem trackMerged_ok {m : Fields} {source merged : Json}
    (h : trackMerged (.object m) source = .ok merged) :
    ∃ m', merged = .object m' ∧ (∀ k, k ≠ "merged_with" → lookup k m' = lookup k m) ∧
      mergedWith merged = mergedWith (.object m) ++ (txHash? source).toList := by
  simp only [trackMerged] at h
  split at h
  · rename_i hh
    cases h
    exact ⟨m, rfl, fun _ _ => rfl, by simp [txHash?, hh]⟩
  · rename_i hash hh
    obtain ⟨before, hb, h⟩ := bind_eq_ok.mp h
    obtain ⟨s, hg, h⟩ := bind_eq_ok.mp h
    cases hash with
    | string s =>
      cases hg
      cases h
      refine ⟨_, rfl, fun k hk => by simp [hk], ?_⟩
      rw [mergedBefore_ok hb]
      simp [mergedWith, txHash?, hh, asString, List.filterMap_map, Function.comp_def]
    | _ => cases hg

/-- What merging one transaction into another does. -/
structure Merged (target source merged : Json) : Prop where
  isObject : ∃ m, merged = .object m
  inputs : SideMerged "inputs" target source merged
  outputs : SideMerged "outputs" target source merged
  fee : feeOf merged = feeOf target + feeOf source
  hashes : mergedWith merged = mergedWith target ++ (txHash? source).toList

theorem Merged.mergeable {target source merged : Json} (h : Merged target source merged) :
    Mergeable merged := ⟨h.isObject, h.inputs.readable, h.outputs.readable⟩

theorem mergedWith_congr {m n : Fields} (h : lookup "merged_with" m = lookup "merged_with" n) :
    mergedWith (.object m) = mergedWith (.object n) := by
  simp only [mergedWith, find?_object, h]

theorem mergeInto_merged {env : Env} {target source merged : Json} (ht : Mergeable target)
    (hs : Mergeable source) (h : env.mergeInto target source = .ok merged) :
    Merged target source merged := by
  obtain ⟨m, rfl⟩ := ht.isObject
  obtain ⟨n, rfl⟩ := hs.isObject
  simp only [Env.mergeInto, isNull, Bool.false_eq_true, ↓reduceIte] at h
  obtain ⟨t₁, h₁, h⟩ := bind_eq_ok.mp h
  obtain ⟨m₁, rfl, frame₁, inputs⟩ := mergeSide_ok ht.inputs hs.inputs h₁
  have same₁ : (Json.object m₁).find? "outputs" = (Json.object m).find? "outputs" :=
    frame₁ _ (by decide)
  obtain ⟨t₂, h₂, h⟩ := bind_eq_ok.mp h
  obtain ⟨m₂, rfl, frame₂, outputs⟩ := mergeSide_ok (ht.outputs.congr same₁.symm) hs.outputs h₂
  obtain ⟨feeTarget, hft, h⟩ := bind_eq_ok.mp h
  obtain ⟨feeSource, hfs, h⟩ := bind_eq_ok.mp h
  obtain ⟨fee, hfee, h⟩ := bind_eq_ok.mp h
  obtain ⟨t₃, h₃, h⟩ := bind_eq_ok.mp h
  cases h₃
  obtain ⟨t₄, h₄, h⟩ := bind_eq_ok.mp h
  obtain ⟨m₄, rfl, frame₄, hashes⟩ := trackMerged_ok h₄
  rw [set_object] at h
  cases h
  have side {k : String} (hfee : k ≠ "fee") (hwith : k ≠ "merged_with") (hhash : k ≠ "tx_hash") :
      ∀ s, lookup k (assign "tx_hash" s m₄) = lookup k m₂ := by
    intro s
    rw [lookup_assign_of_ne hhash, frame₄ k hwith, lookup_assign_of_ne hfee]
  have fee₂ : lookup "fee" m₂ = lookup "fee" m := by
    rw [frame₂ _ (by decide), frame₁ _ (by decide)]
  refine ⟨⟨_, rfl⟩, ?_, ?_, ?_, ?_⟩
  · refine inputs.congr rfl ?_
    rw [find?_object, find?_object, side (by decide) (by decide) (by decide),
      frame₂ _ (by decide)]
  · refine outputs.congr same₁ ?_
    rw [find?_object, find?_object, side (by decide) (by decide) (by decide)]
  · have stored : ∀ s, lookup "fee" (assign "tx_hash" s m₄) = some (.unsigned fee) := by
      intro s
      rw [lookup_assign_of_ne (by decide), frame₄ _ (by decide), lookup_assign_self]
    have target₂ : feeOf (.object m) = feeTarget.toNat := by
      rw [feeOf, ← recordedFee_congr fee₂, recordedFee, hft]
    have source₂ : feeOf (.object n) = feeSource.toNat := by rw [feeOf, recordedFee, hfs]
    rw [target₂, source₂, feeOf, recordedFee_eq (stored _)]
    exact safeAdd_ok hfee
  · rw [mergedWith_congr (lookup_assign_of_ne (by decide) _ _), hashes,
      mergedWith_congr (lookup_assign_of_ne (by decide) _ _),
      mergedWith_congr ((frame₂ _ (by decide)).trans (frame₁ _ (by decide)))]

/-! ## The whole list -/

/-- The totals of a list of transactions, kept and ignored, add up. -/
theorem totals_split (key : String) (present : Bool) {txs : List Json}
    (h : ∀ t ∈ txs, ReadableSide key t) :
    (txs.map (totalOf key)).sum % 2 ^ 64 =
      (keptTotal key present txs + ((ignored key present txs).map (totalOf key)).sum) % 2 ^ 64 := by
  induction txs generalizing present with
  | nil => rfl
  | cons t rest ih =>
    have hrest := ih (present || t.contains key) fun u hu => h u (List.mem_cons_of_mem t hu)
    have ht := (h t List.mem_cons_self).totalOf_eq
    simp only [List.map_cons, List.sum_cons, keptTotal, ignored]
    split <;> simp only [List.map_append, List.sum_append, List.map_cons, List.map_nil,
      List.sum_cons, List.sum_nil] <;> omega

theorem sum_ignored_le (key : String) (present : Bool) (txs : List Json) :
    ((ignored key present txs).map (totalOf key)).sum ≤ (txs.map (totalOf key)).sum := by
  induction txs generalizing present with
  | nil => exact Nat.le_refl _
  | cons t rest ih =>
    have := ih (present || t.contains key)
    simp only [List.map_cons, List.sum_cons, ignored]
    split <;> simp only [List.map_append, List.sum_append, List.map_cons, List.map_nil,
      List.sum_cons, List.sum_nil] <;> omega

/-- What a run of merges leaves on one side. -/
structure SideOfRun (key : String) (target : Json) (sources : List Json) (merged : Json) : Prop where
  readable : ReadableSide key merged
  total : exactTotal key merged = exactTotal key target + keptTotal key (target.contains key) sources

theorem SideOfRun.step {key : String} {target source next merged : Json} {rest : List Json}
    (hstep : SideMerged key target source next) (hrun : SideOfRun key next rest merged) :
    SideOfRun key target (source :: rest) merged := by
  refine ⟨hrun.readable, ?_⟩
  rw [hrun.total, hstep.total, hstep.present, keptTotal, Nat.add_assoc]

/-- Every step adds its source, so a run adds them all. -/
theorem merge_run {env : Env} {target merged : Json} {sources : List Json} (ht : Mergeable target)
    (hs : ∀ s ∈ sources, Mergeable s) (h : sources.foldlM env.mergeInto target = .ok merged) :
    SideOfRun "inputs" target sources merged ∧ SideOfRun "outputs" target sources merged ∧
      feeOf merged = feeOf target + (sources.map feeOf).sum ∧
      mergedWith merged = mergedWith target ++ sources.filterMap txHash? := by
  induction sources generalizing target with
  | nil =>
    cases h
    exact ⟨⟨ht.inputs, rfl⟩, ⟨ht.outputs, rfl⟩, rfl, by simp⟩
  | cons source rest ih =>
    rw [List.foldlM_cons] at h
    obtain ⟨next, hnext, hrest⟩ := bind_eq_ok.mp h
    have step := mergeInto_merged ht (hs source List.mem_cons_self) hnext
    obtain ⟨inputs, outputs, fee, hashes⟩ :=
      ih step.mergeable (fun s hsr => hs s (List.mem_cons_of_mem source hsr)) hrest
    refine ⟨inputs.step step.inputs, outputs.step step.outputs, ?_, ?_⟩
    · rw [fee, step.fee, List.map_cons, List.sum_cons, Nat.add_assoc]
    · rw [hashes, step.hashes, List.filterMap_cons]
      cases txHash? source <;> simp

/-- The merged transaction holds all that was merged. -/
structure Conserved (txs : List Json) (merged : Json) : Prop where
  inputs : (extractTotalFromInputs merged).map UInt64.toNat = .ok (txs.map (totalOf "inputs")).sum
  outputs : (extractTotalFromOutputs merged).map UInt64.toNat = .ok (txs.map (totalOf "outputs")).sum
  fee : feeOf merged = (txs.map feeOf).sum
  hashes : mergedWith merged = (txs.head?.map mergedWith).getD [] ++ txs.tail.filterMap txHash?

/-- One side of the list can be merged without loss: its total fits in 64 bits
and nothing of value is ignored. -/
structure SideFits (key : String) (txs : List Json) : Prop where
  fits : (txs.map (totalOf key)).sum < 2 ^ 64
  ignored : ∀ t ∈ ignored key false txs, totalOf key t = 0

theorem extract_eq_iff {key : String} {txs : List Json} {merged : Json}
    (hr : ReadableSide key merged) (htotal : exactTotal key merged = keptTotal key false txs)
    (h : ∀ t ∈ txs, ReadableSide key t) :
    (extractTotal key merged).map UInt64.toNat = .ok (txs.map (totalOf key)).sum ↔
      SideFits key txs := by
  have split := totals_split key false h
  have hle := sum_ignored_le key false txs
  obtain ⟨xs, hx⟩ := hr.amounts
  have value : (extractTotal key merged).map UInt64.toNat = .ok (keptTotal key false txs % 2 ^ 64) := by
    rw [← htotal, exactTotal, extractTotal_eq, hx]
    simp [Except.map, toNat_wrapSum]
  rw [value, Except.ok.injEq]
  have lost : ((ignored key false txs).map (totalOf key)).sum = 0 ↔
      ∀ t ∈ ignored key false txs, totalOf key t = 0 := by
    rw [List.sum_eq_zero_iff_forall_eq_nat, List.forall_mem_map]
  constructor
  · intro he
    exact ⟨by omega, lost.mp (by omega)⟩
  · rintro ⟨hfits, hlost⟩
    have := lost.mpr hlost
    omega

/-- **Merging conserves exactly what it keeps.** A merge that does not throw
returns the totals of all its transactions exactly when both sides fit in 64
bits and no transaction of value is ignored; fees and hashes are never lost. -/
theorem merge_conserves_iff (env : Env) (txs : List Json) (merged : Json)
    (htxs : ∀ t ∈ txs, Mergeable t) (h : env.mergeTransactions txs = .ok merged) :
    Conserved txs merged ↔ SideFits "inputs" txs ∧ SideFits "outputs" txs := by
  cases txs with
  | nil =>
    cases h
    refine ⟨fun _ => ⟨⟨by simp, by simp [ignored]⟩, ⟨by simp, by simp [ignored]⟩⟩, fun _ => ?_⟩
    exact ⟨rfl, rfl, rfl, rfl⟩
  | cons t rest =>
    have ht := htxs t List.mem_cons_self
    obtain ⟨m, rfl⟩ := ht.isObject
    have hrun : rest.foldlM env.mergeInto (.object m) = .ok merged := h
    obtain ⟨inputs, outputs, fee, hashes⟩ :=
      merge_run ht (fun s hs => htxs s (List.mem_cons_of_mem _ hs)) hrun
    have whole {key : String} (hside : SideOfRun key (.object m) rest merged) :
        exactTotal key merged = keptTotal key false (.object m :: rest) := by
      simp [hside.total, keptTotal]
    have inputs_iff := extract_eq_iff inputs.readable (whole inputs) fun u hu => (htxs u hu).inputs
    have outputs_iff := extract_eq_iff outputs.readable (whole outputs) fun u hu => (htxs u hu).outputs
    constructor
    · exact fun hc => ⟨inputs_iff.mp hc.inputs, outputs_iff.mp hc.outputs⟩
    · rintro ⟨hi, ho⟩
      exact ⟨inputs_iff.mpr hi, outputs_iff.mpr ho, by simpa using fee, by simpa using hashes⟩

/-- Two array transactions of 5 and 7, each with one output of 4. -/
theorem merge_conserves_two_arrays :
    let tx (amount : UInt64) (hash : String) : Json := .object
      [("inputs", .array [.object [("amount", .unsigned amount)]]),
       ("outputs", .array [.object [("amount", .unsigned 4)]]), ("tx_hash", .string hash)]
    ∃ merged, Env.mergeTransactions ⟨fun _ => [], fun _ => [], false⟩ [tx 5 "a", tx 7 "b"] = .ok merged ∧
      Conserved [tx 5 "a", tx 7 "b"] merged := by
  refine ⟨_, rfl, (merge_conserves_iff _ _ _ ?_ rfl).mpr ⟨⟨by decide, by decide⟩, ⟨by decide, by decide⟩⟩⟩
  intro t ht
  simp only [List.mem_cons, List.not_mem_nil, or_false] at ht
  rcases ht with rfl | rfl <;>
    exact ⟨⟨_, rfl⟩, ⟨fun v hv => Or.inl ⟨_, (Option.some.inj hv).symm⟩, _, rfl⟩,
      ⟨fun v hv => Or.inl ⟨_, (Option.some.inj hv).symm⟩, _, rfl⟩⟩

/-- Merging 7 NIGHT into 5 NIGHT, both held as objects, leaves 5. -/
theorem merge_ignores_object :
    let tx (amount : UInt64) : Json := .object [("inputs", .object [("NIGHT", .unsigned amount)])]
    ∃ merged, Env.mergeTransactions ⟨fun _ => [], fun _ => [], false⟩ [tx 5, tx 7] = .ok merged ∧
      ¬ Conserved [tx 5, tx 7] merged := by
  refine ⟨_, rfl, ?_⟩
  intro h
  have : (5 : Nat) = 12 := Except.ok.inj h.inputs
  omega

end MidnightSdk.Wallet
