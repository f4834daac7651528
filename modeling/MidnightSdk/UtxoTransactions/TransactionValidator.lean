import Mathlib.Data.List.Nodup
import MidnightSdk.Library.Cpp
import MidnightSdk.UtxoTransactions.UtxoSetManager

/-!
# Double spending inside a transaction

The builder refuses a second input with the same output, the validator one with
the same key. The two agree on a transaction whose inputs spell an output in
one way, and only there.
-/

namespace MidnightSdk.UtxoTransactions

open Util Cpp

structure UtxoOutput where
  address : List Char
  amountCommitment : List Char
  lockHeight : UInt32 := 0
  deriving DecidableEq, Repr

structure WitnessBundle where
  signatures : List (List Char) := []
  proofReferences : List (List Char) := []
  deriving DecidableEq, Repr

structure Transaction where
  inputs : List UtxoInput := []
  outputs : List UtxoOutput := []
  inputDust : UInt64 := 0
  outputDust : UInt64 := 0
  fees : UInt64 := 0
  proofs : List (List Char) := []
  signature : List Char := []
  witnessBundle : WitnessBundle := {}
  deriving DecidableEq, Repr

/-! ## The builder -/

/-- `outpoint + ":" + index`, in a message. -/
def UtxoInput.shown (input : UtxoInput) : String := String.ofList input.outpointKey

def hasDuplicateInput (inputs : List UtxoInput) (input : UtxoInput) : Bool :=
  inputs.any fun existing =>
    stripHexPrefix existing.outpoint == stripHexPrefix input.outpoint &&
      existing.outputIndex == input.outputIndex

/-- The two queries of one check are numbered `n` and `n + 1`. -/
def verifyInputUtxo (manager : UtxoSetManager) (n : Nat) (input : UtxoInput) : Bool :=
  if (manager.queryUtxo n input.outpoint input.outputIndex).isNone then false
  else manager.isSpent (n + 1) input.outpoint input.outputIndex != some true

/-- The inputs after the call. -/
def addInput (manager : Option UtxoSetManager) (n : Nat) (inputs : List UtxoInput)
    (input : UtxoInput) : Throws (List UtxoInput) :=
  if hasDuplicateInput inputs input then
    .error (.invalidArgument
      ("Duplicate input rejected: " ++ input.shown ++ " - double-spend prevention"))
  else if manager.any fun manager => !verifyInputUtxo manager n input then
    .error (.invalidArgument ("Invalid input: UTXO not found or already spent: " ++ input.shown))
  else .ok (inputs ++ [input])

/-- A builder without a manager given these inputs one after the other. -/
def assemble (inputs : List UtxoInput) : Throws (List UtxoInput) :=
  inputs.foldlM (addInput none 0) []

/-! ## The validator -/

def maxInputs : Nat := 256

def maxOutputs : Nat := 256

def commitmentHexSize : Nat := 66

/-- The first pass: the keys one after the other, against those before. -/
def checkDuplicates : List (List Char) → List UtxoInput → Except String Unit
  | _, [] => .ok ()
  | seen, input :: rest =>
    if seen.contains input.outpointKey then
      .error ("Duplicate input found: " ++ input.shown ++ " - double-spend prevention")
    else checkDuplicates (input.outpointKey :: seen) rest

/-- The second pass, from its n-th input on. -/
def checkInputs (manager : Option UtxoSetManager) :
    Nat → ReservedUtxos → List UtxoInput → Except String Unit × ReservedUtxos
  | _, reserved, [] => (.ok (), reserved)
  | n, reserved, input :: rest =>
    if input.outpoint.isEmpty || input.address.isEmpty then
      (.error "Input missing required fields (outpoint or address)", reserved)
    else match manager with
      | none => checkInputs manager (n + 1) reserved rest
      | some m =>
        if (m.queryUtxo (2 * n) input.outpoint input.outputIndex).isNone then
          (.error ("UTXO does not exist: " ++ input.shown), reserved)
        else if m.isSpent (2 * n + 1) input.outpoint input.outputIndex == some true then
          (.error ("UTXO already spent: " ++ input.shown), reserved)
        else
          let (taken, reserved) := reserved.isReserved input.outpointKey "" (m.now n)
          if taken then (.error ("UTXO is reserved by another transaction: " ++ input.shown), reserved)
          else checkInputs manager (n + 1) reserved rest

def validateInputs (manager : Option UtxoSetManager) (reserved : ReservedUtxos) (tx : Transaction) :
    Except String Unit × ReservedUtxos :=
  if tx.inputs.isEmpty || tx.inputs.length > maxInputs then
    (.error ("Invalid input count: " ++ toString tx.inputs.length), reserved)
  else match checkDuplicates [] tx.inputs with
    | .error e => (.error e, reserved)
    | .ok _ => checkInputs manager 0 reserved tx.inputs

def validateOutput (output : UtxoOutput) : Except String Unit :=
  if output.address.isEmpty || output.amountCommitment.isEmpty then
    .error "Output missing required fields (address or commitment)"
  else if output.amountCommitment.length ≠ commitmentHexSize then
    .error ("Output commitment not well-formed: size " ++
      toString output.amountCommitment.length ++ " (expected " ++ toString commitmentHexSize ++ ")")
  else .ok ()

def validateOutputs (tx : Transaction) : Except String Unit :=
  if tx.outputs.isEmpty || tx.outputs.length > maxOutputs then
    .error ("Invalid output count: " ++ toString tx.outputs.length)
  else tx.outputs.forM validateOutput

/-- `DustAccounting::verify_dust_balance`; the sums wrap. -/
def verifyDustBalance (tx : Transaction) : Bool :=
  tx.inputDust ≥ tx.outputDust + tx.fees + UInt64.ofNat tx.outputs.length * 128

def validateDustAccounting (tx : Transaction) : Except String Unit :=
  if verifyDustBalance tx then .ok () else .error "DUST balance invalid: inputs < outputs + fees"

def isProofHex (proof : List Char) : Bool :=
  let payload := stripHexPrefix proof
  let proofBytes := payload.length / 2
  !payload.isEmpty && isHexString payload && proofBytes ≥ 64 && proofBytes ≤ 10 * 1024 * 1024

def validateProofs (tx : Transaction) : Except String Unit :=
  if !tx.witnessBundle.proofReferences.isEmpty then
    if tx.witnessBundle.proofReferences.any (·.isEmpty) then .error "Empty proof reference found"
    else .ok ()
  else if tx.proofs.isEmpty then .error "No proofs provided - at least one proof is required"
  else if tx.proofs.all isProofHex then .ok ()
  else
    .error "Proof not well-formed: expected even-length hex payload of at least 64 bytes"

def isSignatureHex (signature : List Char) : Bool :=
  signature.length == 130 && ['0', 'x'].isPrefixOf signature && isHexString (signature.drop 2)

def validateSignature (tx : Transaction) : Except String Unit :=
  if !tx.witnessBundle.signatures.isEmpty then
    if tx.witnessBundle.signatures.all isSignatureHex then .ok ()
    else .error "Invalid signature format in witness bundle"
  else if tx.signature.isEmpty then .error "No signature provided"
  else if isSignatureHex tx.signature then .ok ()
  else .error "Invalid signature format"

/-- A failed check that left no text gets the one of its kind. -/
def named (fallback : String) (check : Except String Unit) : Except String Unit :=
  check.mapError fun lastError => if lastError.isEmpty then fallback else lastError

/-- The verdict with the last error, and the table of reservations afterwards. -/
def validateTransaction (manager : Option UtxoSetManager) (reserved : ReservedUtxos)
    (tx : Transaction) : Except String Unit × ReservedUtxos :=
  let (inputs, reserved) := validateInputs manager reserved tx
  let verdict := do
    named "Invalid inputs" inputs
    named "Invalid outputs" (validateOutputs tx)
    named "Invalid DUST accounting" (validateDustAccounting tx)
    named "Invalid proofs" (validateProofs tx)
    named "Invalid signature" (validateSignature tx)
  (verdict, reserved)

def Accepted (manager : Option UtxoSetManager) (reserved : ReservedUtxos) (tx : Transaction) : Prop :=
  (validateTransaction manager reserved tx).1 = .ok ()

instance (manager : Option UtxoSetManager) (reserved : ReservedUtxos) (tx : Transaction) :
    Decidable (Accepted manager reserved tx) := inferInstanceAs (Decidable (_ = _))

/-! ## One output, one input -/

/-- No two inputs denote one output, to the builder or to the indexer, and the
builder takes them all. -/
structure SpendsOnce (inputs : List UtxoInput) : Prop where
  outputs : (inputs.map (·.output)).Nodup
  queried : (inputs.map (·.queried)).Nodup
  assembles : assemble inputs = .ok inputs

/-- Two texts that differ at most in a prefix and in what follows a colon are
one text. -/
def SpelledAlike (inputs : List UtxoInput) : Prop :=
  ∀ a ∈ inputs, ∀ b ∈ inputs, a.outputIndex = b.outputIndex →
    cleanHash a.outpoint = cleanHash b.outpoint → a.outpoint = b.outpoint

/-- The text of an outpoint is a hash between what the query drops. -/
theorem cleanHash_spelled {lead hash tail : List Char}
    (hlead : lead ∈ [['0', 'x'], ['0', 'X']] ∨ lead = [] ∧ hasHexPrefix (hash ++ tail) = false)
    (hhash : ':' ∉ hash) (htail : tail = [] ∨ tail.head? = some ':') :
    cleanHash (lead ++ hash ++ tail) = hash := by
  have strip : stripHexPrefix (lead ++ hash ++ tail) = hash ++ tail := by
    rw [List.append_assoc]
    rcases hlead with hlead | ⟨rfl, hbare⟩
    · simp only [List.mem_cons, List.not_mem_nil, or_false] at hlead
      rcases hlead with rfl | rfl <;> rfl
    · rw [List.nil_append, stripHexPrefix, hbare]
      rfl
  have kept : ∀ c ∈ hash, decide (c ≠ ':') = true := by
    intro c hc
    rw [decide_eq_true_eq]
    rintro rfl
    exact hhash hc
  rw [cleanHash, strip, List.takeWhile_append_of_pos kept]
  rcases htail with rfl | htail
  · exact List.append_nil hash
  · cases tail with
    | nil => cases htail
    | cons c tail =>
      cases htail
      rw [List.takeWhile_cons_of_neg (by decide), List.append_nil]

/-! ## What the two checks see -/

theorem hasDuplicateInput_iff {inputs : List UtxoInput} {input : UtxoInput} :
    hasDuplicateInput inputs input = true ↔ input.output ∈ inputs.map (·.output) := by
  simp only [hasDuplicateInput, List.any_eq_true, Bool.and_eq_true, beq_iff_eq, List.mem_map,
    UtxoInput.output, Prod.mk.injEq]

theorem addInput_of_new {inputs : List UtxoInput} {input : UtxoInput}
    (h : input.output ∉ inputs.map (·.output)) :
    addInput none 0 inputs input = .ok (inputs ++ [input]) := by
  rw [addInput, if_neg fun hdup => h (hasDuplicateInput_iff.mp hdup)]
  rfl

theorem addInput_of_seen {inputs : List UtxoInput} {input : UtxoInput}
    (h : input.output ∈ inputs.map (·.output)) : ∃ e, addInput none 0 inputs input = .error e := by
  rw [addInput, if_pos (hasDuplicateInput_iff.mpr h)]
  exact ⟨_, rfl⟩

theorem foldlM_addInput (rest before : List UtxoInput) (hbefore : (before.map (·.output)).Nodup) :
    rest.foldlM (addInput none 0) before = .ok (before ++ rest) ↔
      ((before ++ rest).map (·.output)).Nodup := by
  induction rest generalizing before with
  | nil =>
    rw [List.append_nil]
    exact ⟨fun _ => hbefore, fun _ => rfl⟩
  | cons input rest ih =>
    rw [List.foldlM_cons]
    by_cases hseen : input.output ∈ before.map (·.output)
    · obtain ⟨e, refused⟩ := addInput_of_seen hseen
      rw [refused]
      refine ⟨nofun, ?_⟩
      intro hnodup
      rw [List.map_append, List.map_cons, List.nodup_append] at hnodup
      exact absurd rfl (hnodup.2.2 _ hseen _ (List.mem_cons_self ..))
    · have next : ((before ++ [input]).map (·.output)).Nodup := by
        rw [List.map_append, List.map_singleton, List.nodup_append]
        refine ⟨hbefore, by simp, ?_⟩
        intro a ha b hb
        rw [List.mem_singleton.mp hb]
        exact fun same => hseen (same ▸ ha)
      have extended := ih (before ++ [input]) next
      rw [List.append_assoc, List.singleton_append] at extended
      rw [addInput_of_new hseen]
      exact extended

/-- The builder takes inputs exactly when their outputs differ. -/
theorem assemble_iff (inputs : List UtxoInput) :
    assemble inputs = .ok inputs ↔ (inputs.map (·.output)).Nodup :=
  foldlM_addInput inputs [] List.nodup_nil

/-- The first pass accepts exactly keys that differ. -/
theorem checkDuplicates_iff (seen : List (List Char)) (inputs : List UtxoInput) :
    checkDuplicates seen inputs = .ok () ↔
      (inputs.map (·.outpointKey)).Nodup ∧ ∀ input ∈ inputs, input.outpointKey ∉ seen := by
  induction inputs generalizing seen with
  | nil => simp [checkDuplicates]
  | cons input rest ih =>
    rw [checkDuplicates]
    by_cases hseen : input.outpointKey ∈ seen
    · rw [if_pos (List.contains_iff_mem.mpr hseen)]
      exact ⟨nofun, fun h => absurd hseen (h.2 input (List.mem_cons_self ..))⟩
    · rw [if_neg fun h => hseen (List.contains_iff_mem.mp h), ih, List.map_cons, List.nodup_cons,
        List.forall_mem_cons]
      constructor
      · rintro ⟨hnodup, hnew⟩
        refine ⟨⟨?_, hnodup⟩, hseen, ?_⟩
        · intro again
          obtain ⟨later, hlater, same⟩ := List.mem_map.mp again
          exact hnew later hlater (same ▸ List.mem_cons_self ..)
        · intro later hlater
          exact fun h => hnew later hlater (List.mem_cons_of_mem _ h)
      · rintro ⟨⟨hfirst, hnodup⟩, -, hrest⟩
        refine ⟨hnodup, ?_⟩
        intro later hlater h
        rcases List.mem_cons.mp h with same | h
        · exact hfirst (List.mem_map.mpr ⟨later, hlater, same⟩)
        · exact hrest later hlater h

theorem named_ok (fallback : String) {check : Except String Unit} :
    named fallback check = .ok () ↔ check = .ok () := by
  cases check <;> simp [named, Except.mapError]

theorem validateInputs_of_accepted {manager : Option UtxoSetManager} {reserved : ReservedUtxos}
    {tx : Transaction} (h : Accepted manager reserved tx) :
    (validateInputs manager reserved tx).1 = .ok () := by
  rw [← named_ok "Invalid inputs"]
  unfold Accepted validateTransaction at h
  cases hinputs : named "Invalid inputs" (validateInputs manager reserved tx).1 with
  | ok _ => rfl
  | error e =>
    dsimp only at h
    rw [hinputs] at h
    cases h

theorem keys_of_accepted {manager : Option UtxoSetManager} {reserved : ReservedUtxos}
    {tx : Transaction} (h : Accepted manager reserved tx) :
    (tx.inputs.map (·.outpointKey)).Nodup := by
  have checked := validateInputs_of_accepted h
  unfold validateInputs at checked
  split at checked
  · cases checked
  · split at checked
    · cases checked
    · rename_i hpass
      exact ((checkDuplicates_iff [] tx.inputs).mp hpass).1

/-! ## When the validator agrees with the builder -/

/-- Of inputs with different keys, those the indexer cannot tell apart are
spelled differently. -/
theorem queried_nodup_iff {inputs : List UtxoInput} (hkeys : (inputs.map (·.outpointKey)).Nodup) :
    (inputs.map (·.queried)).Nodup ↔ SpelledAlike inputs := by
  have single := List.inj_on_of_nodup_map hkeys
  constructor
  · intro hnodup a ha b hb hindex hhash
    rw [List.inj_on_of_nodup_map hnodup ha hb (Prod.ext hhash hindex)]
  · intro hspelled
    refine List.Nodup.map_on ?_ hkeys.of_map
    intro a ha b hb same
    obtain ⟨hhash, hindex⟩ := Prod.mk.inj same
    exact single ha hb (outpointKey_inj.mpr ⟨hspelled a ha b hb hindex hhash, hindex⟩)

theorem output_nodup_of_queried {inputs : List UtxoInput} (h : (inputs.map (·.queried)).Nodup) :
    (inputs.map (·.output)).Nodup := by
  refine List.Nodup.map_on ?_ h.of_map
  intro a ha b hb same
  exact List.inj_on_of_nodup_map h ha hb (queried_eq_of_output same)

/-- **An accepted transaction spends every output once exactly when it spells
every output alike.** -/
theorem spendsOnce_iff (manager : Option UtxoSetManager) (reserved : ReservedUtxos)
    (tx : Transaction) (h : Accepted manager reserved tx) :
    SpendsOnce tx.inputs ↔ SpelledAlike tx.inputs := by
  rw [← queried_nodup_iff (keys_of_accepted h)]
  constructor
  · exact fun once => once.queried
  · intro hqueried
    have outputs := output_nodup_of_queried hqueried
    exact ⟨outputs, hqueried, (assemble_iff tx.inputs).mpr outputs⟩

/-- A transaction that spends these inputs, with everything else in order. -/
def spending (inputs : List UtxoInput) : Transaction where
  inputs
  outputs := [{ address := ['m'], amountCommitment := List.replicate 66 '0' }]
  inputDust := 1000
  outputDust := 800
  witnessBundle :=
    { signatures := ['0' :: 'x' :: List.replicate 128 'a'], proofReferences := [['p']] }

/-- The second output of one transaction and the first of another. -/
theorem spendsOnce_two :
    let inputs : List UtxoInput :=
      [{ outpoint := ['0', 'x', 'a', 'b'], address := "a", outputIndex := 1 },
        { outpoint := ['c', 'd'], address := "a" }]
    SpendsOnce inputs ↔ SpelledAlike inputs := by
  exact spendsOnce_iff none (fun _ => none) (spending _) (by decide +kernel)

/-- The same output with and without its prefix passes the validator, and not
the builder. -/
theorem accepted_twice :
    let inputs : List UtxoInput :=
      [{ outpoint := ['0', 'x', 'a', 'b'], address := "a" },
        { outpoint := ['a', 'b'], address := "a" }]
    Accepted none (fun _ => none) (spending inputs) ∧ ¬(inputs.map (·.output)).Nodup ∧
      ¬(inputs.map (·.queried)).Nodup ∧ assemble inputs ≠ .ok inputs := by
  exact ⟨by decide +kernel, by decide, by decide, by decide⟩

end MidnightSdk.UtxoTransactions
