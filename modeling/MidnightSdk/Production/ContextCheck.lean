import Mathlib.Data.List.Nodup
import MidnightSdk.Production.MidnightClient

/-!
# The context of a build

The hashes collected from the output of a build are those stored under the key at any
depth, each once; the check finds no error exactly when each of them is a block of the
node's.
-/

namespace MidnightSdk.Production

open Cpp Interaction Ledger Network Util

/-- A text stored under `parentBlockHash`, at any depth. -/
inductive Stored (s : String) : Json → Prop
  | here {fields : Json.Fields} (h : Json.lookup "parentBlockHash" fields = some (.string s)) :
      Stored s (.object fields)
  | member {fields : Json.Fields} {key : String} {value : Json} (hmem : (key, value) ∈ fields)
      (h : Stored s value) : Stored s (.object fields)
  | element {xs : List Json} {value : Json} (hmem : value ∈ xs) (h : Stored s value) :
      Stored s (.array xs)

/-! ## Collecting -/

/-- What was seen is what was found, and nothing is found twice. -/
structure ParentHashes.Sound (found : ParentHashes) : Prop where
  nodup : found.hashes.Nodup
  mem_seen : ∀ hash, hash ∈ found.seen ↔ hash ∈ found.hashes

/-- Collecting some texts adds their hashes, but for the empty one. -/
structure Collects (texts : String → Prop) (before after : ParentHashes) : Prop where
  sound : after.Sound
  mem_iff : ∀ hash, hash ∈ after.hashes ↔
    hash ∈ before.hashes ∨ hash ≠ [] ∧ ∃ s, texts s ∧ stripHexPrefix s.toList = hash

theorem Collects.refl {texts : String → Prop} {found : ParentHashes} (h : found.Sound)
    (hnone : ∀ s, ¬ texts s) : Collects texts found found where
  sound := h
  mem_iff hash := by simp [hnone]

theorem Collects.trans {first second texts : String → Prop} {before between after : ParentHashes}
    (h : Collects first before between) (h' : Collects second between after)
    (htexts : ∀ s, texts s ↔ first s ∨ second s) : Collects texts before after where
  sound := h'.sound
  mem_iff hash := by
    simp only [h'.mem_iff, h.mem_iff, htexts, or_and_right, exists_or, and_or_left]
    exact or_assoc

theorem noteParent_collects (fields : Json.Fields) {found : ParentHashes} (h : found.Sound) :
    Collects (fun s => Json.lookup "parentBlockHash" fields = some (.string s)) found
      (noteParent fields found) := by
  unfold noteParent
  split
  · rename_i s hs
    dsimp only
    split
    · rename_i fresh
      simp only [Bool.and_eq_true, Bool.not_eq_true', List.isEmpty_eq_false_iff,
        List.contains_eq_mem, decide_eq_false_iff_not] at fresh
      obtain ⟨some, unseen⟩ := fresh
      rw [h.mem_seen] at unseen
      refine ⟨⟨?_, ?_⟩, ?_⟩
      · exact List.nodup_append.mpr ⟨h.nodup, List.pairwise_singleton _ _, by
          rintro hash hhash _ hlast rfl
          rw [List.mem_singleton] at hlast
          exact unseen (hlast ▸ hhash)⟩
      · intro hash
        simp only [List.mem_cons, List.mem_append, List.not_mem_nil, or_false, h.mem_seen]
        exact or_comm
      · intro hash
        simp only [List.mem_append, List.mem_singleton, hs, Option.some.injEq, Json.string.injEq,
          exists_eq_left']
        constructor
        · rintro (hhash | rfl)
          · exact Or.inl hhash
          · exact Or.inr ⟨some, rfl⟩
        · rintro (hhash | ⟨-, rfl⟩)
          · exact Or.inl hhash
          · exact Or.inr rfl
    · rename_i stale
      refine ⟨h, fun hash => ⟨Or.inl, ?_⟩⟩
      rintro (hhash | ⟨hne, s', hs', rfl⟩)
      · exact hhash
      · rw [hs] at hs'
        cases hs'
        rw [← h.mem_seen]
        simpa [hne] using stale
  · rename_i absent
    exact .refl h absent

mutual

theorem collectParentBlockHashes_collects : ∀ (j : Json) {found : ParentHashes}, found.Sound →
    Collects (fun s => Stored s j) found (collectParentBlockHashes j found)
  | .object fields, found, h => by
    have noted := noteParent_collects fields h
    apply noted.trans (collectMembers_collects fields noted.sound)
    intro s
    constructor
    · rintro (here | ⟨hmem, hstored⟩)
      · exact Or.inl here
      · exact Or.inr ⟨_, hmem, hstored⟩
    · rintro (here | ⟨p, hmem, hstored⟩)
      · exact .here here
      · exact .member hmem hstored
  | .array xs, found, h => by
    have collected := collectElements_collects xs h
    refine ⟨collected.sound, fun hash => ?_⟩
    have stored (s : String) : Stored s (.array xs) ↔ ∃ value ∈ xs, Stored s value :=
      ⟨fun | .element hmem hstored => ⟨_, hmem, hstored⟩,
        fun ⟨_, hmem, hstored⟩ => .element hmem hstored⟩
    simp only [stored]
    exact collected.mem_iff hash
  | .null, _, h => .refl h nofun
  | .bool _, _, h => .refl h nofun
  | .unsigned _, _, h => .refl h nofun
  | .integer _, _, h => .refl h nofun
  | .string _, _, h => .refl h nofun

theorem collectMembers_collects : ∀ (fields : List (String × Json)) {found : ParentHashes},
    found.Sound →
      Collects (fun s => ∃ p ∈ fields, Stored s p.2) found (collectMembers fields found)
  | [], _, h => .refl h (by simp)
  | (key, value) :: rest, found, h => by
    have first := collectParentBlockHashes_collects value h
    exact first.trans (collectMembers_collects rest first.sound) (by simp)

theorem collectElements_collects : ∀ (xs : List Json) {found : ParentHashes}, found.Sound →
    Collects (fun s => ∃ value ∈ xs, Stored s value) found (collectElements xs found)
  | [], _, h => .refl h (by simp)
  | value :: rest, found, h => by
    have first := collectParentBlockHashes_collects value h
    exact first.trans (collectElements_collects rest first.sound) (by simp)

end

/-! ## Looking up -/

/-- A hash that names a block, for a node knowing some hashes. -/
def IsKnownBlock (known : List Char → Bool) (hash : List Char) : Prop :=
  (hash.length = 64 ∧ ∀ c ∈ hash, c ∈ HexText.digits) ∧ known hash = true

def headerQuestion (hash : List Char) : Question :=
  .rpcCall "chain_getHeader" (.array [.string (String.ofList ('0' :: 'x' :: hash))])

theorem headerQuestion_injective : Function.Injective headerQuestion := by
  intro hash other h
  simp only [headerQuestion, Question.rpcCall.injEq, Json.array.injEq, List.cons.injEq,
    Json.string.injEq, and_true, true_and] at h
  have texts := String.ofList_injective h
  rw [List.cons.injEq, List.cons.injEq] at texts
  exact texts.2.2

/-- The node answers every query about a header, and by what it knows. -/
def Serves (known : List Char → Bool) (seen : List (Event Answer)) : Prop :=
  ∀ hash answer, (⟨headerQuestion hash, answer⟩ : Event Answer) ∈ seen →
    ∃ header, answer = .ok header ∧ isBlockHeader header = known hash

theorem isHex64_iff (hash : List Char) :
    (hash.length = 64 ∧ isHexString hash = true) ↔
      hash.length = 64 ∧ ∀ c ∈ hash, c ∈ HexText.digits := by
  refine and_congr_right fun length => ?_
  have some : hash.isEmpty = false := by
    cases hash with
    | nil => cases length
    | cons c rest => rfl
  simp [isHexString, some, length, isXDigit]

theorem run_blockHashExists {known : List Char → Bool} {hash : List Char}
    {seen : List (Event Answer)} {found : Except String Bool}
    (hhex : hash.length = 64 ∧ ∀ c ∈ hash, c ∈ HexText.digits)
    (h : Run (blockHashExists hash) seen (.ok found)) (hserves : Serves known seen) :
    seen.map (·.1) = [headerQuestion hash] ∧ found = .ok (known hash) := by
  have some : hash ≠ [] := by
    rintro rfl
    cases hhex.1
  have bare : stripHexPrefix hash = hash := @stripHexPrefix_digits [] hash (by simp) hhex.2
  have prefixed : ensureHexPrefix hash = '0' :: 'x' :: hash := ensureHexPrefix_digits some hhex.2
  have form : is64HexChars hash = true := by
    simp only [is64HexChars, hhex.1, beq_self_eq_true, Bool.true_and, List.all_eq_true]
    exact fun c hc => List.contains_iff_mem.mpr (hhex.2 c hc)
  have asks : getBlockHeader hash = ask (headerQuestion hash) := by
    unfold getBlockHeader headerQuestion
    simp only [bare, form, Bool.not_true, Bool.false_eq_true, if_false]
    rw [bare, prefixed]
  obtain ⟨asked, header, rest, rfl, hasked, hrest⟩ := run_bind h
  obtain ⟨rfl, hfound⟩ := run_pure_iff.mp hrest
  rw [asks] at hasked
  obtain rfl := run_question hasked
  obtain ⟨header', rfl, hknown⟩ := hserves hash header (by simp)
  cases hfound
  exact ⟨rfl, by rw [← hknown]; rfl⟩

/-- The loop finds no error exactly when every hash names a known block, and asks about
them one after the other. -/
theorem run_checkParents {known : List Char → Bool} {config : ClientConfig}
    {parentHashes : List (List Char)} {seen : List (Event Answer)} {error : SdkError}
    (h : Run (checkParents config parentHashes) seen (.ok error)) (hserves : Serves known seen) :
    (error.isSet = false ↔ ∀ hash ∈ parentHashes, IsKnownBlock known hash) ∧
      seen.map (·.1) <+: parentHashes.map headerQuestion := by
  induction parentHashes generalizing seen with
  | nil =>
    obtain ⟨rfl, herror⟩ := run_pure_iff.mp h
    cases herror
    exact ⟨by simp [SdkError.isSet], List.nil_prefix⟩
  | cons parentHash rest ih =>
    rw [List.forall_mem_cons, List.map_cons]
    unfold checkParents at h
    split at h
    · rename_i malformed
      obtain ⟨rfl, herror⟩ := run_pure_iff.mp h
      cases herror
      refine ⟨iff_of_false (by simp [makeError, SdkError.isSet]) ?_, List.nil_prefix⟩
      rintro ⟨⟨hhex, -⟩, -⟩
      obtain ⟨length, digits⟩ := (isHex64_iff parentHash).mpr hhex
      simp [length, digits] at malformed
    rename_i wellFormed
    have hhex := (isHex64_iff parentHash).mp (by simpa using wellFormed)
    obtain ⟨asked, found, later, rfl, hasked, hlater⟩ := run_bind h
    have served (part : List (Event Answer)) (hpart : ∀ event ∈ part, event ∈ asked ++ later) :
        Serves known part :=
      fun hash answer hmem => hserves hash answer (hpart _ hmem)
    obtain ⟨hquestion, rfl⟩ := run_blockHashExists hhex hasked
      (served asked fun event hmem => List.mem_append_left later hmem)
    rw [List.map_append, hquestion, List.singleton_append, List.cons_prefix_cons]
    cases hknown : known parentHash with
    | false =>
      rw [hknown] at hlater
      obtain ⟨rfl, herror⟩ := run_pure_iff.mp hlater
      cases herror
      refine ⟨iff_of_false (by simp [makeError, SdkError.isSet]) ?_, rfl, List.nil_prefix⟩
      rintro ⟨⟨-, yes⟩, -⟩
      rw [hknown] at yes
      cases yes
    | true =>
      rw [hknown] at hlater
      obtain ⟨hiff, hasked'⟩ := ih hlater
        (served later fun event hmem => List.mem_append_right asked hmem)
      refine ⟨hiff.trans ⟨fun others => ⟨⟨hhex, hknown⟩, others⟩, And.right⟩, rfl, hasked'⟩

/-- **What a context must be.** With the node answering, the check finds no error exactly
when there is no output, or every text stored under the key in it is empty or names a
known block; and it asks about no hash twice. -/
theorem validateBuiltTransactionContext_iff (parse : String → Except String Json)
    (config : ClientConfig) (build : BuildResult) (known : List Char → Bool)
    {seen : List (Event Answer)} {error : SdkError}
    (h : Run (validateBuiltTransactionContext parse config build) seen (.ok error))
    (hunset : (⟨.getenv "MIDNIGHT_SKIP_CONTEXT_CANONICALITY_CHECK", some "1"⟩ : Event Answer) ∉
      seen)
    (hserves : Serves known seen) :
    (error.isSet = false ↔ build.rawOutput = "" ∨ ∃ raw, parse build.rawOutput = .ok raw ∧
      ∀ s, Stored s raw →
        stripHexPrefix s.toList = [] ∨ IsKnownBlock known (stripHexPrefix s.toList)) ∧
    (seen.map (·.1)).Nodup := by
  obtain ⟨asked, skipped, rest, rfl, hasked, hrest⟩ := run_bind h
  obtain ⟨got, value, after, rfl, hgot, hafter⟩ := run_bind hasked
  obtain ⟨rfl, hskipped⟩ := run_pure_iff.mp hafter
  cases hskipped
  obtain rfl := run_question hgot
  rw [List.append_nil, List.singleton_append] at hunset hserves ⊢
  have unskipped : ¬value.getD "" = "1" := by
    cases value with
    | none => simp
    | some text =>
      rintro rfl
      exact hunset (List.mem_cons_self ..)
  rw [if_neg unskipped] at hrest
  rw [List.map_cons, List.nodup_cons]
  split at hrest
  · rename_i silent
    obtain ⟨rfl, herror⟩ := run_pure_iff.mp hrest
    cases herror
    exact ⟨by simp [silent, SdkError.isSet], by simp, by simp⟩
  rename_i output
  split at hrest
  · rename_i e malformed
    obtain ⟨rfl, herror⟩ := run_pure_iff.mp hrest
    cases herror
    exact ⟨by simp [output, malformed, makeError, SdkError.isSet], by simp, by simp⟩
  · rename_i raw parsed
    have collected := @collectParentBlockHashes_collects raw {} ⟨.nil, by simp⟩
    obtain ⟨hiff, hasked⟩ := run_checkParents hrest fun hash answer hmem =>
      hserves hash answer (List.mem_cons_of_mem _ hmem)
    refine ⟨?_, ?_, ?_⟩
    · simp only [hiff, collected.mem_iff, output, parsed, false_or, Except.ok.injEq,
        exists_eq_left', List.not_mem_nil]
      constructor
      · intro all s stored
        by_cases hempty : stripHexPrefix s.toList = []
        · exact Or.inl hempty
        · exact Or.inr (all _ ⟨hempty, s, stored, rfl⟩)
      · rintro all _ ⟨hsome, s, stored, rfl⟩
        exact (all s stored).resolve_left hsome
    · intro hmem
      obtain ⟨hash, -, hquestion⟩ := List.mem_map.mp (hasked.subset hmem)
      cases hquestion
    · exact (List.Nodup.map headerQuestion_injective collected.sound.nodup).sublist hasked.sublist

/-! ## A block named twice -/

def someBlock : List Char := List.replicate 64 'a'

/-- What the output of a build parses to. -/
def namedTwice : Json :=
  .array [.object [("parentBlockHash", .string (String.ofList ('0' :: 'x' :: someBlock)))],
    .object [("parentBlockHash", .string (String.ofList someBlock))]]

def namedTwiceOutput : String :=
  "[\x7b\"parentBlockHash\":\"0x" ++ String.ofList someBlock ++
    "\"\x7d,\x7b\"parentBlockHash\":\"" ++ String.ofList someBlock ++ "\"\x7d]"

def knownTwice : List (Event Answer) :=
  [⟨.getenv "MIDNIGHT_SKIP_CONTEXT_CANONICALITY_CHECK", none⟩,
    ⟨headerQuestion someBlock, .ok (.object [("number", .string "0x10")])⟩]

theorem serves_knownTwice : Serves (fun hash => hash == someBlock) knownTwice := by
  intro hash answer hmem
  simp only [knownTwice, List.mem_cons, List.not_mem_nil, or_false] at hmem
  rcases hmem with heq | heq
  · cases heq
  · have same : headerQuestion hash = headerQuestion someBlock := congrArg Sigma.fst heq
    obtain rfl := headerQuestion_injective same
    cases heq
    exact ⟨_, rfl, by simp [isBlockHeader]⟩

theorem validateBuiltTransactionContext_iff_twice :
    (({} : SdkError).isSet = false ↔ namedTwiceOutput = "" ∨ ∃ raw,
      (Except.ok namedTwice : Except String Json) = .ok raw ∧ ∀ s, Stored s raw →
        stripHexPrefix s.toList = [] ∨
          IsKnownBlock (fun hash => hash == someBlock) (stripHexPrefix s.toList)) ∧
      (knownTwice.map (·.1)).Nodup :=
  validateBuiltTransactionContext_iff
    (fun _ => .ok namedTwice)
    { nodeUrl := "http://node" } { rawOutput := namedTwiceOutput } _
    (.ask (.ask (.done _))) (by simp [knownTwice, headerQuestion]) serves_knownTwice

end MidnightSdk.Production
