import MidnightSdk.Wallet.Bech32mTexts

/-!
# What the checksum catches

The feedback of the register tells all groups of five bits apart by its own low
five bits, so two registers that differ never meet again. An accepted text with one
of its symbols replaced, or with two neighbours exchanged, is refused.
-/

namespace MidnightSdk.Wallet.Bech32m

open Cpp PolyChecksum

/-! ## The register -/

theorem feedback_distinct :
    ∀ x < 2 ^ 5, ∀ y < 2 ^ 5, feedback x % 2 ^ 5 = feedback y % 2 ^ 5 → x = y := by
  decide +kernel

theorem symbol_lt_register (v : UInt8) : v.toNat < 2 ^ (5 * (5 + 1)) :=
  Nat.lt_trans v.toNat_lt (by decide)

theorem map_toNat_lt_register (vs : List UInt8) :
    ∀ u ∈ vs.map (·.toNat), u < 2 ^ (5 * (5 + 1)) := by
  intro u hu
  obtain ⟨v, -, rfl⟩ := List.mem_map.mp hu
  exact symbol_lt_register v

/-- Texts that verify bring the register to one value. -/
theorem absorb_of_verified {hrp vs ws : List UInt8} (hv : verifyChecksum hrp vs = true)
    (hw : verifyChecksum hrp ws = true) :
    absorb 5 5 feedback 1 ((expandHrp hrp ++ vs).map (·.toNat)) =
      absorb 5 5 feedback 1 ((expandHrp hrp ++ ws).map (·.toNat)) := by
  rw [verifyChecksum, beq_iff_eq] at hv hw
  rw [← toNat_polymod, ← toNat_polymod, hv, hw]

theorem verified_replaced {hrp front back : List UInt8} {v w : UInt8}
    (hv : verifyChecksum hrp (front ++ v :: back) = true)
    (hw : verifyChecksum hrp (front ++ w :: back) = true) : v = w := by
  have reached := absorb_of_verified hv hw
  simp only [← List.append_assoc, List.map_append, List.map_cons] at reached
  apply UInt8.toNat_inj.mp
  exact absorb_replaced feedback_lt feedback_distinct 1 (symbol_lt_register v)
    (symbol_lt_register w) (map_toNat_lt_register back) reached

theorem verified_exchanged {hrp front back : List UInt8} {v w : UInt8} (hsmall : v.toNat < 32)
    (hsmall' : w.toNat < 32) (hv : verifyChecksum hrp (front ++ v :: w :: back) = true)
    (hw : verifyChecksum hrp (front ++ w :: v :: back) = true) : v = w := by
  have reached := absorb_of_verified hv hw
  simp only [← List.append_assoc, List.map_append, List.map_cons] at reached
  apply UInt8.toNat_inj.mp
  exact absorb_exchanged feedback_lt feedback_distinct 1 (by decide) hsmall hsmall'
    (map_toNat_lt_register back) reached

/-! ## Texts -/

/-- What the decoder found out about the text behind the separator. -/
theorem decode_verified {name rest hrp data : List UInt8} (hlast : separator ∉ rest)
    (h : decode (name ++ separator :: rest) = .ok (hrp, data)) :
    (∀ c ∈ rest, InCharset c) ∧ verifyChecksum (name.map lowered) (rest.map symbol) = true := by
  obtain ⟨name', body, check, reads⟩ := decode_eq_ok.mp h
  have same : name.length = name'.length := by
    have found : rfind separator (name ++ separator :: rest) = some name.length :=
      rfind_append hlast
    rw [reads.text_eq, rfind_append (separator_notMem reads.valid)] at found
    exact (Option.some.inj found).symm
  obtain ⟨rfl, hrest⟩ := List.append_inj reads.text_eq same
  obtain rfl := (List.cons.inj hrest).2
  refine ⟨reads.valid, ?_⟩
  rw [List.map_append, verifyChecksum_iff _ ((List.length_map _).trans reads.length)]
  · rw [← reads.hrp_eq, reads.checked]
  · exact map_symbol_lt fun c hc => reads.valid c (List.mem_append_right _ hc)

/-- One slip in copying the data part of a text, which is what stands behind the
last separator: a character replaced by one of another symbol, or two neighbours of
different symbols exchanged. -/
inductive Slip : List UInt8 → List UInt8 → Prop where
  | replaced {name front back : List UInt8} {c d : UInt8} (data : separator ∉ front ++ c :: back)
      (valid : InCharset d) (differ : symbol c ≠ symbol d) :
      Slip (name ++ separator :: (front ++ c :: back)) (name ++ separator :: (front ++ d :: back))
  | exchanged {name front back : List UInt8} {c d : UInt8}
      (data : separator ∉ front ++ c :: d :: back) (differ : symbol c ≠ symbol d) :
      Slip (name ++ separator :: (front ++ c :: d :: back))
        (name ++ separator :: (front ++ d :: c :: back))

/-- **No accepted text is one slip away from another one**, however long it is. -/
theorem slip_rejected (text other hrp data : List UInt8) (h : decode text = .ok (hrp, data))
    (slip : Slip text other) : ∃ e, decode other = .error e := by
  cases hother : decode other with
  | error e => exact ⟨e, rfl⟩
  | ok result =>
    exfalso
    cases slip with
    | @replaced name front back c d hdata valid differ =>
      have hdata' : separator ∉ front ++ d :: back := by
        intro hin
        rcases List.mem_append.mp hin with hin | hin
        · exact hdata (List.mem_append_left _ hin)
        · rcases List.mem_cons.mp hin with hin | hin
          · exact (symbol_spec valid).2.2 hin.symm
          · exact hdata (List.mem_append_right _ (List.mem_cons_of_mem c hin))
      obtain ⟨-, verified⟩ := decode_verified hdata h
      obtain ⟨-, verified'⟩ := decode_verified hdata' hother
      rw [List.map_append, List.map_cons] at verified verified'
      exact differ (verified_replaced verified verified')
    | @exchanged name front back c d hdata differ =>
      have hdata' : separator ∉ front ++ d :: c :: back := by
        rwa [((List.Perm.swap c d back).append_left front).mem_iff]
      obtain ⟨valid, verified⟩ := decode_verified hdata h
      obtain ⟨-, verified'⟩ := decode_verified hdata' hother
      rw [List.map_append, List.map_cons, List.map_cons] at verified verified'
      refine differ (verified_exchanged ?_ ?_ verified verified')
      · exact (symbol_spec (valid c (by simp))).1
      · exact (symbol_spec (valid d (by simp))).1

/-- The third character of the data part of a text read, replaced. -/
theorem slip_rejected_replaced : ∃ e, decode (literal "a1qqp3hjaz") = .error e := by
  have slip : Slip (literal "a1qq43hjaz") (literal "a1qqp3hjaz") :=
    @Slip.replaced (literal "a") (literal "qq") (literal "3hjaz") 52 112 (by decide) (by decide)
      (by decide)
  exact slip_rejected _ _ (literal "a") [0] (by decide +kernel) slip

end MidnightSdk.Wallet.Bech32m
