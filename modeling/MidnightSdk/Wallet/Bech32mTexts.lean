import MidnightSdk.Wallet.Bech32m

/-!
# Reading back an address

What the decoder accepts, as a grammar. Every encoded address is read back; an
accepted text is the encoding of what it is read as exactly when the bits left
over behind its last byte are as the encoder would have left them.
-/

namespace MidnightSdk.Wallet.Bech32m

open Cpp

/-! ## Symbols -/

def InCharset (c : UInt8) : Prop := c < 128 ∧ rev c ≠ -1

instance (c : UInt8) : Decidable (InCharset c) := inferInstanceAs (Decidable (_ ∧ _))

def symbol (c : UInt8) : UInt8 := UInt8.ofNat (rev c).toNat

/-- A character and its symbol name each other, up to case. -/
theorem symbol_spec {c : UInt8} (h : InCharset c) :
    (symbol c).toNat < 32 ∧ charsetAt (symbol c) = lowered c ∧ c ≠ separator := by
  have all : ∀ c, InCharset c →
      (symbol c).toNat < 32 ∧ charsetAt (symbol c) = lowered c ∧ c ≠ separator :=
    forall_byte (by decide +kernel)
  exact all c h

theorem charsetAt_spec {v : UInt8} (h : v.toNat < 32) :
    InCharset (charsetAt v) ∧ symbol (charsetAt v) = v ∧ isUpper (charsetAt v) = false := by
  have all : ∀ v : UInt8, v.toNat < 32 →
      InCharset (charsetAt v) ∧ symbol (charsetAt v) = v ∧ isUpper (charsetAt v) = false :=
    forall_byte (by decide +kernel)
  exact all v h

theorem map_symbol_charsetAt {vs : List UInt8} (h : ∀ v ∈ vs, v.toNat < 32) :
    (vs.map charsetAt).map symbol = vs := by
  rw [List.map_map]
  refine (List.map_congr_left ?_).trans (List.map_id vs)
  intro v hv
  exact (charsetAt_spec (h v hv)).2.1

theorem map_charsetAt_symbol {cs : List UInt8} (h : ∀ c ∈ cs, InCharset c) :
    (cs.map symbol).map charsetAt = cs.map lowered := by
  rw [List.map_map]
  exact List.map_congr_left fun c hc => (symbol_spec (h c hc)).2.1

theorem map_symbol_lt {cs : List UInt8} (h : ∀ c ∈ cs, InCharset c) :
    ∀ v ∈ cs.map symbol, v.toNat < 32 := by
  intro v hv
  obtain ⟨c, hc, rfl⟩ := List.mem_map.mp hv
  exact (symbol_spec (h c hc)).1

theorem decodeValues_eq_ok {cs vs : List UInt8} :
    decodeValues cs = .ok vs ↔ (∀ c ∈ cs, InCharset c) ∧ vs = cs.map symbol := by
  induction cs generalizing vs with
  | nil => simp [decodeValues, eq_comm]
  | cons c cs ih =>
    rw [decodeValues]
    by_cases hascii : c ≥ 128
    · rw [if_pos hascii]
      refine ⟨nofun, fun h => absurd hascii (UInt8.not_le.mpr ?_)⟩
      exact (h.1 c (List.mem_cons_self ..)).1
    · by_cases hrev : rev c = -1
      · rw [if_neg hascii, if_pos hrev]
        exact ⟨nofun, fun h => absurd hrev (h.1 c (List.mem_cons_self ..)).2⟩
      · have valid : InCharset c := ⟨UInt8.not_le.mp hascii, hrev⟩
        rw [if_neg hascii, if_neg hrev, List.forall_mem_cons, List.map_cons]
        change (decodeValues cs >>= fun values => .ok (symbol c :: values)) = .ok vs ↔ _
        rw [bind_eq_ok]
        constructor
        · rintro ⟨values, hvalues, hvs⟩
          obtain ⟨hcs, rfl⟩ := ih.mp hvalues
          exact ⟨⟨valid, hcs⟩, (Except.ok.inj hvs).symm⟩
        · rintro ⟨⟨-, hcs⟩, rfl⟩
          exact ⟨_, ih.mpr ⟨hcs, rfl⟩, rfl⟩

/-! ## The grammar -/

/-- A text read as a readable part and bytes: `name`, the separator, the
characters of the words, those of the checksum. -/
structure Reads (text hrp data name body check : List UInt8) : Prop where
  text_eq : text = name ++ separator :: (body ++ check)
  named : name ≠ []
  oneCase : (text.any isLower && text.any isUpper) = false
  valid : ∀ c ∈ body ++ check, InCharset c
  length : check.length = checksumSize
  hrp_eq : hrp = name.map lowered
  checked : check.map symbol = createChecksum hrp (body.map symbol)
  data_eq : fromWords (body.map symbol) = .ok data

theorem separator_notMem {cs : List UInt8} (h : ∀ c ∈ cs, InCharset c) : separator ∉ cs :=
  fun hin => (symbol_spec (h _ hin)).2.2 rfl

theorem separatorAt_eq_some {text : List UInt8} {pos : Nat} :
    separatorAt text = some pos ↔ ∃ name rest, text = name ++ separator :: rest ∧
      separator ∉ rest ∧ name.length = pos ∧ name ≠ [] ∧ checksumSize ≤ rest.length := by
  unfold separatorAt
  rw [Option.bind_eq_bind, Option.bind_eq_some_iff]
  constructor
  · rintro ⟨found, hfound, hpos⟩
    obtain ⟨name, rest, rfl, hlast, rfl⟩ := rfind_eq_some.mp hfound
    rw [List.length_append, List.length_cons, Option.ite_none_left_eq_some, not_or] at hpos
    obtain ⟨⟨hname, hroom⟩, hpos⟩ := hpos
    refine ⟨name, rest, rfl, hlast, Option.some.inj hpos, ?_, by omega⟩
    rintro rfl
    exact hname rfl
  · rintro ⟨name, rest, rfl, hlast, rfl, hname, hroom⟩
    refine ⟨name.length, rfind_append hlast, ?_⟩
    rw [List.length_append, List.length_cons, Option.ite_none_left_eq_some, not_or]
    exact ⟨⟨fun h => hname (List.length_eq_zero_iff.mp h), by omega⟩, rfl⟩

theorem drop_separator (name rest : List UInt8) :
    (name ++ separator :: rest).drop (name.length + 1) = rest := by
  rw [List.drop_append]
  simp

theorem take_body (body : List UInt8) {check : List UInt8} (h : check.length = checksumSize) :
    (body ++ check).take ((body ++ check).length - checksumSize) = body := by
  rw [List.length_append, h, Nat.add_sub_cancel, List.take_left]

/-- What is left to do once the separator is found. -/
theorem decode_split {name rest : List UInt8} (hlast : separator ∉ rest) (hname : name ≠ [])
    (hroom : checksumSize ≤ rest.length)
    (hcase : ((name ++ separator :: rest).any isLower &&
      (name ++ separator :: rest).any isUpper) = false) :
    decode (name ++ separator :: rest) = (do
      let values ← decodeValues rest
      if !verifyChecksum (name.map lowered) values then
        throw (.runtimeError "Invalid Bech32m checksum")
      let data ← fromWords (values.take (values.length - checksumSize))
      return (name.map lowered, data)) := by
  have found : separatorAt (name ++ separator :: rest) = some name.length :=
    separatorAt_eq_some.mpr ⟨name, rest, rfl, hlast, rfl, hname, hroom⟩
  rw [decode, found]
  dsimp only
  rw [hcase, if_neg (by decide), List.take_left, drop_separator]

/-- The last two tests of the decoder and its answer. -/
theorem decode_parts {name body check hrp data : List UInt8} (hname : name ≠ [])
    (hcase : ((name ++ separator :: (body ++ check)).any isLower &&
      (name ++ separator :: (body ++ check)).any isUpper) = false)
    (hvalid : ∀ c ∈ body ++ check, InCharset c) (hlength : check.length = checksumSize) :
    decode (name ++ separator :: (body ++ check)) = .ok (hrp, data) ↔
      hrp = name.map lowered ∧ check.map symbol = createChecksum hrp (body.map symbol) ∧
        fromWords (body.map symbol) = .ok data := by
  have room : checksumSize ≤ (body ++ check).length := by
    rw [List.length_append]
    omega
  have length : (check.map symbol).length = checksumSize := (List.length_map _).trans hlength
  have symbols : ∀ v ∈ check.map symbol, v.toNat < 32 :=
    map_symbol_lt fun c hc => hvalid c (List.mem_append_right _ hc)
  have verified : verifyChecksum (name.map lowered) (body.map symbol ++ check.map symbol) = true ↔
      check.map symbol = createChecksum (name.map lowered) (body.map symbol) :=
    verifyChecksum_iff _ length symbols
  rw [decode_split (separator_notMem hvalid) hname room hcase,
    decodeValues_eq_ok.mpr ⟨hvalid, rfl⟩, List.map_append, bind_eq_ok]
  constructor
  · rintro ⟨values, hvalues, h⟩
    obtain rfl := Except.ok.inj hvalues
    cases hverify : verifyChecksum (name.map lowered) (body.map symbol ++ check.map symbol) with
    | false =>
      rw [hverify] at h
      cases h
    | true =>
      rw [hverify, if_neg (by decide), take_body _ length] at h
      obtain ⟨bytes, hbytes, hreturned⟩ := bind_eq_ok.mp h
      obtain ⟨rfl, rfl⟩ := Prod.mk.inj (Except.ok.inj hreturned)
      exact ⟨rfl, verified.mp hverify, hbytes⟩
  · rintro ⟨rfl, hchecked, hbytes⟩
    refine ⟨_, rfl, ?_⟩
    rw [verified.mpr hchecked, if_neg (by decide), take_body _ length]
    exact bind_eq_ok.mpr ⟨data, hbytes, rfl⟩

/-- The decoder accepts exactly what the grammar describes. -/
theorem decode_eq_ok {text hrp data : List UInt8} :
    decode text = .ok (hrp, data) ↔ ∃ name body check, Reads text hrp data name body check := by
  constructor
  · intro h
    cases hsep : separatorAt text with
    | none =>
      rw [decode, hsep] at h
      cases h
    | some pos =>
      obtain ⟨name, rest, rfl, hlast, rfl, hname, hroom⟩ := separatorAt_eq_some.mp hsep
      cases hcase : (name ++ separator :: rest).any isLower &&
          (name ++ separator :: rest).any isUpper with
      | true =>
        rw [decode, hsep] at h
        dsimp only at h
        rw [hcase] at h
        cases h
      | false =>
        have split := h
        rw [decode_split hlast hname hroom hcase, bind_eq_ok] at split
        obtain ⟨values, hvalues, -⟩ := split
        have hvalid := (decodeValues_eq_ok.mp hvalues).1
        obtain ⟨body, check, rfl, hlength⟩ :
            ∃ body check, rest = body ++ check ∧ check.length = checksumSize :=
          ⟨rest.take (rest.length - checksumSize), rest.drop (rest.length - checksumSize),
            (List.take_append_drop ..).symm, by rw [List.length_drop]; omega⟩
        obtain ⟨hhrp, hchecked, hdata⟩ := (decode_parts hname hcase hvalid hlength).mp h
        exact ⟨name, body, check, rfl, hname, hcase, hvalid, hlength, hhrp, hchecked, hdata⟩
  · rintro ⟨name, body, check, rfl, hname, hcase, hvalid, hlength, hhrp, hchecked, hdata⟩
    exact (decode_parts hname hcase hvalid hlength).mpr ⟨hhrp, hchecked, hdata⟩

/-! ## Reading back what was encoded -/

theorem createChecksum_lt (hrp values : List UInt8) : ∀ v ∈ createChecksum hrp values, v.toNat < 32 := by
  intro v hv
  have symbols := List.mem_map_of_mem (f := UInt8.toNat) hv
  rw [map_toNat_createChecksum] at symbols
  exact PolyChecksum.symbols_lt _ _ symbols

theorem length_createChecksum (hrp values : List UInt8) :
    (createChecksum hrp values).length = checksumSize := by
  rw [createChecksum, List.length_map, List.length_range]

theorem map_lowered {text : List UInt8} (h : ∀ c ∈ text, isUpper c = false) :
    text.map lowered = text := by
  refine (List.map_congr_left ?_).trans (List.map_id text)
  intro c hc
  rw [lowered, if_neg (by rw [h c hc]; decide)]
  rfl

/-- The symbols behind the separator. -/
theorem drawn_lt (hrp data : List UInt8) :
    ∀ v ∈ toWords data ++ createChecksum hrp (toWords data), v.toNat < 32 := by
  intro v hv
  exact (List.mem_append.mp hv).elim ((toWords_spec data).1 v) (createChecksum_lt hrp _ v)

theorem mem_encode {hrp data : List UInt8} {c : UInt8} (h : c ∈ encode hrp data) :
    c ∈ hrp ∨ c = separator ∨ ∃ v : UInt8, v.toNat < 32 ∧ c = charsetAt v := by
  rw [encode, ← List.map_append, List.mem_append, List.mem_cons, List.mem_map] at h
  rcases h with h | rfl | ⟨v, hv, rfl⟩
  · exact Or.inl h
  · exact Or.inr (Or.inl rfl)
  · exact Or.inr (Or.inr ⟨v, drawn_lt hrp data v hv, rfl⟩)

theorem encode_lower {hrp : List UInt8} (hlower : ∀ c ∈ hrp, isUpper c = false)
    (data : List UInt8) : ∀ c ∈ encode hrp data, isUpper c = false := by
  intro c hc
  rcases mem_encode hc with h | rfl | ⟨v, hv, rfl⟩
  · exact hlower c h
  · rfl
  · exact (charsetAt_spec hv).2.2

theorem any_isUpper_encode {hrp : List UInt8} (hlower : ∀ c ∈ hrp, isUpper c = false)
    (data : List UInt8) : (encode hrp data).any isUpper = false := by
  rw [List.any_eq_false]
  intro c hc
  rw [Bool.not_eq_true, encode_lower hlower data c hc]

theorem reads_encode {hrp : List UInt8} (hname : hrp ≠ []) (hlower : ∀ c ∈ hrp, isUpper c = false)
    (data : List UInt8) :
    Reads (encode hrp data) hrp data hrp ((toWords data).map charsetAt)
      ((createChecksum hrp (toWords data)).map charsetAt) := by
  have words := (toWords_spec data).1
  have checks := createChecksum_lt hrp (toWords data)
  constructor
  · rfl
  · exact hname
  · rw [any_isUpper_encode hlower, Bool.and_false]
  · intro c hc
    rw [← List.map_append] at hc
    obtain ⟨v, hv, rfl⟩ := List.mem_map.mp hc
    exact (charsetAt_spec (drawn_lt hrp data v hv)).1
  · rw [List.length_map, length_createChecksum]
  · exact (map_lowered hlower).symm
  · rw [map_symbol_charsetAt checks, map_symbol_charsetAt words]
  · rw [map_symbol_charsetAt words, fromWords_toWords]

theorem decode_encode {hrp : List UInt8} (hname : hrp ≠ []) (hlower : ∀ c ∈ hrp, isUpper c = false)
    (data : List UInt8) : decode (encode hrp data) = .ok (hrp, data) :=
  decode_eq_ok.mpr ⟨_, _, _, reads_encode hname hlower data⟩

theorem encode_inj {hrp hrp' data data' : List UInt8} (hname : hrp ≠ []) (hname' : hrp' ≠ [])
    (hlower : ∀ c ∈ hrp, isUpper c = false) (hlower' : ∀ c ∈ hrp', isUpper c = false)
    (h : encode hrp data = encode hrp' data') : hrp = hrp' ∧ data = data' := by
  have read := decode_encode hname hlower data
  rw [h, decode_encode hname' hlower' data'] at read
  obtain ⟨same, sameData⟩ := Prod.mk.inj (Except.ok.inj read)
  exact ⟨same.symm, sameData.symm⟩

/-- The separator of an encoded text is the one put there. -/
theorem rfind_encode (hrp data : List UInt8) : rfind separator (encode hrp data) = some hrp.length := by
  rw [encode, ← List.map_append]
  apply rfind_append
  apply separator_notMem
  intro c hc
  obtain ⟨v, hv, rfl⟩ := List.mem_map.mp hc
  exact (charsetAt_spec (drawn_lt hrp data v hv)).1

/-- **Every address is read back.** -/
theorem decode_encode_address (hrp data : List UInt8) (hname : hrp ≠ [])
    (hlower : ∀ c ∈ hrp, isUpper c = false) : decode (encode hrp data) = .ok (hrp, data) :=
  decode_encode hname hlower data

/-- A readable part with a separator of its own. -/
theorem decode_encode_separator :
    decode (encode (literal "mn_1a") [0, 255, 7]) = .ok (literal "mn_1a", [0, 255, 7]) :=
  decode_encode_address _ _ (by decide) (by simp [literal, isUpper])

/-! ## Encoding what was read -/

/-- The words of an accepted text, its checksum left off. -/
def dataWords (text : List UInt8) : List UInt8 :=
  let rest := text.drop ((rfind separator text).getD 0 + 1)
  (rest.take (rest.length - checksumSize)).map symbol

theorem Reads.dataWords_eq {text hrp data name body check : List UInt8}
    (h : Reads text hrp data name body check) : dataWords text = body.map symbol := by
  rw [dataWords, h.text_eq, rfind_append (separator_notMem h.valid)]
  simp only [Option.getD_some]
  rw [drop_separator, take_body body h.length]

/-- What encodes to an accepted text in lower case has the words of the text. -/
theorem Reads.encode_eq_iff {text hrp data name body check : List UInt8}
    (h : Reads text hrp data name body check) (other : List UInt8) :
    encode hrp other = text.map lowered ↔ toWords other = body.map symbol := by
  have validBody : ∀ c ∈ body, InCharset c := fun c hc => h.valid c (List.mem_append_left _ hc)
  have validCheck : ∀ c ∈ check, InCharset c := fun c hc => h.valid c (List.mem_append_right _ hc)
  have words := map_symbol_lt validBody
  -- in lower case the text is the encoder's layout of the words it was read as
  have layout : text.map lowered = hrp ++ separator ::
      ((body.map symbol).map charsetAt ++
        (createChecksum hrp (body.map symbol)).map charsetAt) := by
    rw [h.text_eq, List.map_append, List.map_cons, List.map_append, ← h.hrp_eq, ← h.checked,
      map_charsetAt_symbol validBody, map_charsetAt_symbol validCheck]
    rfl
  rw [layout]
  constructor
  · intro same
    have parts := List.cons.inj (List.append_cancel_left same)
    have lengths : ((createChecksum hrp (toWords other)).map charsetAt).length =
        ((createChecksum hrp (body.map symbol)).map charsetAt).length := by
      rw [List.length_map, List.length_map, length_createChecksum, length_createChecksum]
    have drawn := List.append_inj_left' parts.2 lengths
    rw [← map_symbol_charsetAt (toWords_spec other).1, drawn, map_symbol_charsetAt words]
  · intro same
    rw [encode, same]

/-- Only what an accepted text was read as can encode to it. -/
theorem encode_eq_lowered_iff {text hrp data : List UInt8} (h : decode text = .ok (hrp, data))
    (other : List UInt8) :
    encode hrp other = text.map lowered ↔ other = data ∧ NoStrayBits (dataWords text) := by
  obtain ⟨name, body, check, reads⟩ := decode_eq_ok.mp h
  have words := map_symbol_lt fun c hc => reads.valid c (List.mem_append_left check hc)
  rw [reads.dataWords_eq, reads.encode_eq_iff, ← toWords_fromWords_iff words reads.data_eq]
  constructor
  · intro same
    have bytes := fromWords_toWords other
    rw [same, reads.data_eq] at bytes
    obtain rfl := Except.ok.inj bytes
    exact ⟨rfl, same⟩
  · rintro ⟨rfl, same⟩
    exact same

theorem encode_decode_noStrayBits {text hrp data : List UInt8} (h : decode text = .ok (hrp, data)) :
    encode hrp data = text.map lowered ↔ NoStrayBits (dataWords text) := by
  rw [encode_eq_lowered_iff h, eq_self, true_and]

/-- **Which accepted texts come back.** And two texts in lower case that both come
back are one text if they are read alike. -/
theorem encode_decode_iff (text hrp data : List UInt8) (h : decode text = .ok (hrp, data)) :
    (encode hrp data = text.map lowered ↔ NoStrayBits (dataWords text)) ∧
    ∀ other, decode other = .ok (hrp, data) → text.map lowered = text → other.map lowered = other →
      NoStrayBits (dataWords text) → NoStrayBits (dataWords other) → text = other := by
  refine ⟨encode_decode_noStrayBits h, ?_⟩
  intro other hother hlower hotherLower hstray hotherStray
  calc text = text.map lowered := hlower.symm
    _ = encode hrp data := ((encode_decode_noStrayBits h).mpr hstray).symm
    _ = other.map lowered := (encode_decode_noStrayBits hother).mpr hotherStray
    _ = other := hotherLower

/-- No other text of this kind is read as the byte zero under `a`. -/
theorem encode_decode_zero :
    (encode (literal "a") [0] = (literal "a1qq43hjaz").map lowered ↔
      NoStrayBits (dataWords (literal "a1qq43hjaz"))) ∧
    ∀ other, decode other = .ok (literal "a", [0]) → other.map lowered = other →
      NoStrayBits (dataWords other) → literal "a1qq43hjaz" = other := by
  obtain ⟨back, alike⟩ :=
    encode_decode_iff (literal "a1qq43hjaz") (literal "a") [0] (by decide +kernel)
  refine ⟨back, ?_⟩
  intro other hother hlower hstray
  exact alike other hother (by decide) hlower (by decide) hstray

/-- A bit set behind the last byte is not looked at. -/
theorem stray_bit_accepted :
    decode (literal "a1qpg8r8qs") = .ok (literal "a", [0]) ∧
      decode (literal "a1qq43hjaz") = .ok (literal "a", [0]) ∧
      encode (literal "a") [0] ≠ (literal "a1qpg8r8qs").map lowered := by
  refine ⟨?_, ?_, ?_⟩ <;> decide +kernel

end MidnightSdk.Wallet.Bech32m
