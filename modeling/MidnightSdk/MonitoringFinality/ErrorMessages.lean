import MidnightSdk.Library.Places

/-!
# Error messages

The text of an error is cut off and made printable, and then each sensitive keyword is to
lose what stands behind it. A keyword and its colon are replaced by the keyword and a
notice; the value behind the colon stays. The search goes on behind the notice, a second
time one character further, and where the first of the two fails the second one wraps
round to the start of the text.

Where a character of the result comes from is followed by running the same steps on
characters that carry their place in the input.
-/

namespace MidnightSdk.MonitoringFinality.ErrorMessages

open Places TextSearch

/-! ## The steps -/

def mask (c : UInt8) : Char := if 32 ≤ c ∧ c ≤ 126 then Char.ofNat c.toNat else '?'

def sensitivePatterns : List (List Char) :=
  ["password".toList, "token".toList, "secret".toList, "api_key".toList, "apikey".toList,
    "authorization".toList, "private_key".toList, "credential".toList]

def notice : List Char := ": <redacted>".toList

/-- `std::min`, where no place is the largest number. -/
def minPlace : Option Nat → Option Nat → Option Nat
  | none, place => place
  | place, none => place
  | some first, some second => some (min first second)

section
variable {α : Type} (letter : α → Char) (replacement : List Char → List α → List α)

/-- The keyword found at a place, up to the colon, is replaced. -/
def redact (pattern : List Char) (sanitized : List α) (pos : Nat) : List α :=
  let colonPos := findFrom [':'] (sanitized.map letter) (some pos)
  let newlinePos := findFrom ['\n'] (sanitized.map letter) (some pos)
  match minPlace colonPos newlinePos with
  | none => sanitized
  | some stop =>
    if stop > pos then
      sanitized.take pos ++
        (replacement pattern ((sanitized.drop pos).take pattern.length) ++
          sanitized.drop (pos + (stop - pos + 1)))
    else sanitized

/-- The loop over the occurrences of a keyword, as far as it has gone. -/
def redactLoop (pattern : List Char) : Nat → List α → Option Nat → Option (List α)
  | 0, _, _ => none
  | _ + 1, sanitized, none => some sanitized
  | rounds + 1, sanitized, some pos =>
    let sanitized := redact letter replacement pattern sanitized pos
    let text := sanitized.map letter
    let pos := findFrom pattern text (some (pos + pattern.length + 12))
    redactLoop pattern rounds sanitized (findFrom pattern text (some (after pos 1)))

def redactAll (rounds : Nat) : List (List Char) → List α → Option (List α)
  | [], sanitized => some sanitized
  | pattern :: rest, sanitized =>
    (redactLoop letter replacement pattern rounds sanitized
      (find pattern (sanitized.map letter))).bind (redactAll rounds rest)

end

/-- The first characters, made printable. -/
def kept (raw : List UInt8) : List Char := (raw.take 200).map mask

/-- Each loop given so many rounds. -/
def sanitizeErrorMessage (rounds : Nat) (raw : List UInt8) : Option (List Char) :=
  if raw.isEmpty then some "An internal error occurred".toList
  else
    let sanitized := kept raw
    let sanitized :=
      if sanitized.length > 200 then sanitized.take 200 ++ "...".toList else sanitized
    redactAll id (fun pattern _ => pattern ++ notice) rounds sensitivePatterns sanitized

/-! ## Where characters come from -/

/-- A character, with its place in the input unless it has been put in. -/
structure Traced where
  letter : Char
  origin : Option Nat
  deriving DecidableEq, Repr

def Traced.fresh (c : Char) : Traced := ⟨c, none⟩

def tracedKept (raw : List UInt8) : List Traced :=
  (raw.take 200).mapIdx fun i c => ⟨mask c, some i⟩

/-- A keyword that is replaced by itself is still the keyword of the input. -/
def traceErrorMessage (rounds : Nat) (raw : List UInt8) : Option (List Traced) :=
  if raw.isEmpty then some ("An internal error occurred".toList.map .fresh)
  else
    redactAll Traced.letter (fun _ keyword => keyword ++ notice.map .fresh) rounds
      sensitivePatterns (tracedKept raw)

/-- A keyword, and the first colon behind it. -/
def KeywordColon (text : List Char) (keyword colon : Nat) : Prop :=
  ∃ pattern ∈ sensitivePatterns, pattern <+: text.drop keyword ∧
    findFrom [':'] text (some keyword) = some colon

/-- How far the value behind a keyword's colon goes: wherever there is text behind the
colon, some of it is the value. -/
structure ValueRule (raw : List UInt8) where
  stop : Nat → Nat → Nat
  begins : ∀ keyword colon, colon + 1 < raw.length → colon + 1 < stop keyword colon

/-- The message is made, is printable and not much longer than what is kept of the text,
and nothing in it comes from behind a keyword and its colon, up to the end of the value. -/
def Redacts (raw : List UInt8) (values : ValueRule raw) (extra : Nat) : Prop :=
  ∃ rounds message, traceErrorMessage rounds raw = some message ∧
    sanitizeErrorMessage rounds raw = some (message.map Traced.letter) ∧
    (∀ c ∈ message, 32 ≤ c.letter.toNat ∧ c.letter.toNat ≤ 126) ∧
    message.length ≤ 200 + extra ∧
    ∀ keyword colon, KeywordColon (raw.map mask) keyword colon →
      ∀ c ∈ message, ∀ i, c.origin = some i → ¬(colon < i ∧ i < values.stop keyword colon)

/-- From a start on the occurrences that the loop comes to are even in number: there is
none, or there is one and another one at least twelve characters behind it, and so on from
the next character on. -/
inductive PairsUp (pattern text : List Char) : Nat → Prop
  | none {start : Nat} : findFrom pattern text (some start) = none → PairsUp pattern text start
  | pair {start first second : Nat} : findFrom pattern text (some start) = some first →
      findFrom pattern text (some (first + pattern.length + 12)) = some second →
      PairsUp pattern text (second + 1) → PairsUp pattern text start

/-- They are odd in number. -/
inductive LeavesOne (pattern text : List Char) : Nat → Prop
  | last {start first : Nat} : findFrom pattern text (some start) = some first →
      findFrom pattern text (some (first + pattern.length + 12)) = none →
      LeavesOne pattern text start
  | pair {start first second : Nat} : findFrom pattern text (some start) = some first →
      findFrom pattern text (some (first + pattern.length + 12)) = some second →
      LeavesOne pattern text (second + 1) → LeavesOne pattern text start

/-! ## One replacement -/

theorem sensitivePatterns_spec : ∀ pattern ∈ sensitivePatterns,
    pattern ≠ [] ∧ ':' ∉ pattern ∧ ClashesThroughout pattern notice.tail := by decide

section
variable {α : Type} {letter : α → Char} {replacement : List Char → List α → List α}
  {inserted : List α}

/-- What replaces a keyword is the keyword and the notice. -/
structure PutsNotice (letter : α → Char) (replacement : List Char → List α → List α)
    (inserted : List α) : Prop where
  letters : inserted.map letter = notice
  replaces : ∀ pattern keyword, keyword.map letter = pattern →
    replacement pattern keyword = keyword ++ inserted

theorem putsNotice_plain : PutsNotice id (fun pattern _ => pattern ++ notice) notice :=
  ⟨List.map_id _, fun _ _ h => by rw [← h, List.map_id]⟩

theorem putsNotice_traced :
    PutsNotice Traced.letter (fun _ keyword => keyword ++ notice.map .fresh)
      (notice.map .fresh) :=
  ⟨by rw [List.map_map]; exact List.map_id _, fun _ _ _ => rfl⟩

theorem split_at_colon {text : List α} (h : ':' ∈ text.map letter) :
    ∃ between colon rest, text = between ++ colon :: rest ∧ ':' ∉ between.map letter ∧
      letter colon = ':' := by
  obtain ⟨front, later, htext, hfront⟩ := List.eq_append_cons_of_mem h
  obtain ⟨between, tail, rfl, rfl, htail⟩ := List.map_eq_append_iff.mp htext
  obtain ⟨colon, rest, rfl, hcolon, -⟩ := List.map_eq_cons_iff.mp htail
  exact ⟨between, colon, rest, rfl, hfront, hcolon⟩

theorem findFrom_letters_none {c : Char} {front text : List α} (h : c ∉ text.map letter) :
    findFrom [c] ((front ++ text).map letter) (some front.length) = none := by
  have length : (front.map letter).length = front.length := List.length_map letter
  rw [List.map_append, ← length]
  exact findFrom_mark_eq_none h _

theorem colon_place {pattern : List Char} (hpattern : pattern ∈ sensitivePatterns)
    {front keyword between rest : List α} {colon : α} (hkeyword : keyword.map letter = pattern)
    (hbetween : ':' ∉ between.map letter) (hcolon : letter colon = ':') :
    findFrom [':'] ((front ++ (keyword ++ (between ++ colon :: rest))).map letter)
      (some front.length) = some (front.length + (keyword ++ between).length) := by
  have unmarked : ':' ∉ (keyword ++ between).map letter := by
    rw [List.map_append, List.mem_append, not_or, hkeyword]
    exact ⟨(sensitivePatterns_spec pattern hpattern).2.1, hbetween⟩
  have marked := findFrom_mark unmarked (front.map letter) (rest.map letter)
  simpa only [List.map_append, List.map_cons, hcolon, List.length_map, List.length_append,
    List.append_assoc] using marked

/-- A keyword with a colon behind it is replaced up to the colon. -/
theorem redact_of_colon (puts : PutsNotice letter replacement inserted) {pattern : List Char}
    (hpattern : pattern ∈ sensitivePatterns) {front keyword between rest : List α} {colon : α}
    (hkeyword : keyword.map letter = pattern) (hbetween : ':' ∉ between.map letter)
    (hcolon : letter colon = ':')
    (hline : '\n' ∉ (front ++ (keyword ++ (between ++ colon :: rest))).map letter) :
    redact letter replacement pattern (front ++ (keyword ++ (between ++ colon :: rest)))
      front.length = front ++ (keyword ++ (inserted ++ rest)) := by
  have newline : findFrom ['\n'] ((front ++ (keyword ++ (between ++ colon :: rest))).map letter)
      (some front.length) = none := by
    rw [List.map_append, List.mem_append, not_or] at hline
    exact findFrom_letters_none hline.2
  have word : keyword.length = pattern.length := by rw [← hkeyword, List.length_map]
  have behind : front.length + (keyword ++ between).length > front.length := by
    have := List.length_pos_of_ne_nil (sensitivePatterns_spec pattern hpattern).1
    rw [List.length_append]
    omega
  have removed : front.length + (front.length + (keyword ++ between).length - front.length + 1) =
      (front ++ (keyword ++ (between ++ [colon]))).length := by
    simp only [List.length_append, List.length_singleton]
    omega
  have whole : front ++ (keyword ++ (between ++ colon :: rest)) =
      front ++ (keyword ++ (between ++ [colon])) ++ rest := by simp
  simp only [redact, colon_place hpattern hkeyword hbetween hcolon, newline, minPlace,
    if_pos behind, removed]
  rw [List.take_left' rfl, List.drop_left' rfl, ← word, List.take_left' rfl,
    puts.replaces _ _ hkeyword, whole, List.drop_left' rfl, List.append_assoc]

theorem place_lt {pattern text : List Char} {pos : Nat} (hpattern : pattern ∈ sensitivePatterns)
    (here : pattern <+: text.drop pos) : pos < text.length := by
  by_contra outside
  rw [List.drop_eq_nil_of_le (by omega)] at here
  exact (sensitivePatterns_spec pattern hpattern).1 (List.prefix_nil.mp here)

/-- What a replacement does: nothing where no colon is behind the keyword. -/
theorem redact_cases (puts : PutsNotice letter replacement inserted) {pattern : List Char}
    (hpattern : pattern ∈ sensitivePatterns) {s : List α} {pos : Nat}
    (hline : '\n' ∉ s.map letter) (here : pattern <+: (s.map letter).drop pos) :
    (':' ∉ (s.map letter).drop pos ∧ redact letter replacement pattern s pos = s) ∨
    ∃ front keyword between colon rest,
      s = front ++ (keyword ++ (between ++ colon :: rest)) ∧ front.length = pos ∧
        keyword.map letter = pattern ∧ ':' ∉ between.map letter ∧ letter colon = ':' ∧
          redact letter replacement pattern s pos = front ++ (keyword ++ (inserted ++ rest)) := by
  have inside := place_lt hpattern here
  rw [List.length_map] at inside
  obtain ⟨front, tail, rfl, rfl⟩ : ∃ front tail, s = front ++ tail ∧ front.length = pos :=
    ⟨s.take pos, s.drop pos, (List.take_append_drop pos s).symm,
      List.length_take_of_le (Nat.le_of_lt inside)⟩
  have behind : ((front ++ tail).map letter).drop front.length = tail.map letter := by
    rw [List.map_append, List.drop_left' (List.length_map letter)]
  rw [behind] at here ⊢
  by_cases hcolon : ':' ∈ tail.map letter
  · obtain ⟨later, hlater⟩ := here
    obtain ⟨keyword, text, rfl, hkeyword, rfl⟩ := List.map_eq_append_iff.mp hlater.symm
    have behindKeyword : ':' ∈ text.map letter := by
      rw [List.map_append, List.mem_append, hkeyword] at hcolon
      exact hcolon.resolve_left (sensitivePatterns_spec pattern hpattern).2.1
    obtain ⟨between, colon, rest, rfl, hbetween, hcolon⟩ := split_at_colon behindKeyword
    exact .inr ⟨front, keyword, between, colon, rest, rfl, rfl, hkeyword, hbetween, hcolon,
      redact_of_colon puts hpattern hkeyword hbetween hcolon hline⟩
  · have newline : '\n' ∉ tail.map letter := by
      rw [List.map_append, List.mem_append, not_or] at hline
      exact hline.2
    refine .inl ⟨hcolon, ?_⟩
    simp only [redact, findFrom_letters_none hcolon, findFrom_letters_none newline, minPlace]

/-- No line is put in. -/
theorem redact_line (puts : PutsNotice letter replacement inserted) {pattern : List Char}
    (hpattern : pattern ∈ sensitivePatterns) {s : List α} {pos : Nat}
    (hline : '\n' ∉ s.map letter) (here : pattern <+: (s.map letter).drop pos) :
    '\n' ∉ (redact letter replacement pattern s pos).map letter := by
  rcases redact_cases puts hpattern hline here with
    ⟨-, same⟩ | ⟨front, keyword, between, colon, rest, rfl, -, -, -, -, heq⟩
  · rwa [same]
  · have noticed : '\n' ∉ inserted.map letter := by
      rw [puts.letters]
      decide
    rw [heq]
    simp only [List.map_append, List.mem_append, not_or, List.map_cons, List.mem_cons] at hline ⊢
    exact ⟨hline.1, hline.2.1, noticed, hline.2.2.2.2⟩

theorem redact_letters (puts : PutsNotice letter replacement inserted) {pattern : List Char}
    {s : List α} {pos : Nat} (here : pattern <+: (s.map letter).drop pos) :
    (redact letter replacement pattern s pos).map letter =
      redact id (fun pattern _ => pattern ++ notice) pattern (s.map letter) pos := by
  have keyword : ((s.drop pos).take pattern.length).map letter = pattern := by
    rw [List.map_take, List.map_drop]
    exact (List.prefix_iff_eq_take.mp here).symm
  simp only [redact, List.map_id]
  split
  · rfl
  · split
    · rw [puts.replaces _ _ keyword, List.map_append, List.map_append, List.map_append, keyword,
        puts.letters, List.map_take, List.map_drop]
    · rfl

/-! ## A loop -/

/-- What every replacement keeps holds of the result. -/
theorem redactLoop_induct {P : List α → Prop} {pattern : List Char}
    (hstep : ∀ s pos, P s → pattern <+: (s.map letter).drop pos →
      P (redact letter replacement pattern s pos))
    {rounds start : Nat} {s message : List α} (hs : P s)
    (h : redactLoop letter replacement pattern rounds s
      (findFrom pattern (s.map letter) (some start)) = some message) : P message := by
  induction rounds generalizing s start with
  | zero => cases h
  | succ rounds ih =>
    cases found : findFrom pattern (s.map letter) (some start) with
    | none =>
      rw [found] at h
      cases h
      exact hs
    | some pos =>
      rw [found, redactLoop] at h
      exact ih (hstep s pos hs (of_findFrom found).2) h

theorem redactAll_induct {P : List α → Prop} {patterns : List (List Char)}
    (hstep : ∀ pattern ∈ patterns, ∀ s pos, P s → pattern <+: (s.map letter).drop pos →
      P (redact letter replacement pattern s pos))
    {rounds : Nat} {s message : List α} (hs : P s)
    (h : redactAll letter replacement rounds patterns s = some message) : P message := by
  induction patterns generalizing s with
  | nil =>
    cases h
    exact hs
  | cons pattern patterns ih =>
    obtain ⟨first, later⟩ := List.forall_mem_cons.mp hstep
    rw [redactAll, ← findFrom_zero] at h
    obtain ⟨next, hnext, h⟩ := Option.bind_eq_some_iff.mp h
    exact ih later (redactLoop_induct first hs hnext) h

theorem redactLoop_letters (puts : PutsNotice letter replacement inserted) (pattern : List Char)
    (rounds : Nat) (s : List α) (start : Nat) :
    (redactLoop letter replacement pattern rounds s
      (findFrom pattern (s.map letter) (some start))).map (List.map letter) =
    redactLoop id (fun pattern _ => pattern ++ notice) pattern rounds (s.map letter)
      (findFrom pattern (s.map letter) (some start)) := by
  induction rounds generalizing s start with
  | zero => rfl
  | succ rounds ih =>
    cases found : findFrom pattern (s.map letter) (some start) with
    | none => rfl
    | some pos =>
      simp only [redactLoop, after]
      rw [← redact_letters puts (of_findFrom found).2, List.map_id]
      exact ih _ _

theorem redactAll_letters (puts : PutsNotice letter replacement inserted) (rounds : Nat)
    (patterns : List (List Char)) (s : List α) :
    (redactAll letter replacement rounds patterns s).map (List.map letter) =
      redactAll id (fun pattern _ => pattern ++ notice) rounds patterns (s.map letter) := by
  induction patterns generalizing s with
  | nil => rfl
  | cons pattern patterns ih =>
    simp only [redactAll, List.map_id, ← findFrom_zero, ← redactLoop_letters puts]
    cases redactLoop letter replacement pattern rounds s
        (findFrom pattern (s.map letter) (some 0)) with
    | none => rfl
    | some next => exact ih next

/-! ## What stands behind a colon stays -/

/-- Each keyword in it has a colon behind it. -/
def Guarded (text : List Char) : Prop :=
  ∀ pattern ∈ sensitivePatterns, ∀ before behind,
    text = before ++ (pattern ++ behind) → ':' ∈ behind

theorem guarded_append_colon (text : List Char) : Guarded (text ++ [':']) := by
  intro pattern hpattern before behind h
  obtain ⟨nonempty, colonless, -⟩ := sensitivePatterns_spec pattern hpattern
  have ends : (before ++ (pattern ++ behind)).getLast? = some ':' := by
    rw [← h, List.getLast?_concat]
  rw [List.getLast?_append_of_ne_nil _ (by simp [nonempty])] at ends
  exact (List.mem_append.mp (List.mem_of_getLast? ends)).resolve_left colonless

/-- A replacement before it leaves a text so. -/
theorem Guarded.replace {front between rest : List Char}
    (h : Guarded (front ++ (between ++ ':' :: rest))) :
    Guarded (front ++ (notice ++ rest)) := by
  intro pattern hpattern before behind heq
  obtain ⟨nonempty, colonless, clashes⟩ := sensitivePatterns_spec pattern hpattern
  have opened : notice ++ rest = ':' :: (notice.tail ++ rest) := rfl
  rw [opened] at heq
  rcases List.append_eq_append_iff.mp heq with ⟨more, rfl, hmore⟩ | ⟨more, rfl, hmore⟩
  · cases more with
    | nil =>
      cases pattern with
      | nil => exact absurd rfl nonempty
      | cons c pattern =>
        obtain ⟨rfl, -⟩ := List.cons.inj hmore
        exact absurd List.mem_cons_self colonless
    | cons c more =>
      -- the keyword stands behind the colon of the notice, and so behind the whole notice
      obtain ⟨rfl, hbehind⟩ := List.cons.inj hmore
      obtain ⟨between', rfl⟩ := clashes.behind hbehind
      apply h pattern hpattern (front ++ (between ++ ':' :: between')) behind
      simp
  · rcases List.append_eq_append_iff.mp hmore with ⟨text, rfl, hbehind⟩ | ⟨text, rfl, hbehind⟩
    · rw [hbehind]
      simp
    · cases text with
      | nil =>
        rw [List.nil_append] at hbehind
        rw [← hbehind]
        simp
      | cons c text =>
        obtain ⟨rfl, -⟩ := List.cons.inj hbehind
        simp at colonless

/-- A character that is guarded is kept. -/
theorem redact_keeps (puts : PutsNotice letter replacement inserted) {pattern : List Char}
    (hpattern : pattern ∈ sensitivePatterns) {s : List α} {pos : Nat} {x : α}
    (hline : '\n' ∉ s.map letter) (here : pattern <+: (s.map letter).drop pos)
    (h : ∃ before behind, s = before ++ x :: behind ∧ Guarded (before.map letter)) :
    ∃ before behind, redact letter replacement pattern s pos = before ++ x :: behind ∧
      Guarded (before.map letter) := by
  rcases redact_cases puts hpattern hline here with
    ⟨-, same⟩ | ⟨front, keyword, between, colon, rest, hs, -, hkeyword, hbetween, hcolon, heq⟩
  · rwa [same]
  · obtain ⟨before, behind, hx, guarded⟩ := h
    obtain ⟨nonempty, -⟩ := sensitivePatterns_spec pattern hpattern
    -- right behind the keyword a guarded character has a colon before it
    have behindColon : ∀ more, before = front ++ (keyword ++ more) → ':' ∈ more.map letter := by
      rintro more rfl
      apply guarded pattern hpattern (front.map letter)
      rw [List.map_append, List.map_append, hkeyword]
    rw [heq]
    rw [hx] at hs
    rcases List.append_eq_append_iff.mp hs with ⟨more, rfl, hmore⟩ | ⟨more, rfl, hmore⟩
    · obtain ⟨kept, hkept⟩ : ∃ kept, more ++ (keyword ++ (inserted ++ rest)) = x :: kept := by
        cases more with
        | cons c more =>
          obtain ⟨rfl, -⟩ := List.cons.inj hmore
          exact ⟨_, rfl⟩
        | nil =>
          cases keyword with
          | nil => exact absurd hkeyword.symm nonempty
          | cons c keyword =>
            obtain ⟨rfl, -⟩ := List.cons.inj hmore
            exact ⟨_, rfl⟩
      exact ⟨before, kept, by rw [List.append_assoc, hkept], guarded⟩
    · rcases List.append_eq_append_iff.mp hmore with ⟨past, rfl, hpast⟩ | ⟨left, rfl, hleft⟩
      · have colonPast := behindColon past rfl
        rcases List.append_eq_append_iff.mp hpast with ⟨later, rfl, hlater⟩ | ⟨left, rfl, -⟩
        · cases later with
          | nil =>
            rw [List.append_nil] at colonPast
            exact absurd colonPast hbetween
          | cons c later =>
            obtain ⟨rfl, rfl⟩ := List.cons.inj hlater
            refine ⟨front ++ (keyword ++ (inserted ++ later)), behind, by simp, ?_⟩
            have before : Guarded ((front ++ keyword).map letter ++
                (between.map letter ++ ':' :: later.map letter)) := by
              simpa [hcolon] using guarded
            simpa [puts.letters] using before.replace
        · exact absurd (by simp [colonPast]) hbetween
      · cases left with
        | nil => exact absurd (behindColon [] (by simp)) (by simp)
        | cons c left =>
          obtain ⟨rfl, -⟩ := List.cons.inj hleft
          exact ⟨front ++ more, left ++ (inserted ++ rest), by simp, guarded⟩

/-! ## Where a loop ends -/

theorem pairsUp_or_leavesOne {pattern : List Char} (hpattern : pattern ∈ sensitivePatterns)
    (text : List Char) (start : Nat) :
    PairsUp pattern text start ∨ LeavesOne pattern text start := by
  obtain ⟨room, hroom⟩ : ∃ room, text.length + 1 - start = room := ⟨_, rfl⟩
  induction room using Nat.strongRecOn generalizing start with
  | ind room ih =>
    cases found : findFrom pattern text (some start) with
    | none => exact .inl (.none found)
    | some first =>
      cases next : findFrom pattern text (some (first + pattern.length + 12)) with
      | none => exact .inr (.last found next)
      | some second =>
        obtain ⟨from_start, -⟩ := of_findFrom found
        obtain ⟨from_first, here⟩ := of_findFrom next
        have inside := place_lt hpattern here
        exact (ih (text.length + 1 - (second + 1)) (by omega) (second + 1) rfl).imp
          (.pair found next) (.pair found next)

/-- No occurrence of the keyword has a colon behind it. -/
def Colonless (pattern text : List Char) : Prop :=
  ∀ pos, pattern <+: text.drop pos → ':' ∉ text.drop pos

section
variable (puts : PutsNotice letter replacement inserted) {pattern : List Char}
  (hpattern : pattern ∈ sensitivePatterns) {s : List α} (hline : '\n' ∉ s.map letter)
include puts hpattern hline

theorem redact_colonless (colonless : Colonless pattern (s.map letter)) {pos : Nat}
    (here : pattern <+: (s.map letter).drop pos) :
    redact letter replacement pattern s pos = s := by
  rcases redact_cases puts hpattern hline here with
    ⟨-, same⟩ | ⟨front, keyword, between, colon, rest, rfl, rfl, -, -, hcolon, -⟩
  · exact same
  · refine absurd ?_ (colonless _ here)
    rw [List.map_append, List.drop_left' (List.length_map letter)]
    simp [hcolon]

/-- One round over an unchanged text. -/
theorem redactLoop_colonless (colonless : Colonless pattern (s.map letter)) {start first : Nat}
    (found : findFrom pattern (s.map letter) (some start) = some first) (rounds : Nat) :
    redactLoop letter replacement pattern (rounds + 1) s
        (findFrom pattern (s.map letter) (some start)) =
      redactLoop letter replacement pattern rounds s
        (findFrom pattern (s.map letter) (some
          (after (findFrom pattern (s.map letter) (some (first + pattern.length + 12))) 1))) := by
  rw [found, redactLoop]
  simp only [redact_colonless puts hpattern hline colonless (of_findFrom found).2]

theorem redactLoop_of_pairsUp (colonless : Colonless pattern (s.map letter)) {start : Nat}
    (pairs : PairsUp pattern (s.map letter) start) :
    ∃ rounds, redactLoop letter replacement pattern rounds s
      (findFrom pattern (s.map letter) (some start)) = some s := by
  induction pairs with
  | none unfound => exact ⟨1, by rw [unfound, redactLoop]⟩
  | pair found next _ ih =>
    obtain ⟨rounds, hrounds⟩ := ih
    refine ⟨rounds + 1, ?_⟩
    rw [redactLoop_colonless puts hpattern hline colonless found, next, after]
    exact hrounds

/-- From an odd occurrence the loop comes back to the start. -/
theorem redactLoop_of_leavesOne (colonless : Colonless pattern (s.map letter))
    (odd : LeavesOne pattern (s.map letter) 0) (rounds : Nat) {start : Nat}
    (h : LeavesOne pattern (s.map letter) start) :
    redactLoop letter replacement pattern rounds s
      (findFrom pattern (s.map letter) (some start)) = none := by
  induction rounds generalizing start with
  | zero => rfl
  | succ rounds ih =>
    cases h with
    | last found next =>
      rw [redactLoop_colonless puts hpattern hline colonless found, next, after]
      exact ih odd
    | pair found next later =>
      rw [redactLoop_colonless puts hpattern hline colonless found, next, after]
      exact ih later

end

/-- Behind a colon with no further occurrence the loop comes back to the keyword. -/
theorem redactLoop_of_colon (puts : PutsNotice letter replacement inserted) {pattern : List Char}
    (hpattern : pattern ∈ sensitivePatterns) (rounds : Nat)
    {front keyword between rest : List α} {colon : α} (hkeyword : keyword.map letter = pattern)
    (hbetween : ':' ∉ between.map letter) (hcolon : letter colon = ':')
    (hline : '\n' ∉ (front ++ (keyword ++ (between ++ colon :: rest))).map letter)
    (first : find pattern ((front ++ (keyword ++ (between ++ colon :: rest))).map letter) =
      some front.length)
    (last : find pattern (rest.map letter) = none) :
    redactLoop letter replacement pattern rounds
      (front ++ (keyword ++ (between ++ colon :: rest))) (some front.length) = none := by
  induction rounds generalizing between colon rest with
  | zero => rfl
  | succ rounds ih =>
    obtain ⟨-, -, clashes⟩ := sensitivePatterns_spec pattern hpattern
    have opened : inserted.map letter = ':' :: notice.tail := puts.letters.trans (by decide)
    obtain ⟨colon', tail, rfl, hcolon', htail⟩ := List.map_eq_cons_iff.mp opened
    have start : ∀ later, find pattern ((front ++ (keyword ++ later)).map letter) =
        some front.length := by
      intro later
      have fits : front.length + pattern.length ≤ ((front ++ keyword).map letter).length := by
        rw [← hkeyword, List.length_map, List.length_map, List.length_append]
      rw [← List.append_assoc, List.map_append] at first ⊢
      exact find_append_right (find_of_append first fits) _
    have behind : findFrom pattern ((front ++ (keyword ++ (colon' :: tail ++ rest))).map letter)
        (some (front.length + pattern.length + 12)) = none := by
      have place : front.length + pattern.length + 12 =
          ((front ++ (keyword ++ colon' :: tail)).map letter).length := by
        have notice_length : (colon' :: tail).length = 12 := by
          rw [← List.length_map letter, puts.letters]
          rfl
        rw [← hkeyword, List.length_map, List.length_map, List.length_append, List.length_append,
          notice_length, Nat.add_assoc]
      have whole : front ++ (keyword ++ (colon' :: tail ++ rest)) =
          front ++ (keyword ++ colon' :: tail) ++ rest := by simp
      rw [whole, List.map_append, place, findFrom_append, last, Option.map_none]
    rw [redactLoop, redact_of_colon puts hpattern hkeyword hbetween hcolon hline]
    simp only [behind, after]
    rw [findFrom_zero, start]
    change redactLoop letter replacement pattern rounds
      (front ++ (keyword ++ ([] ++ colon' :: (tail ++ rest)))) (some front.length) = none
    refine ih List.not_mem_nil hcolon' ?_ (start _) ?_
    · have noticed : '\n' ∉ (colon' :: tail).map letter := by
        rw [puts.letters]
        decide
      rw [List.nil_append, ← List.cons_append]
      simp only [List.map_append, List.mem_append, not_or, List.map_cons, List.mem_cons]
        at hline noticed ⊢
      exact ⟨hline.1, hline.2.1, noticed, hline.2.2.2.2⟩
    · rw [List.map_append, htail, clashes.find_append, last, Option.map_none]

/-! ## All loops -/

theorem redactLoop_mono {pattern : List Char} {rounds more : Nat} (hle : rounds ≤ more)
    {s message : List α} {pos : Option Nat}
    (h : redactLoop letter replacement pattern rounds s pos = some message) :
    redactLoop letter replacement pattern more s pos = some message := by
  induction rounds generalizing more s pos with
  | zero => cases h
  | succ rounds ih =>
    obtain ⟨more, rfl⟩ := Nat.exists_eq_add_one_of_ne_zero (Nat.ne_of_gt (Nat.lt_of_lt_of_le
      (Nat.succ_pos rounds) hle))
    cases pos with
    | none => exact h
    | some pos => exact ih (Nat.le_of_succ_le_succ hle) h

theorem redactAll_mono {patterns : List (List Char)} {rounds more : Nat} (hle : rounds ≤ more)
    {s message : List α} (h : redactAll letter replacement rounds patterns s = some message) :
    redactAll letter replacement more patterns s = some message := by
  induction patterns generalizing s with
  | nil => exact h
  | cons pattern patterns ih =>
    obtain ⟨next, hnext, later⟩ := Option.bind_eq_some_iff.mp h
    exact Option.bind_eq_some_iff.mpr ⟨next, redactLoop_mono hle hnext, ih later⟩

theorem redactAll_of_pairsUp (puts : PutsNotice letter replacement inserted) {s : List α}
    (hline : '\n' ∉ s.map letter) {patterns : List (List Char)}
    (hpatterns : ∀ pattern ∈ patterns, pattern ∈ sensitivePatterns)
    (h : ∀ pattern ∈ patterns,
      Colonless pattern (s.map letter) ∧ PairsUp pattern (s.map letter) 0) :
    ∃ rounds, redactAll letter replacement rounds patterns s = some s := by
  induction patterns with
  | nil => exact ⟨0, rfl⟩
  | cons pattern patterns ih =>
    obtain ⟨known, hrest⟩ := List.forall_mem_cons.mp hpatterns
    obtain ⟨⟨colonless, pairs⟩, later⟩ := List.forall_mem_cons.mp h
    obtain ⟨first, hfirst⟩ := redactLoop_of_pairsUp puts known hline colonless pairs
    obtain ⟨rounds, hrounds⟩ := ih hrest later
    rw [findFrom_zero] at hfirst
    exact ⟨max first rounds, Option.bind_eq_some_iff.mpr
      ⟨s, redactLoop_mono (Nat.le_max_left _ _) hfirst,
        redactAll_mono (Nat.le_max_right _ _) hrounds⟩⟩

/-- A message that is made, from a text with nothing behind any keyword's colon, is made
without a replacement. -/
theorem pairsUp_of_redactAll (puts : PutsNotice letter replacement inserted) {s message : List α}
    (hline : '\n' ∉ s.map letter) {rounds : Nat} {patterns : List (List Char)}
    (hpatterns : ∀ pattern ∈ patterns, pattern ∈ sensitivePatterns)
    (last : ∀ pattern ∈ patterns, ∀ keyword colon, pattern <+: (s.map letter).drop keyword →
      findFrom [':'] (s.map letter) (some keyword) = some colon → ¬colon + 1 < s.length)
    (h : redactAll letter replacement rounds patterns s = some message) :
    ∀ pattern ∈ patterns, Colonless pattern (s.map letter) ∧ PairsUp pattern (s.map letter) 0 := by
  induction patterns with
  | nil => exact nofun
  | cons pattern patterns ih =>
    obtain ⟨known, hrest⟩ := List.forall_mem_cons.mp hpatterns
    obtain ⟨lastHere, lastLater⟩ := List.forall_mem_cons.mp last
    obtain ⟨next, hnext, hlater⟩ := Option.bind_eq_some_iff.mp h
    have colonless : Colonless pattern (s.map letter) := by
      intro pos there hcolon
      cases found : find pattern (s.map letter) with
      | none =>
        rw [find_eq_none_iff] at found
        exact found pos (Nat.le_of_lt (place_lt known there)) there
      | some first =>
        have here := prefix_of_find found
        rcases redact_cases puts known hline here with
          ⟨unmarked, -⟩ | ⟨front, keyword, between, colon, rest, rfl, rfl, hkeyword, hbetween, hc, -⟩
        · apply unmarked
          rw [show pos = first + (pos - first) by have := find_le found there; omega,
            ← List.drop_drop] at hcolon
          exact List.mem_of_mem_drop hcolon
        · have nothing : rest = [] := by
            have place := lastHere _ _ here (colon_place known hkeyword hbetween hc)
            simp only [List.length_append, List.length_cons] at place
            exact List.length_eq_zero_iff.mp (by omega)
          subst nothing
          have unfound : find pattern (([] : List α).map letter) = none := by
            rw [find_eq_none_iff]
            exact fun pos _ hpos => absurd (place_lt known hpos) (Nat.not_lt_zero _)
          rw [found, redactLoop_of_colon puts known rounds hkeyword hbetween hc hline found
            unfound] at hnext
          cases hnext
    have pairs : PairsUp pattern (s.map letter) 0 := by
      refine (pairsUp_or_leavesOne known (s.map letter) 0).resolve_right fun odd => ?_
      rw [← findFrom_zero, redactLoop_of_leavesOne puts known hline colonless odd rounds odd]
        at hnext
      cases hnext
    have same : next = s := by
      rw [← findFrom_zero] at hnext
      refine redactLoop_induct (P := (· = s)) ?_ rfl hnext
      rintro _ pos rfl here
      exact redact_colonless puts known hline colonless here
    rw [same] at hlater
    exact List.forall_mem_cons.mpr ⟨⟨colonless, pairs⟩, ih hrest lastLater hlater⟩

end

/-! ## The message -/

theorem mask_printable (c : UInt8) : 32 ≤ (mask c).toNat ∧ (mask c).toNat ≤ 126 := by
  unfold mask
  split
  · rename_i range
    rw [UInt8.le_iff_toNat_le, UInt8.le_iff_toNat_le] at range
    have small : c.toNat.isValidChar := .inl (Nat.lt_of_le_of_lt range.2 (by decide))
    rw [Char.ofNat, dif_pos small]
    exact range
  · decide

theorem line_kept (raw : List UInt8) : '\n' ∉ kept raw := by
  intro h
  obtain ⟨c, -, hc⟩ := List.mem_map.mp h
  have printable := mask_printable c
  rw [hc] at printable
  exact absurd printable (by decide)

theorem tracedKept_letters (raw : List UInt8) :
    (tracedKept raw).map Traced.letter = kept raw := by
  rw [tracedKept, kept]
  apply List.ext_getElem <;> simp

theorem sanitizeErrorMessage_eq (rounds : Nat) (raw : List UInt8) :
    sanitizeErrorMessage rounds raw =
      (traceErrorMessage rounds raw).map (List.map Traced.letter) := by
  have fits : ¬(kept raw).length > 200 := by
    rw [kept, List.length_map, List.length_take]
    omega
  unfold sanitizeErrorMessage traceErrorMessage
  split
  · rfl
  · simp only [if_neg fits]
    rw [redactAll_letters putsNotice_traced, tracedKept_letters]

theorem keywordColon_of_take {text : List Char} {n keyword colon : Nat}
    (h : KeywordColon (text.take n) keyword colon) : KeywordColon text keyword colon := by
  obtain ⟨pattern, hpattern, here, place⟩ := h
  refine ⟨pattern, hpattern, ?_, ?_⟩
  · rw [List.drop_take] at here
    exact here.trans (List.take_prefix _ _)
  · have whole := findFrom_append_right place (text.drop n)
    rwa [List.take_append_drop] at whole

theorem keywordColon_take {text : List Char} {n keyword colon : Nat}
    (h : KeywordColon text keyword colon) (inside : colon < n) :
    KeywordColon (text.take n) keyword colon := by
  obtain ⟨pattern, hpattern, here, place⟩ := h
  obtain ⟨order, there⟩ := of_findFrom place
  have behind : keyword + pattern.length ≤ colon := by
    by_contra within
    obtain ⟨later, hlater⟩ := here
    rw [show colon = keyword + (colon - keyword) by omega, ← List.drop_drop, ← hlater,
      List.drop_append_of_le_length (by omega)] at there
    have remains : pattern.drop (colon - keyword) ≠ [] := by
      rw [ne_eq, List.drop_eq_nil_iff]
      omega
    obtain ⟨c, more, hmore⟩ := List.exists_cons_of_ne_nil remains
    rw [hmore, List.cons_append, List.cons_prefix_cons] at there
    apply (sensitivePatterns_spec pattern hpattern).2.1
    apply List.mem_of_mem_drop (i := colon - keyword)
    rw [hmore, there.1]
    exact List.mem_cons_self
  have bound : colon < text.length := by
    by_contra outside
    rw [List.drop_eq_nil_of_le (by omega)] at there
    cases List.prefix_nil.mp there
  refine ⟨pattern, hpattern, ?_, ?_⟩
  · rw [List.drop_take, List.prefix_take_iff]
    exact ⟨here, by omega⟩
  · rw [← List.take_append_drop n text] at place
    apply findFrom_of_append place
    rw [List.length_take, List.length_singleton]
    omega

/-- What stands behind a keyword's colon in the text that is kept is in the message. -/
theorem mem_of_keywordColon {raw : List UInt8} {rounds : Nat} {message : List Traced}
    (h : redactAll Traced.letter (fun _ keyword => keyword ++ notice.map .fresh) rounds
      sensitivePatterns (tracedKept raw) = some message)
    {keyword colon : Nat} (hcolon : KeywordColon (kept raw) keyword colon)
    (more : colon + 1 < (tracedKept raw).length) :
    (tracedKept raw)[colon + 1] ∈ message := by
  obtain ⟨pattern, -, -, place⟩ := hcolon
  have there := (of_findFrom place).2
  have guarded : Guarded (((tracedKept raw).take (colon + 1)).map Traced.letter) := by
    obtain ⟨later, hlater⟩ := there
    rw [List.map_take, tracedKept_letters, List.take_add, ← hlater]
    exact guarded_append_colon _
  have start : ∃ before behind,
      tracedKept raw = before ++ (tracedKept raw)[colon + 1] :: behind ∧
        Guarded (before.map Traced.letter) := by
    refine ⟨_, (tracedKept raw).drop (colon + 2), ?_, guarded⟩
    rw [← List.drop_eq_getElem_cons more, List.take_append_drop]
  have kept : '\n' ∉ message.map Traced.letter ∧
      ∃ before behind, message = before ++ (tracedKept raw)[colon + 1] :: behind ∧
        Guarded (before.map Traced.letter) := by
    refine redactAll_induct
      (P := fun s => '\n' ∉ s.map Traced.letter ∧
        ∃ before behind, s = before ++ (tracedKept raw)[colon + 1] :: behind ∧
          Guarded (before.map Traced.letter))
      ?_ ⟨by rw [tracedKept_letters]; exact line_kept raw, start⟩ h
    rintro pattern hpattern s pos ⟨hline, hs⟩ here
    exact ⟨redact_line putsNotice_traced hpattern hline here,
      redact_keeps putsNotice_traced hpattern hline here hs⟩
  obtain ⟨-, before, behind, hmessage, -⟩ := kept
  rw [hmessage]
  simp

theorem nothing_kept : (¬∃ keyword colon, KeywordColon (kept []) keyword colon) ∧
    ∀ pattern ∈ sensitivePatterns, PairsUp pattern (kept []) 0 := by
  refine ⟨?_, fun pattern hpattern => .none ?_⟩
  · rintro ⟨keyword, colon, pattern, hpattern, here, -⟩
    exact absurd (place_lt hpattern here) (Nat.not_lt_zero _)
  · rw [findFrom_zero, find_eq_none_iff]
    exact fun pos _ here => absurd (place_lt hpattern here) (Nat.not_lt_zero _)

theorem of_redacts {raw : List UInt8} {values : ValueRule raw} {extra : Nat}
    (h : Redacts raw values extra) :
    (¬∃ keyword colon, KeywordColon (kept raw) keyword colon) ∧
      ∀ pattern ∈ sensitivePatterns, PairsUp pattern (kept raw) 0 := by
  obtain ⟨rounds, message, htrace, -, -, -, hvalues⟩ := h
  by_cases empty : raw.isEmpty
  · obtain rfl := List.isEmpty_iff.mp empty
    exact nothing_kept
  rw [traceErrorMessage, if_neg empty] at htrace
  have last : ∀ pattern ∈ sensitivePatterns, ∀ keyword colon,
      pattern <+: ((tracedKept raw).map Traced.letter).drop keyword →
        findFrom [':'] ((tracedKept raw).map Traced.letter) (some keyword) = some colon →
          ¬colon + 1 < (tracedKept raw).length := by
    intro pattern hpattern keyword colon here place more
    rw [tracedKept_letters] at here place
    have marked : KeywordColon (kept raw) keyword colon := ⟨pattern, hpattern, here, place⟩
    have inside : colon + 1 < raw.length := by
      rw [tracedKept, List.length_mapIdx, List.length_take] at more
      omega
    have whole : KeywordColon (raw.map mask) keyword colon := by
      rw [kept, List.map_take] at marked
      exact keywordColon_of_take marked
    refine hvalues keyword colon whole _ (mem_of_keywordColon htrace marked more) (colon + 1) ?_
      ⟨Nat.lt_succ_self _, values.begins keyword colon inside⟩
    simp [tracedKept]
  have pairs := pairsUp_of_redactAll putsNotice_traced
    (by rw [tracedKept_letters]; exact line_kept raw) (fun _ h => h) last htrace
  rw [tracedKept_letters] at pairs
  refine ⟨?_, fun pattern hpattern => (pairs pattern hpattern).2⟩
  rintro ⟨keyword, colon, pattern, hpattern, here, place⟩
  obtain ⟨order, there⟩ := of_findFrom place
  apply (pairs pattern hpattern).1 keyword here
  rw [show colon = keyword + (colon - keyword) by omega, ← List.drop_drop] at there
  exact List.mem_of_mem_drop (there.subset List.mem_cons_self)

theorem redacts_of {raw : List UInt8} (values : ValueRule raw) (extra : Nat)
    (noValue : ¬∃ keyword colon, KeywordColon (kept raw) keyword colon)
    (pairs : ∀ pattern ∈ sensitivePatterns, PairsUp pattern (kept raw) 0) :
    Redacts raw values extra := by
  by_cases empty : raw.isEmpty
  · refine ⟨0, "An internal error occurred".toList.map .fresh, ?_, ?_, by decide, ?_, ?_⟩
    · rw [traceErrorMessage, if_pos empty]
    · rw [sanitizeErrorMessage, if_pos empty]
      rfl
    · exact Nat.le_trans (by decide : _ ≤ 200) (Nat.le_add_right _ _)
    · intro keyword colon _ c hc i hi
      obtain ⟨letter, -, rfl⟩ := List.mem_map.mp hc
      cases hi
  · have colonless : ∀ pattern ∈ sensitivePatterns,
        Colonless pattern ((tracedKept raw).map Traced.letter) ∧
          PairsUp pattern ((tracedKept raw).map Traced.letter) 0 := by
      intro pattern hpattern
      rw [tracedKept_letters]
      refine ⟨fun pos here hcolon => noValue ?_, pairs pattern hpattern⟩
      cases place : findFrom [':'] (kept raw) (some pos) with
      | some colon => exact ⟨pos, colon, pattern, hpattern, here, place⟩
      | none =>
        rw [findFrom, if_neg (Nat.not_lt.mpr (Nat.le_of_lt (place_lt hpattern here))),
          Option.map_eq_none_iff, find_mark_eq_none] at place
        exact absurd hcolon place
    obtain ⟨rounds, hrounds⟩ := redactAll_of_pairsUp putsNotice_traced
      (by rw [tracedKept_letters]; exact line_kept raw) (fun _ h => h) colonless
    have htrace : traceErrorMessage rounds raw = some (tracedKept raw) := by
      rw [traceErrorMessage, if_neg empty, hrounds]
    refine ⟨rounds, tracedKept raw, htrace, ?_, ?_, ?_, ?_⟩
    · rw [sanitizeErrorMessage_eq, htrace, Option.map_some]
    · intro c hc
      obtain ⟨i, hi, rfl⟩ := List.mem_mapIdx.mp hc
      exact mask_printable _
    · rw [tracedKept, List.length_mapIdx, List.length_take]
      omega
    · rintro keyword colon marked c hc i hi ⟨behind, -⟩
      obtain ⟨j, hj, rfl⟩ := List.mem_mapIdx.mp hc
      cases hi
      rw [List.length_take] at hj
      apply noValue
      refine ⟨keyword, colon, ?_⟩
      rw [kept, List.map_take]
      exact keywordColon_take marked (by omega)

/-- **When an error message is made and redacted.** However far values go, and however much
longer a message may be than what is kept of the text: exactly when no keyword kept has a
colon behind it, and the occurrences that the loop of each keyword comes to are even in
number. The message then is the text that is kept. -/
theorem redacts_iff (raw : List UInt8) (values : ValueRule raw) (extra : Nat) :
    Redacts raw values extra ↔
      (¬∃ keyword colon, KeywordColon (kept raw) keyword colon) ∧
        ∀ pattern ∈ sensitivePatterns, PairsUp pattern (kept raw) 0 :=
  ⟨of_redacts, fun ⟨noValue, pairs⟩ => redacts_of values extra noValue pairs⟩

/-- No message ever comes of a password, and what follows a token stays in the message
where another one is named. -/
theorem not_redacts_samples :
    (∀ rounds, sanitizeErrorMessage rounds (Cpp.literal "password: hunter2") = none) ∧
    (∀ values extra, ¬Redacts (Cpp.literal "password: hunter2") values extra) ∧
    sanitizeErrorMessage 3 (Cpp.literal "token: abc token") =
      some "token: <redacted> abc token".toList ∧
    ∀ values extra, ¬Redacts (Cpp.literal "token: abc token") values extra := by
  refine ⟨?_, ?_, ?_, ?_⟩
  · intro rounds
    have text : kept (Cpp.literal "password: hunter2") =
        [] ++ ("password".toList ++ ([] ++ ':' :: " hunter2".toList)) := by decide
    have found : find "password".toList (kept (Cpp.literal "password: hunter2")) = some 0 := by
      decide
    have never : redactLoop id (fun pattern _ => pattern ++ notice) "password".toList rounds
        (kept (Cpp.literal "password: hunter2")) (some 0) = none := by
      rw [text]
      exact redactLoop_of_colon putsNotice_plain (by decide) rounds (List.map_id _)
        List.not_mem_nil rfl (by decide) (by decide) (by decide)
    rw [sanitizeErrorMessage, if_neg (by decide)]
    simp only
    rw [if_neg (by decide), sensitivePatterns, redactAll, List.map_id, found, never]
    rfl
  · intro values extra h
    refine (of_redacts h).1 ⟨0, 8, "password".toList, ?_⟩
    decide
  · decide
  · intro values extra h
    refine (of_redacts h).1 ⟨0, 5, "token".toList, ?_⟩
    decide

end MidnightSdk.MonitoringFinality.ErrorMessages
