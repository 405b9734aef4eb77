import ScriptLexer.Proofs.Offsets

set_option autoImplicit false

/-! # What is suggested for a word

Completion goes through all known words and keeps those that start with the word before the cursor
(`map_word_candidatesIn`). A hint looks for the first known word that is longer than that, and cuts off
what is typed already. Said with byte offsets these are two searches (`candidatesByOffsets`,
`longerByOffsets`), and a hint is the first of the candidates from which something is missing
(`longerByOffsets_eq`). So whatever a hint shows, completion offers.
Main statement: `complete_and_hint`. -/

namespace ScriptLexer

/-! ## By offsets -/

/-- The words that start with what is typed, each cut where that ends. -/
def candidatesByOffsets (typed : Text) (words : List Text) : Except BadOffset (List Candidate) :=
  (words.filter (typed.isPrefixOf ·)).mapM fun word => do
    let (_, missing) ← cutAt word (byteLength typed)
    return ⟨word, missing⟩

/-- What is missing of the first word that starts with what is typed and has more bytes. -/
def longerByOffsets (typed : Text) (words : List Text) : Except BadOffset (Option Text) :=
  match words.find? fun word => typed.isPrefixOf word && byteLength typed < byteLength word with
  | none => return none
  | some word => do
    let (_, missing) ← cutAt word (byteLength typed)
    return some missing

/-- Completion of the slice between the start of the word and the cursor. -/
def completeByOffsets (line : Text) (cursor : Nat) : Except BadOffset Completion := do
  let start ← wordStart line cursor
  let typed ← sliceAt line start cursor
  if typed.isEmpty then return ⟨cursor, []⟩
  else do
    let found ← candidatesByOffsets typed completionWords
    return ⟨cursor, found⟩

/-- A hint for the slice from the start of the word on. -/
def hintByOffsets (line : Text) (cursor : Nat) : Except BadOffset (Option Segment) :=
  if cursor < byteLength line then return none
  else do
    let start ← wordStart line cursor
    let (_, typed) ← cutAt line start
    if byteLength typed < 2 then return none
    else do
      let missing? ← longerByOffsets typed completionWords
      return missing?.map .dimmed

/-! ## Known words -/

section Words

variable {typed : Text}

/-- The candidates among the given words. -/
def candidatesIn (typed : Text) (words : List Text) : List Candidate :=
  words.filterMap fun word => (typed.isPrefixOf? word).map (⟨word, ·⟩)

theorem candidates_eq (typed : Text) : candidates typed = candidatesIn typed completionWords := rfl

theorem candidatesIn_cons (typed word : Text) (words : List Text) :
    candidatesIn typed (word :: words) =
      match typed.isPrefixOf? word with
      | some missing => ⟨word, missing⟩ :: candidatesIn typed words
      | none => candidatesIn typed words := by
  rw [candidatesIn, List.filterMap_cons]
  cases typed.isPrefixOf? word <;> rfl

/-- A candidate is what is typed and what is missing. -/
theorem append_missing {words : List Text} {candidate : Candidate}
    (h : candidate ∈ candidatesIn typed words) : typed ++ candidate.missing = candidate.word := by
  obtain ⟨word, -, hmissing⟩ := List.mem_filterMap.1 h
  obtain ⟨missing, hprefix, rfl⟩ := Option.map_eq_some_iff.1 hmissing
  exact List.isPrefixOf?_eq_some_iff_append_eq.1 hprefix

/-- Each word that starts with what is typed is a candidate, in the order of the words. -/
theorem map_word_candidatesIn (typed : Text) (words : List Text) :
    (candidatesIn typed words).map Candidate.word = words.filter (typed.isPrefixOf ·) := by
  induction words with
  | nil => rfl
  | cons word words ih =>
    rw [candidatesIn_cons, List.filter_cons, ← List.isSome_isPrefixOf?_eq_isPrefixOf]
    cases typed.isPrefixOf? word with
    | none => simpa using ih
    | some missing => simpa using ih

theorem cutAt_of_isPrefixOf? {word missing : Text} (h : typed.isPrefixOf? word = some missing) :
    cutAt word (byteLength typed) = .ok (typed, missing) := by
  rw [← List.isPrefixOf?_eq_some_iff_append_eq.1 h, cutAt_append]

/-- A word that starts with what is typed is longer if something is missing. -/
theorem byteLength_lt_iff {word missing : Text} (h : typed.isPrefixOf? word = some missing) :
    byteLength typed < byteLength word ↔ missing ≠ [] := by
  rw [← List.isPrefixOf?_eq_some_iff_append_eq.1 h, byteLength_append]
  constructor
  · rintro hlt rfl
    exact absurd hlt (by simp)
  · intro hmissing
    have hpos := byteLength_pos hmissing
    omega

theorem candidatesByOffsets_eq (typed : Text) (words : List Text) :
    candidatesByOffsets typed words = .ok (candidatesIn typed words) := by
  induction words with
  | nil => rfl
  | cons word words ih =>
    rw [candidatesByOffsets] at ih
    rw [candidatesByOffsets, candidatesIn_cons, List.filter_cons,
      ← List.isSome_isPrefixOf?_eq_isPrefixOf]
    cases hprefix : typed.isPrefixOf? word with
    | none => simpa using ih
    | some missing =>
      simp only [Option.isSome_some, if_true, List.mapM_cons, ih, cutAt_of_isPrefixOf? hprefix]
      rfl

/-- The first longer word is the first candidate from which something is missing. -/
theorem longerByOffsets_eq (typed : Text) (words : List Text) :
    longerByOffsets typed words =
      .ok (((candidatesIn typed words).find? fun candidate => !candidate.missing.isEmpty).map
        Candidate.missing) := by
  induction words with
  | nil => rfl
  | cons word words ih =>
    rw [longerByOffsets] at ih
    rw [longerByOffsets, candidatesIn_cons, List.find?_cons,
      ← List.isSome_isPrefixOf?_eq_isPrefixOf]
    cases hprefix : typed.isPrefixOf? word with
    | none => simpa using ih
    | some missing =>
      by_cases hmissing : missing = []
      · have hshort : ¬ byteLength typed < byteLength word := by
          rw [byteLength_lt_iff hprefix]
          exact not_not_intro hmissing
        simpa [hshort, hmissing] using ih
      · have hlong := (byteLength_lt_iff hprefix).2 hmissing
        have hfirst : ((⟨word, missing⟩ :: candidatesIn typed words).find? fun candidate =>
            !candidate.missing.isEmpty) = some ⟨word, missing⟩ :=
          List.find?_cons_of_pos (by simpa using hmissing)
        simp only [Option.isSome_some, hlong, decide_true, Bool.and_self, hfirst,
          cutAt_of_isPrefixOf? hprefix]
        rfl

end Words

/-! ## The searches of a line -/

theorem completeByOffsets_eq (line : Text) (cursor : Nat) :
    completeByOffsets line cursor = complete line cursor := by
  rw [completeByOffsets, complete]
  cases wordStart line cursor with
  | error offset => rfl
  | ok start =>
    show (sliceAt line start cursor >>= _) = (cutAt line cursor >>= _)
    rw [sliceAt]
    cases cutAt line cursor with
    | error offset => rfl
    | ok parts =>
      show ((cutAt parts.1 start >>= _) >>= _) = (cutAt parts.1 start >>= _)
      cases cutAt parts.1 start with
      | error offset => rfl
      | ok slices =>
        show (if slices.2.isEmpty then _ else _) = Except.ok _
        rw [candidatesByOffsets_eq, candidates_eq]
        split <;> rfl

theorem hintByOffsets_eq (line : Text) (cursor : Nat) :
    hintByOffsets line cursor = hint line cursor := by
  rw [hintByOffsets, hint]
  split
  · rfl
  cases wordStart line cursor with
  | error offset => rfl
  | ok start =>
    show (cutAt line start >>= _) = (cutAt line start >>= _)
    cases cutAt line start with
    | error offset => rfl
    | ok parts =>
      show (if byteLength parts.2 < 2 then _ else _) = if byteLength parts.2 < 2 then _ else _
      rw [longerByOffsets_eq, candidates_eq]
      split
      · rfl
      · show Except.ok _ = Except.ok _
        rw [Option.map_map]
        rfl

/-! ## What is suggested -/

/-- The candidates for a word: every known word that starts with it, and nothing for the empty word. -/
structure Completes (word : Text) (found : List Candidate) : Prop where
  empty : word = [] → found = []
  words : word ≠ [] → found.map Candidate.word = completionWords.filter (word.isPrefixOf ·)
  missing : ∀ candidate ∈ found, word ++ candidate.missing = candidate.word

/-- The hint that goes with the candidates for a word: what is missing of the first from which
    something is missing, for a word of two bytes or more. -/
structure Hints (word : Text) (found : List Candidate) (shown : Option Segment) : Prop where
  isSome_iff : shown.isSome = true ↔
    2 ≤ byteLength word ∧ ∃ candidate ∈ found, candidate.missing ≠ []
  first : ∀ segment, shown = some segment → ∃ done candidate later,
    found = done ++ candidate :: later ∧ (∀ other ∈ done, other.missing = []) ∧
      candidate.missing ≠ [] ∧ segment = .dimmed candidate.missing

theorem completes_candidates (word : Text) :
    Completes word (if word.isEmpty then [] else candidates word) where
  empty := by
    rintro rfl
    rfl
  words := by
    intro hword
    rw [if_neg (by simpa using hword)]
    exact map_word_candidatesIn word completionWords
  missing := by
    intro candidate hcandidate
    split at hcandidate
    · simp at hcandidate
    · exact append_missing hcandidate

/-- What is shown for a word, found among its candidates. -/
theorem hints_candidates (word : Text) (found : List Candidate) :
    Hints word found (if byteLength word < 2 then none
      else (found.find? fun candidate => !candidate.missing.isEmpty).map
        fun candidate => .dimmed candidate.missing) where
  isSome_iff := by
    by_cases hshort : byteLength word < 2
    · simp [hshort]
    · have hlong : 2 ≤ byteLength word := Nat.le_of_not_lt hshort
      simp [hshort, hlong]
  first := by
    intro segment hsegment
    split at hsegment
    · cases hsegment
    · obtain ⟨candidate, hfind, rfl⟩ := Option.map_eq_some_iff.1 hsegment
      obtain ⟨hmissing, done, later, rfl, hdone⟩ := List.find?_eq_some_iff_append.1 hfind
      refine ⟨done, candidate, later, rfl, ?_, by simpa using hmissing, rfl⟩
      intro other hother
      simpa using hdone other hother

/-- Only at a place between two characters is there a word before the cursor. -/
theorem exists_of_complete {line : Text} {cursor : Nat} {completion : Completion}
    (h : complete line cursor = .ok completion) :
    ∃ before after, line = before ++ after ∧ byteLength before = cursor := by
  cases hcut : splitAtByte? line cursor with
  | none =>
    rw [complete, wordStart, cutAt, hcut] at h
    cases h
  | some parts => exact ⟨parts.1, parts.2, splitAtByte?_eq_some hcut⟩

/-- A text ends in one word only. -/
theorem EndsInWord.unique {text earlier word earlier' word' : Text}
    (h : EndsInWord text earlier word) (h' : EndsInWord text earlier' word') :
    earlier = earlier' ∧ word = word' := by
  have hearlier : earlier = earlier' := by
    rw [← List.reverse_inj, ← h.dropWhile_reverse, ← h'.dropWhile_reverse]
  have hboth : earlier ++ word = earlier ++ word' := by
    rw [← h.split, hearlier, ← h'.split]
  exact ⟨hearlier, List.append_cancel_left hboth⟩

/-- **Suggestions.** Wherever completion has a result, it offers to put in at the cursor what is missing
    of every known word that starts with the word before the cursor, in order, and nothing for an
    empty word. Wherever a hint has a result, completion has one at the end of the line, and what is
    shown is the first missing part on offer that is not empty, if the word has two bytes or more;
    before the end of the line nothing is shown. Searching by byte offsets finds the same. -/
theorem complete_and_hint (line : Text) :
    (∀ cursor completion, complete line cursor = .ok completion →
      completion.place = cursor ∧ ∃ before after earlier word, line = before ++ after ∧
        byteLength before = cursor ∧ EndsInWord before earlier word ∧
        Completes word completion.candidates) ∧
    (∀ shown, hint line (byteLength line) = .ok shown → ∃ earlier word completion,
      EndsInWord line earlier word ∧ complete line (byteLength line) = .ok completion ∧
        Hints word completion.candidates shown) ∧
    (∀ cursor < byteLength line, hint line cursor = .ok none) ∧
    (∀ cursor, completeByOffsets line cursor = complete line cursor ∧
      hintByOffsets line cursor = hint line cursor) ∧
    completionWords = ["and", "class", "else", "false", "for", "fun", "if", "nil", "or", "print",
      "return", "super", "this", "true", "var", "while", ".help", ".exit", ".clear", ".version",
      ".load"].map String.toList := by
  refine ⟨?_, ?_, ?_, fun cursor => ⟨completeByOffsets_eq line cursor, hintByOffsets_eq line cursor⟩,
    rfl⟩
  · intro cursor completion h
    obtain ⟨before, after, rfl, rfl⟩ := exists_of_complete h
    obtain ⟨earlier, word, hword⟩ := exists_endsInWord before
    by_cases hbyte : EndsInOneByte earlier
    · rw [hword.complete_of_oneByte after hbyte] at h
      obtain rfl := Except.ok.inj h
      exact ⟨rfl, before, after, earlier, word, rfl, rfl, hword, completes_candidates word⟩
    · obtain ⟨rest, c, rfl, hc⟩ := exists_of_not_endsInOneByte hbyte
      rw [hword.complete_concat after hc] at h
      cases h
  · intro shown h
    obtain ⟨earlier, word, hword⟩ := exists_endsInWord line
    by_cases hbyte : EndsInOneByte earlier
    · have hcomplete := hword.complete_of_oneByte [] hbyte
      rw [List.append_nil] at hcomplete
      rw [hword.hint_of_oneByte hbyte] at h
      obtain rfl := Except.ok.inj h
      refine ⟨earlier, word, _, hword, hcomplete, ?_⟩
      by_cases hempty : word = []
      · subst hempty
        exact hints_candidates [] []
      · rw [if_neg (by simpa using hempty)]
        exact hints_candidates word (candidates word)
    · obtain ⟨rest, c, rfl, hc⟩ := exists_of_not_endsInOneByte hbyte
      rw [hword.hint_concat hc] at h
      cases h
  · intro cursor hcursor
    rw [hint, if_pos hcursor]
    rfl

/-- A word behind a bracket. -/
theorem complete_and_hint_fun :
    EndsInWord ['(', 'f', 'u'] ['('] ['f', 'u'] ∧
      complete ['(', 'f', 'u'] 3 = .ok ⟨3, [⟨['f', 'u', 'n'], ['n']⟩]⟩ ∧
      Completes ['f', 'u'] [⟨['f', 'u', 'n'], ['n']⟩] ∧
      hint ['(', 'f', 'u'] 3 = .ok (some (.dimmed ['n'])) ∧
      Hints ['f', 'u'] [⟨['f', 'u', 'n'], ['n']⟩] (some (.dimmed ['n'])) ∧
      hint ['(', 'f', 'u'] 2 = .ok none := by
  have hword : EndsInWord ['(', 'f', 'u'] ['('] ['f', 'u'] :=
    { split := rfl
      inside := by
        intro c hc
        rw [IsNameChar]
        rcases List.mem_pair.1 hc with rfl | rfl <;> decide
      stop := by
        intro c hc
        obtain rfl : '(' = c := Option.some.inj hc
        rw [IsNameChar]
        decide }
  have hcomplete : complete ['(', 'f', 'u'] 3 = .ok ⟨3, [⟨['f', 'u', 'n'], ['n']⟩]⟩ := rfl
  have hhint : hint ['(', 'f', 'u'] 3 = .ok (some (.dimmed ['n'])) := rfl
  obtain ⟨hcompletes, hhints, hbefore, -⟩ := complete_and_hint ['(', 'f', 'u']
  have hfound : Completes ['f', 'u'] [⟨['f', 'u', 'n'], ['n']⟩] := by
    obtain ⟨-, before, after, earlier, word, hline, hlength, hends, hfound⟩ :=
      hcompletes 3 _ hcomplete
    obtain ⟨rfl, rfl⟩ : before = ['(', 'f', 'u'] ∧ after = [] := by
      have hsplit := splitAtByte?_append before after
      rw [← hline, hlength] at hsplit
      exact (Prod.ext_iff.1 (Option.some.inj hsplit)).imp Eq.symm Eq.symm
    rwa [(hends.unique hword).2] at hfound
  have hshown : Hints ['f', 'u'] [⟨['f', 'u', 'n'], ['n']⟩] (some (.dimmed ['n'])) := by
    obtain ⟨earlier, word, completion, hends, hagain, hshown⟩ := hhints _ hhint
    obtain rfl := Except.ok.inj (hcomplete.symm.trans hagain)
    rwa [(hends.unique hword).2] at hshown
  exact ⟨hword, hcomplete, hfound, hhint, hshown, hbefore 2 (by decide)⟩

end ScriptLexer
