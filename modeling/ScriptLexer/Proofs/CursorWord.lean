import ScriptLexer.Prompt.Completion
import ScriptLexer.Proofs.Tiling

set_option autoImplicit false

/-! # The word before the cursor

The word that is completed is the longest stretch of word characters before the cursor (`EndsInWord`).
Its start is taken to be one byte after the start of the character before it. That is so where this
character has one byte (`EndsInOneByte`); where it has more, the place lies inside it, and a line
cannot be cut there. So completion fails behind such a character, and a hint fails at the end of the
line. Main statement: `wordStart_iff_oneByte`. -/

namespace ScriptLexer

/-! ## Offsets between characters -/

/-- No cut is made inside a character. -/
theorem splitAtByte?_inside {before after : Text} {c : Char} {bytes : Nat} (hpos : 0 < bytes)
    (hlt : bytes < c.utf8Size) :
    splitAtByte? (before ++ c :: after) (byteLength before + bytes) = none := by
  induction before with
  | nil =>
    rw [List.nil_append, byteLength_nil, Nat.zero_add, splitAtByte?, if_neg (by omega),
      if_neg (by omega)]
  | cons d before ih =>
    have := Char.utf8Size_pos d
    rw [List.cons_append, byteLength_cons, splitAtByte?, if_neg (by omega), if_pos (by omega),
      show d.utf8Size + byteLength before + bytes - d.utf8Size = byteLength before + bytes by omega,
      ih, Option.map_none]

theorem isBoundary_iff {text : Text} {offset : Nat} :
    IsBoundary text offset ↔ ∃ parts, splitAtByte? text offset = some parts := by
  constructor
  · rintro ⟨before, after, rfl, rfl⟩
    exact ⟨_, splitAtByte?_append before after⟩
  · rintro ⟨⟨before, after⟩, hsplit⟩
    exact ⟨before, after, splitAtByte?_eq_some hsplit⟩

theorem not_isBoundary_inside (before : Text) {after : Text} {c : Char} (h : 1 < c.utf8Size) :
    ¬ IsBoundary (before ++ c :: after) (byteLength before + 1) := by
  rw [isBoundary_iff, splitAtByte?_inside Nat.one_pos h]
  simp

theorem cutAt_append (before after : Text) :
    cutAt (before ++ after) (byteLength before) = .ok (before, after) := by
  rw [cutAt, splitAtByte?_append]

theorem byteLength_reverse (text : Text) : byteLength text.reverse = byteLength text := by
  induction text with
  | nil => rfl
  | cons c text ih => simp [ih, Nat.add_comm]

/-! ## Words -/

/-- The characters of the words that are completed. -/
def IsNameChar (c : Char) : Prop :=
  IsLetter c ∨ IsDigit c ∨ c = '.'

/-- A text ends in a word that cannot be longer. -/
structure EndsInWord (text earlier word : Text) : Prop where
  split : text = earlier ++ word
  inside : ∀ c ∈ word, IsNameChar c
  stop : ∀ c ∈ earlier.getLast?, ¬ IsNameChar c

/-- The last character of a text, if there is one, has one byte. -/
def EndsInOneByte (text : Text) : Prop :=
  ∀ c ∈ text.getLast?, c.utf8Size = 1

theorem isCompletionChar_iff {c : Char} : isCompletionChar c = true ↔ IsNameChar c := by
  have hletter : isCompletionChar c = (isWordStart c || c.isDigit || c == '.') := by
    rw [isCompletionChar, isWordStart, Char.isAlphanum]
    cases c.isAlpha <;> cases c.isDigit <;> cases c == '_' <;> rfl
  rw [hletter, Bool.or_eq_true, Bool.or_eq_true, isWordStart_iff, isDigit_iff, beq_iff_eq, or_assoc,
    IsNameChar]

/-- What comes before the word, read from the cursor backwards. -/
theorem EndsInWord.dropWhile_reverse {text earlier word : Text} (h : EndsInWord text earlier word) :
    text.reverse.dropWhile isCompletionChar = earlier.reverse := by
  have hin : ∀ c ∈ word.reverse, isCompletionChar c = true := by
    intro c hc
    exact isCompletionChar_iff.2 (h.inside c (List.mem_reverse.1 hc))
  have hstop : ∀ c ∈ earlier.reverse.head?, isCompletionChar c = false := by
    intro c hc
    rw [List.head?_reverse] at hc
    rw [← Bool.not_eq_true, isCompletionChar_iff]
    exact h.stop c hc
  rw [h.split, List.reverse_append, dropWhile_append_of_stop hin hstop]

/-- Every text ends in a word, which may be empty. -/
theorem exists_endsInWord (text : Text) : ∃ earlier word, EndsInWord text earlier word := by
  refine ⟨(text.reverse.dropWhile isCompletionChar).reverse,
    (text.reverse.takeWhile isCompletionChar).reverse, ?_, ?_, ?_⟩
  · rw [← List.reverse_append, List.takeWhile_append_dropWhile, List.reverse_reverse]
  · intro c hc
    exact isCompletionChar_iff.1 (List.mem_takeWhile_imp (List.mem_reverse.1 hc))
  · intro c hc
    rw [List.getLast?_reverse] at hc
    have hstop := head?_dropWhile_eq_false _ _ c hc
    rwa [← Bool.not_eq_true, isCompletionChar_iff] at hstop

/-- A text that does not end in a character of one byte ends in a longer one. -/
theorem exists_of_not_endsInOneByte {text : Text} (h : ¬ EndsInOneByte text) :
    ∃ earlier c, text = earlier ++ [c] ∧ 1 < c.utf8Size := by
  rcases List.eq_nil_or_concat' text with rfl | ⟨earlier, c, rfl⟩
  · exact absurd (by simp [EndsInOneByte]) h
  · have hpos := Char.utf8Size_pos c
    have hne : c.utf8Size ≠ 1 := by
      simpa [EndsInOneByte] using h
    exact ⟨earlier, c, rfl, by omega⟩

/-! ## What completion and hints do -/

section Cursor

variable {before earlier word : Text} {c : Char} {start : Nat} (after : Text)

/-- The place of the word is reckoned from the character before it. -/
theorem EndsInWord.wordStart_eq (h : EndsInWord before earlier word) :
    wordStart (before ++ after) (byteLength before) =
      match earlier.reverse with
      | [] => .ok 0
      | _ :: rest => .ok (byteLength rest + 1) := by
  rw [wordStart, cutAt_append]
  show (match before.reverse.dropWhile isCompletionChar with
    | [] => pure 0
    | _ :: rest => pure (byteLength rest + 1)) = _
  rw [h.dropWhile_reverse]
  rfl

theorem complete_of_wordStart (h : wordStart (before ++ after) (byteLength before) = .ok start) :
    complete (before ++ after) (byteLength before) = (cutAt before start).map fun parts =>
      ⟨byteLength before, if parts.2.isEmpty then [] else candidates parts.2⟩ := by
  rw [complete, h, cutAt_append]
  show (cutAt before start >>= _) = _
  cases cutAt before start <;> rfl

theorem hint_of_wordStart (h : wordStart before (byteLength before) = .ok start) :
    hint before (byteLength before) = (cutAt before start).map fun parts =>
      if byteLength parts.2 < 2 then none
      else ((candidates parts.2).find? fun candidate => !candidate.missing.isEmpty).map
        fun candidate => .dimmed candidate.missing := by
  rw [hint, if_neg (Nat.lt_irrefl _), h]
  show (cutAt before start >>= _) = _
  cases cutAt before start with
  | error _ => rfl
  | ok parts =>
    show (if byteLength parts.2 < 2 then _ else _) = Except.ok (if byteLength parts.2 < 2 then _ else _)
    split <;> rfl

/-! ### Behind a character of one byte -/

theorem EndsInWord.wordStart_of_oneByte (h : EndsInWord before earlier word)
    (hbyte : EndsInOneByte earlier) :
    wordStart (before ++ after) (byteLength before) = .ok (byteLength earlier) := by
  rw [h.wordStart_eq]
  rcases List.eq_nil_or_concat' earlier with rfl | ⟨rest, c, rfl⟩
  · rfl
  · have hc : c.utf8Size = 1 := hbyte c (by simp)
    simp [byteLength_reverse, hc]

theorem EndsInWord.cutAt_start (h : EndsInWord before earlier word) :
    cutAt before (byteLength earlier) = .ok (earlier, word) := by
  rw [h.split, cutAt_append]

theorem EndsInWord.complete_of_oneByte (h : EndsInWord before earlier word)
    (hbyte : EndsInOneByte earlier) :
    complete (before ++ after) (byteLength before) =
      .ok ⟨byteLength before, if word.isEmpty then [] else candidates word⟩ := by
  rw [complete_of_wordStart after (h.wordStart_of_oneByte after hbyte), h.cutAt_start]
  rfl

theorem EndsInWord.hint_of_oneByte (h : EndsInWord before earlier word)
    (hbyte : EndsInOneByte earlier) :
    hint before (byteLength before) =
      .ok (if byteLength word < 2 then none
        else ((candidates word).find? fun candidate => !candidate.missing.isEmpty).map
          fun candidate => .dimmed candidate.missing) := by
  have hstart := h.wordStart_of_oneByte [] hbyte
  rw [List.append_nil] at hstart
  rw [hint_of_wordStart hstart, h.cutAt_start]
  rfl

/-! ### Behind a longer character -/

/-- The place of the word is then inside that character. -/
theorem EndsInWord.wordStart_concat (h : EndsInWord before (earlier ++ [c]) word) :
    wordStart (before ++ after) (byteLength before) = .ok (byteLength earlier + 1) := by
  rw [h.wordStart_eq]
  simp [byteLength_reverse]

theorem EndsInWord.cutAt_inside (h : EndsInWord before (earlier ++ [c]) word)
    (hc : 1 < c.utf8Size) :
    cutAt before (byteLength earlier + 1) = .error ⟨byteLength earlier + 1⟩ := by
  rw [h.split, List.append_assoc, List.singleton_append, cutAt, splitAtByte?_inside Nat.one_pos hc]

theorem EndsInWord.complete_concat (h : EndsInWord before (earlier ++ [c]) word)
    (hc : 1 < c.utf8Size) :
    complete (before ++ after) (byteLength before) = .error ⟨byteLength earlier + 1⟩ := by
  rw [complete_of_wordStart after (h.wordStart_concat after), h.cutAt_inside hc]
  rfl

theorem EndsInWord.hint_concat (h : EndsInWord before (earlier ++ [c]) word)
    (hc : 1 < c.utf8Size) :
    hint before (byteLength before) = .error ⟨byteLength earlier + 1⟩ := by
  have hstart := h.wordStart_concat []
  rw [List.append_nil] at hstart
  rw [hint_of_wordStart hstart, h.cutAt_inside hc]
  rfl

/-! ### Before the end of a line -/

/-- Then there is no hint, and nothing is cut. -/
theorem hint_before_end {after : Text} (h : after ≠ []) :
    hint (before ++ after) (byteLength before) = .ok none := by
  have hpos := byteLength_pos h
  have hlt : byteLength before < byteLength (before ++ after) := by
    rw [byteLength_append]
    omega
  rw [hint, if_pos hlt]
  rfl

/-- **Words are found behind characters of one byte.** Wherever the cursor stands between two
    characters of a line, some place up to the cursor is found for the word before it. That is the
    start of the word, and a place between two characters at all, exactly if the character before
    the word has one byte or there is none. Exactly then completion has a result, and a hint has one
    then and before the end of the line. -/
theorem wordStart_iff_oneByte (before after : Text) :
    ∃ earlier word, EndsInWord before earlier word ∧
      (∃ start, wordStart (before ++ after) (byteLength before) = .ok start ∧
        start ≤ byteLength before ∧
        (start = byteLength earlier ↔ EndsInOneByte earlier) ∧
        (IsBoundary (before ++ after) start ↔ EndsInOneByte earlier)) ∧
      ((∃ completion, complete (before ++ after) (byteLength before) = .ok completion) ↔
        EndsInOneByte earlier) ∧
      ((∃ shown, hint (before ++ after) (byteLength before) = .ok shown) ↔
        after ≠ [] ∨ EndsInOneByte earlier) := by
  obtain ⟨earlier, word, h⟩ := exists_endsInWord before
  refine ⟨earlier, word, h, ?_⟩
  have hbefore : byteLength before = byteLength earlier + byteLength word := by
    rw [h.split, byteLength_append]
  by_cases hbyte : EndsInOneByte earlier
  · refine ⟨⟨_, h.wordStart_of_oneByte after hbyte, by omega, by simp [hbyte], ?_⟩, ?_, ?_⟩
    · have hboundary : IsBoundary (before ++ after) (byteLength earlier) :=
        ⟨earlier, word ++ after, by rw [h.split, List.append_assoc], rfl⟩
      simp [hbyte, hboundary]
    · simp [hbyte, h.complete_of_oneByte after hbyte]
    · by_cases hafter : after = []
      · simp [hbyte, hafter, h.hint_of_oneByte hbyte]
      · simp [hbyte, hint_before_end hafter]
  · obtain ⟨rest, c, rfl, hc⟩ := exists_of_not_endsInOneByte hbyte
    rw [byteLength_append, byteLength_cons, byteLength_nil] at hbefore
    refine ⟨⟨_, h.wordStart_concat after, by omega, ?_, ?_⟩, ?_, ?_⟩
    · simp only [byteLength_append, byteLength_cons, byteLength_nil, hbyte, iff_false]
      omega
    · have hboundary : ¬ IsBoundary (before ++ after) (byteLength rest + 1) := by
        rw [h.split, List.append_assoc, List.append_assoc, List.singleton_append]
        exact not_isBoundary_inside rest hc
      simp [hbyte, hboundary]
    · simp [hbyte, h.complete_concat after hc]
    · by_cases hafter : after = []
      · simp [hbyte, hafter, h.hint_concat hc]
      · simp [hafter, hint_before_end hafter]

/-- Behind an accented letter the empty word is looked for inside that letter, and nothing is found. -/
theorem complete_fails_at_accent :
    IsBoundary ['é'] 2 ∧ wordStart ['é'] 2 = .ok 1 ∧ ¬ IsBoundary ['é'] 1 ∧
      complete ['é'] 2 = .error ⟨1⟩ ∧ hint ['é'] 2 = .error ⟨1⟩ := by
  have hword : EndsInWord ['é'] ([] ++ ['é']) [] :=
    { split := rfl
      inside := by simp
      stop := by
        intro c hc
        obtain rfl : 'é' = c := Option.some.inj hc
        rw [IsNameChar]
        decide }
  have hsize : 1 < 'é'.utf8Size := by decide
  exact ⟨⟨['é'], [], rfl, rfl⟩, hword.wordStart_concat [],
    not_isBoundary_inside [] hsize, hword.complete_concat [] hsize,
    hword.hint_concat hsize⟩

end Cursor

end ScriptLexer
