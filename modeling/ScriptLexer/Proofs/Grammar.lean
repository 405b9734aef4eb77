import Mathlib.Data.List.TakeWhile
import ScriptLexer.Piece

set_option autoImplicit false

/-! # The lexical grammar

The words of the language, class by class, said without how they are found (`Piece.Lexical`), and
for every piece what may follow it (`Piece.EndsBefore`): a piece ends where the next characters cannot
be part of it any more. The two together decide how a source is cut:

* `Piece.next_append`: a well-formed piece before a text that cannot continue it is the piece that
  is found there;
* `Piece.next_spec`: what is found is such a piece.

So the pieces of a source are the only way to lay it out as well-formed pieces of which each ends
before the next (`pieces_eq_iff`). What is said about scanning one source after changing another
needs no more than that. -/

namespace ScriptLexer

/-! ## Stretches of one class of characters -/

section Stretch

variable {α : Type} {p : α → Bool} {inner rest : List α}

/-- Elements of a class are taken up to the first that is not of the class. -/
theorem takeWhile_append_of_stop (inside : ∀ x ∈ inner, p x = true)
    (stop : ∀ x ∈ rest.head?, p x = false) : (inner ++ rest).takeWhile p = inner := by
  rw [List.takeWhile_append_of_pos inside]
  cases rest <;> simp_all

theorem dropWhile_append_of_stop (inside : ∀ x ∈ inner, p x = true)
    (stop : ∀ x ∈ rest.head?, p x = false) : (inner ++ rest).dropWhile p = rest := by
  rw [List.dropWhile_append_of_pos inside]
  cases rest <;> simp_all

theorem head?_dropWhile_eq_false (p : α → Bool) (xs : List α) :
    ∀ x ∈ (xs.dropWhile p).head?, p x = false := by
  intro x hx
  have h := List.head?_dropWhile_not p xs
  rw [Option.mem_def] at hx
  rw [hx] at h
  simpa using h

end Stretch

/-! ## Classes of characters -/

/-- The decimal digits. -/
def IsDigit (c : Char) : Prop :=
  '0' ≤ c ∧ c ≤ '9'

/-- The letters of the English alphabet and the underscore. -/
def IsLetter (c : Char) : Prop :=
  ('A' ≤ c ∧ c ≤ 'Z') ∨ ('a' ≤ c ∧ c ≤ 'z') ∨ c = '_'

/-- The blanks of a script. -/
def IsSpace (c : Char) : Prop :=
  c = ' ' ∨ c = '\r' ∨ c = '\t' ∨ c = '\n'

instance (c : Char) : Decidable (IsDigit c) := inferInstanceAs (Decidable (_ ∧ _))

instance (c : Char) : Decidable (IsLetter c) := inferInstanceAs (Decidable (_ ∨ _))

instance (c : Char) : Decidable (IsSpace c) := inferInstanceAs (Decidable (_ ∨ _))

theorem isDigit_iff {c : Char} : c.isDigit = true ↔ IsDigit c := by
  simp [Char.isDigit, IsDigit, Char.le_def]

theorem isDigit_eq_false_iff {c : Char} : c.isDigit = false ↔ ¬ IsDigit c := by
  rw [← isDigit_iff, Bool.not_eq_true]

theorem forall_isDigit {text : Text} (h : ∀ c ∈ text, IsDigit c) :
    ∀ c ∈ text, c.isDigit = true := by
  intro c hc
  exact isDigit_iff.2 (h c hc)

theorem head?_isDigit_eq_false {text : Text} (h : ∀ c ∈ text.head?, ¬ IsDigit c) :
    ∀ c ∈ text.head?, c.isDigit = false := by
  intro c hc
  exact isDigit_eq_false_iff.2 (h c hc)

theorem isWordStart_iff {c : Char} : isWordStart c = true ↔ IsLetter c := by
  unfold isWordStart
  delta Char.isAlpha Char.isUpper Char.isLower
  simp [IsLetter, Char.le_def, or_assoc]

theorem isWordChar_iff {c : Char} : isWordChar c = true ↔ IsLetter c ∨ IsDigit c := by
  rw [isWordChar, Bool.or_eq_true, isWordStart_iff, isDigit_iff]

theorem isWordChar_eq_false_iff {c : Char} :
    isWordChar c = false ↔ ¬ (IsLetter c ∨ IsDigit c) := by
  rw [← isWordChar_iff, Bool.not_eq_true]

theorem isSeparator_iff {c : Char} : isSeparator c = true ↔ IsSpace c := by
  simp [isSeparator, IsSpace, or_assoc]

/-- A character with which no word starts. -/
structure OpensNothing (c : Char) : Prop where
  not_space : ¬ IsSpace c
  ne_quote : c ≠ '"'
  not_digit : ¬ IsDigit c
  not_letter : ¬ IsLetter c
  no_symbol : Symbol.ofChar? c = none

/-! ## Words -/

/-- How a symbol is written. -/
def Symbol.spelling : Symbol → Text
  | leftParen => ['(']
  | rightParen => [')']
  | leftBrace => ['{']
  | rightBrace => ['}']
  | comma => [',']
  | dot => ['.']
  | minus => ['-']
  | plus => ['+']
  | semicolon => [';']
  | star => ['*']
  | slash => ['/']
  | bang => ['!']
  | bangEqual => ['!', '=']
  | equal => ['=']
  | equalEqual => ['=', '=']
  | less => ['<']
  | lessEqual => ['<', '=']
  | greater => ['>']
  | greaterEqual => ['>', '=']

/-- One digit or more. -/
def IsDigits (text : Text) : Prop :=
  text ≠ [] ∧ ∀ c ∈ text, IsDigit c

theorem IsDigits.exists_cons {whole : Text} (h : IsDigits whole) :
    ∃ c t, whole = c :: t ∧ IsDigit c := by
  obtain ⟨c, t, rfl⟩ := List.exists_cons_of_ne_nil h.1
  exact ⟨c, t, rfl, h.2 c List.mem_cons_self⟩

theorem IsDigits.point_not_mem {whole : Text} (h : IsDigits whole) : '.' ∉ whole := fun hp =>
  absurd (h.2 '.' hp) (by decide)

/-- A letter, and after it letters and digits. -/
def IsName : Text → Prop
  | [] => False
  | c :: rest => IsLetter c ∧ ∀ d ∈ rest, IsLetter d ∨ IsDigit d

namespace Piece

/-- The words of the lexical grammar, each as the piece that it makes. -/
inductive Lexical : Piece → Prop where
  | separator {c : Char} (h : IsSpace c) : Lexical (separator c)
  | comment {text : Text} (h : '\n' ∉ text) : Lexical (comment ('/' :: '/' :: text))
  | symbol (s : Symbol) : Lexical (token (.symbol s) s.spelling)
  | integer {whole : Text} (h : IsDigits whole) :
    Lexical (token (.number (.ofDecimal whole [])) whole)
  | decimal {whole fraction : Text} (hw : IsDigits whole) (hf : IsDigits fraction) :
    Lexical (token (.number (.ofDecimal whole fraction)) (whole ++ '.' :: fraction))
  | string {value : Text} (h : '"' ∉ value) :
    Lexical (token (.string value) ('"' :: value ++ ['"']))
  | keyword (k : Keyword) : Lexical (token (.keyword k) k.word)
  | identifier {name : Text} (h : IsName name) (unreserved : ∀ k : Keyword, k.word ≠ name) :
    Lexical (token .identifier name)

/-- The words of the grammar and the two kinds of stretch that are none. -/
inductive WellFormed : Piece → Prop where
  | lexical {piece : Piece} (h : piece.Lexical) : WellFormed piece
  | unexpected {c : Char} (h : OpensNothing c) : WellFormed (fault (.unexpectedCharacter c) [c])
  | openString {text : Text} (h : '"' ∉ text) :
    WellFormed (fault .unterminatedString ('"' :: text))

/-- Whether a piece cannot go on into the text that follows it. -/
def EndsBefore : Piece → Text → Prop
  | separator _, _ => True
  | comment _, rest => ∀ c ∈ rest.head?, c = '\n'
  | token (.symbol s) _, rest =>
    (s = .slash → rest.head? ≠ some '/') ∧ (s.withEqual?.isSome → rest.head? ≠ some '=')
  | token (.number _) lexeme, rest =>
    (∀ c ∈ rest.head?, ¬ IsDigit c) ∧
      ('.' ∉ lexeme → ∀ c more, rest = '.' :: c :: more → ¬ IsDigit c)
  | token .identifier _, rest | token (.keyword _) _, rest =>
    ∀ c ∈ rest.head?, ¬ (IsLetter c ∨ IsDigit c)
  | token (.string _) _, _ | token .endOfInput _, _ => True
  | fault .unterminatedString _, rest => rest = []
  | fault _ _, _ => True

/-! ## The first character decides -/

variable {c : Char} {rest : Text}

theorem opening_cases (c : Char) :
    IsSpace c ∨ c = '"' ∨ IsDigit c ∨ IsLetter c ∨ (∃ s, Symbol.ofChar? c = some s) ∨
      OpensNothing c := by
  by_contra h
  simp only [not_or, ← Option.ne_none_iff_exists'] at h
  obtain ⟨hs, hq, hd, hl, hn, hc⟩ := h
  exact hc ⟨hs, hq, hd, hl, by simpa using hn⟩

theorem not_digit_of_letter (h : IsLetter c) : ¬ IsDigit c := by
  rintro ⟨-, hc⟩
  have hle : c.toNat ≤ 57 := hc
  rcases h with ⟨hA, -⟩ | ⟨ha, -⟩ | rfl
  · have : 65 ≤ c.toNat := hA
    omega
  · have : 97 ≤ c.toNat := ha
    omega
  · exact absurd hc (by decide)

/-- What a name can go on with is none of the characters that have a rule of their own. -/
theorem unnamed_of_wordChar (h : IsLetter c ∨ IsDigit c) :
    ¬ IsSpace c ∧ c ≠ '/' ∧ c ≠ '"' := by
  refine ⟨?_, ?_, ?_⟩
  · rintro (rfl | rfl | rfl | rfl) <;> exact absurd h (by decide)
  · rintro rfl
    exact absurd h (by decide)
  · rintro rfl
    exact absurd h (by decide)

theorem unnamed_of_ofChar? {s : Symbol} (h : Symbol.ofChar? c = some s) :
    ¬ IsSpace c ∧ c ≠ '"' ∧ ¬ IsDigit c ∧ ¬ IsLetter c := by
  unfold Symbol.ofChar? at h
  split at h <;> first | contradiction | decide

theorem next_separator (h : IsSpace c) : next c rest = (separator c, rest) := by
  rw [next, if_pos (isSeparator_iff.2 h)]

theorem next_comment : next '/' ('/' :: rest) = nextComment ('/' :: '/' :: rest) := rfl

theorem next_quote : next '"' rest = nextString rest := rfl

theorem next_digit (h : IsDigit c) : next c rest = nextNumber (c :: rest) := by
  obtain ⟨hs, hslash, hquote⟩ := unnamed_of_wordChar (.inr h)
  simp [next, isSeparator_iff, hs, hslash, hquote, isDigit_iff.2 h]

theorem next_letter (h : IsLetter c) : next c rest = nextWord (c :: rest) := by
  obtain ⟨hs, hslash, hquote⟩ := unnamed_of_wordChar (.inl h)
  simp [next, isSeparator_iff, hs, hslash, hquote, isDigit_iff, not_digit_of_letter h,
    isWordStart_iff.2 h]

theorem next_symbol {s : Symbol} (h : Symbol.ofChar? c = some s)
    (alone : c = '/' → rest.head? ≠ some '/') : next c rest = nextSymbol s c rest := by
  obtain ⟨hs, hquote, hd, hl⟩ := unnamed_of_ofChar? h
  have hc : ¬ (c = '/' ∧ rest.head? = some '/') := fun ⟨he, hr⟩ => alone he hr
  simp [next, isSeparator_iff, hs, hc, hquote, isDigit_iff, hd, isWordStart_iff, hl, h]

theorem next_other (h : OpensNothing c) :
    next c rest = (fault (.unexpectedCharacter c) [c], rest) := by
  have hc : c ≠ '/' := by
    rintro rfl
    exact absurd h.no_symbol (by decide)
  simp [next, isSeparator_iff, h.not_space, hc, h.ne_quote, isDigit_iff, h.not_digit,
    isWordStart_iff, h.not_letter, h.no_symbol]

/-! ## A word before what cannot continue it -/

variable {text value word whole fraction : Text}

theorem nextComment_append (inside : '\n' ∉ text) (stop : ∀ c ∈ rest.head?, c = '\n') :
    nextComment ('/' :: '/' :: (text ++ rest)) = (comment ('/' :: '/' :: text), rest) := by
  have hin : ∀ c ∈ '/' :: '/' :: text, decide (c ≠ '\n') = true := by
    simpa using fun c hc (he : c = '\n') => inside (he ▸ hc)
  have hstop : ∀ c ∈ rest.head?, decide (c ≠ '\n') = false := by
    simpa using stop
  have htake := takeWhile_append_of_stop hin hstop
  have hdrop := dropWhile_append_of_stop hin hstop
  rw [nextComment]
  exact Prod.ext (congrArg comment htake) hdrop

theorem nextString_append (inside : '"' ∉ value) :
    nextString (value ++ '"' :: rest) =
      (token (.string value) ('"' :: value ++ ['"']), rest) := by
  have hin : ∀ c ∈ value, decide (c ≠ '"') = true := by
    simpa using fun c hc (he : c = '"') => inside (he ▸ hc)
  have hstop : ∀ c ∈ ('"' :: rest).head?, decide (c ≠ '"') = false := by
    simp
  have htake := takeWhile_append_of_stop hin hstop
  have hdrop := dropWhile_append_of_stop hin hstop
  simp only [nextString, hdrop, htake]

theorem nextString_open (inside : '"' ∉ text) :
    nextString text = (fault .unterminatedString ('"' :: text), []) := by
  have hdrop : text.dropWhile (· ≠ '"') = [] := by
    rw [List.dropWhile_eq_nil_iff]
    simpa using fun c hc (he : c = '"') => inside (he ▸ hc)
  simp only [nextString, hdrop]

theorem nextWord_append (inside : ∀ c ∈ word, IsLetter c ∨ IsDigit c)
    (stop : ∀ c ∈ rest.head?, ¬ (IsLetter c ∨ IsDigit c)) :
    nextWord (word ++ rest) = (token (wordKind word) word, rest) := by
  have hin : ∀ c ∈ word, isWordChar c = true := fun c hc => isWordChar_iff.2 (inside c hc)
  have hstop : ∀ c ∈ rest.head?, isWordChar c = false := fun c hc =>
    isWordChar_eq_false_iff.2 (stop c hc)
  simp only [nextWord, takeWhile_append_of_stop hin hstop, dropWhile_append_of_stop hin hstop]

theorem nextSymbol_joined {s joined : Symbol} (h : s.withEqual? = some joined) :
    nextSymbol s c ('=' :: rest) = (token (.symbol joined) [c, '='], rest) := by
  simp only [nextSymbol, h]

theorem nextSymbol_alone {s : Symbol} (h : s.withEqual?.isSome → rest.head? ≠ some '=') :
    nextSymbol s c rest = (token (.symbol s) [c], rest) := by
  unfold nextSymbol
  split
  · next joined after hj => exact absurd rfl (h (by simp [hj]))
  · rfl

/-! ### Numbers -/

theorem splitNumber_integer (inside : ∀ c ∈ whole, IsDigit c)
    (stop : ∀ c ∈ rest.head?, ¬ IsDigit c)
    (alone : ∀ c more, rest = '.' :: c :: more → ¬ IsDigit c) :
    splitNumber (whole ++ rest) = (whole, rest) := by
  have hin := forall_isDigit inside
  have hstop := head?_isDigit_eq_false stop
  simp only [splitNumber, takeWhile_append_of_stop hin hstop, dropWhile_append_of_stop hin hstop]
  cases rest with
  | nil => rfl
  | cons point after =>
    have hpoint : ¬ (point = '.' ∧ (after.head?.any Char.isDigit) = true) := by
      rintro ⟨rfl, hd⟩
      obtain ⟨d, hd, hdigit⟩ := (Option.any_eq_true _ _).1 hd
      obtain ⟨more, rfl⟩ := List.head?_eq_some_iff.1 hd
      exact alone d more rfl (isDigit_iff.1 hdigit)
    simp only [if_neg hpoint]

theorem splitNumber_decimal (hw : ∀ c ∈ whole, IsDigit c) (hf : IsDigits fraction)
    (stop : ∀ c ∈ rest.head?, ¬ IsDigit c) :
    splitNumber (whole ++ '.' :: fraction ++ rest) = (whole ++ '.' :: fraction, rest) := by
  have hw' := forall_isDigit hw
  have hpoint : ∀ c ∈ ('.' :: (fraction ++ rest)).head?, c.isDigit = false := by
    simp [Char.isDigit]
  have hf' := forall_isDigit hf.2
  have hstop := head?_isDigit_eq_false stop
  have hany : ((fraction ++ rest).head?.any Char.isDigit) = true := by
    obtain ⟨d, more, rfl⟩ := List.exists_cons_of_ne_nil hf.1
    simpa using hf' d List.mem_cons_self
  simp only [List.append_assoc, List.cons_append, splitNumber,
    takeWhile_append_of_stop hw' hpoint, dropWhile_append_of_stop hw' hpoint, hany, and_self,
    if_true, takeWhile_append_of_stop hf' hstop, dropWhile_append_of_stop hf' hstop]

theorem ofNumber_integer (h : IsDigits whole) :
    ofNumber whole = token (.number (.ofDecimal whole [])) whole := by
  have hin := forall_isDigit h.2
  have htake : whole.takeWhile Char.isDigit = whole := List.takeWhile_eq_self_iff.2 hin
  have hdrop : whole.dropWhile Char.isDigit = [] := List.dropWhile_eq_nil_iff.2 hin
  simp [ofNumber, Binary64.parse?, htake, hdrop, h.1]

theorem ofNumber_decimal (hw : IsDigits whole) (hf : IsDigits fraction) :
    ofNumber (whole ++ '.' :: fraction) =
      token (.number (.ofDecimal whole fraction)) (whole ++ '.' :: fraction) := by
  have hw' := forall_isDigit hw.2
  have hpoint : ∀ c ∈ ('.' :: fraction).head?, c.isDigit = false := by
    simp [Char.isDigit]
  have hf' := forall_isDigit hf.2
  simp only [ofNumber, Binary64.parse?, takeWhile_append_of_stop hw' hpoint,
    dropWhile_append_of_stop hw' hpoint]
  simp [hw.1, hf.1, if_pos hf']

/-! ### Symbols -/

/-- A symbol is a character, or it joins a character and an equals sign. -/
theorem spelling_cases (s : Symbol) :
    (∃ c, s.spelling = [c] ∧ Symbol.ofChar? c = some s ∧ (c = '/' → s = .slash)) ∨
      ∃ c base, s.spelling = [c, '='] ∧ Symbol.ofChar? c = some base ∧
        base.withEqual? = some s ∧ c ≠ '/' := by
  cases s with
  | bangEqual => exact .inr ⟨'!', .bang, by decide⟩
  | equalEqual => exact .inr ⟨'=', .equal, by decide⟩
  | lessEqual => exact .inr ⟨'<', .less, by decide⟩
  | greaterEqual => exact .inr ⟨'>', .greater, by decide⟩
  | _ => exact .inl ⟨_, rfl, by decide⟩

theorem spelling_of_ofChar? {s : Symbol} (h : Symbol.ofChar? c = some s) :
    s.spelling = [c] ∧ (s = .slash → c = '/') := by
  unfold Symbol.ofChar? at h
  split at h <;> first | contradiction | (cases h; decide)

theorem spelling_joined {base joined : Symbol} (h : base.withEqual? = some joined) :
    joined.spelling = base.spelling ++ ['='] ∧ joined ≠ .slash ∧ joined.withEqual? = none := by
  cases base <;> cases h <;> decide

theorem next_spelling (s : Symbol) (h : (token (.symbol s) s.spelling).EndsBefore rest) :
    ∃ c t, s.spelling = c :: t ∧ next c (t ++ rest) = (token (.symbol s) s.spelling, rest) := by
  obtain ⟨hslash, hequal⟩ := h
  rcases spelling_cases s with ⟨c, hs, hc, hsl⟩ | ⟨c, base, hs, hc, hj, hsl⟩
  · refine ⟨c, [], hs, ?_⟩
    rw [List.nil_append, next_symbol hc fun he => hslash (hsl he), nextSymbol_alone hequal, hs]
  · refine ⟨c, ['='], hs, ?_⟩
    rw [next_symbol hc fun he => absurd he hsl, List.singleton_append, nextSymbol_joined hj, hs]

/-! ### All pieces -/

theorem wordKind_word (k : Keyword) : wordKind k.word = .keyword k := by
  rw [wordKind, Keyword.ofWord?_word]

theorem wordKind_of_unreserved (h : ∀ k : Keyword, k.word ≠ word) :
    wordKind word = .identifier := by
  have hnone : Keyword.ofWord? word = none :=
    Option.eq_none_iff_forall_ne_some.2 fun k hk => h k (Keyword.ofWord?_eq_some_iff.1 hk)
  rw [wordKind, hnone]

theorem isName_word (k : Keyword) : IsName k.word := by
  have hletters : k.word.all isWordStart = true := by
    cases k <;> decide
  have hne : k.word ≠ [] := by
    cases k <;> decide
  obtain ⟨c, rest, hword⟩ := List.exists_cons_of_ne_nil hne
  rw [hword, List.all_cons, Bool.and_eq_true, List.all_eq_true] at hletters
  rw [hword]
  exact ⟨isWordStart_iff.1 hletters.1, fun d hd => .inl (isWordStart_iff.1 (hletters.2 d hd))⟩

theorem next_name (h : IsName word) (stop : ∀ c ∈ rest.head?, ¬ (IsLetter c ∨ IsDigit c)) :
    ∃ c t, word = c :: t ∧ next c (t ++ rest) = (token (wordKind word) word, rest) := by
  obtain _ | ⟨c, t⟩ := word
  · exact h.elim
  · obtain ⟨hc, ht⟩ := h
    have inside : ∀ d ∈ c :: t, IsLetter d ∨ IsDigit d := by
      simpa [hc] using ht
    exact ⟨c, t, rfl, by rw [next_letter hc, ← List.cons_append, nextWord_append inside stop]⟩

theorem next_number {lexeme : Text} {value : Binary64} (h : ∃ c t, lexeme = c :: t ∧ IsDigit c)
    (hsplit : splitNumber (lexeme ++ rest) = (lexeme, rest))
    (hvalue : ofNumber lexeme = token (.number value) lexeme) :
    ∃ c t, lexeme = c :: t ∧ next c (t ++ rest) = (token (.number value) lexeme, rest) := by
  obtain ⟨c, t, rfl, hc⟩ := h
  exact ⟨c, t, rfl, by rw [next_digit hc, ← List.cons_append, nextNumber, hsplit, hvalue]⟩

/-- A well-formed piece before a text that cannot continue it is what is found there. -/
theorem next_append {piece : Piece} (h : piece.WellFormed) (hend : piece.EndsBefore rest) :
    ∃ c t, piece.text = c :: t ∧ next c (t ++ rest) = (piece, rest) := by
  cases h with
  | lexical h =>
    cases h with
    | separator hc => exact ⟨_, [], rfl, next_separator hc⟩
    | comment inside =>
      exact ⟨'/', _, rfl, by rw [List.cons_append, next_comment, nextComment_append inside hend]⟩
    | symbol s => exact next_spelling s hend
    | integer hw =>
      exact next_number hw.exists_cons
        (splitNumber_integer hw.2 hend.1 (hend.2 hw.point_not_mem)) (ofNumber_integer hw)
    | @decimal whole fraction hw hf =>
      obtain ⟨c, t, ht, hc⟩ := hw.exists_cons
      have hlexeme : whole ++ '.' :: fraction = c :: (t ++ '.' :: fraction) := by
        rw [ht, List.cons_append]
      exact next_number ⟨c, _, hlexeme, hc⟩
        (splitNumber_decimal hw.2 hf hend.1) (ofNumber_decimal hw hf)
    | @string value inside =>
      refine ⟨'"', value ++ ['"'], rfl, ?_⟩
      rw [next_quote, List.append_assoc, List.singleton_append, nextString_append inside]
    -- both kinds of name are taken by `nextWord`, which looks up the whole word afterwards
    | keyword k =>
      rw [← wordKind_word k]
      exact next_name (isName_word k) hend
    | identifier hname unreserved =>
      rw [← wordKind_of_unreserved unreserved]
      exact next_name hname hend
  | unexpected hc => exact ⟨_, [], rfl, next_other hc⟩
  | openString inside =>
    obtain rfl : rest = [] := hend
    exact ⟨'"', _, rfl, by rw [next_quote, List.append_nil, nextString_open inside]⟩

theorem WellFormed.endsBefore_nil {piece : Piece} (h : piece.WellFormed) :
    piece.EndsBefore [] := by
  cases h with
  | lexical h => cases h <;> simp [EndsBefore]
  | unexpected => trivial
  | openString => rfl

/-- A comment is two slashes and characters of one line. -/
theorem WellFormed.exists_comment {body : Text} (h : (comment body).WellFormed) :
    ∃ inside, body = '/' :: '/' :: inside ∧ '\n' ∉ inside := by
  cases h with
  | lexical h =>
    cases h with
    | @comment inside hinside => exact ⟨inside, rfl, hinside⟩

theorem WellFormed.text_ne_nil {piece : Piece} (h : piece.WellFormed) : piece.text ≠ [] := by
  obtain ⟨c, t, ht, -⟩ := next_append h h.endsBefore_nil
  simp [ht]

/-! ## What is found -/

theorem nextComment_spec (source : Text) :
    (nextComment ('/' :: '/' :: source)).1.WellFormed ∧
      (nextComment ('/' :: '/' :: source)).1.EndsBefore (nextComment ('/' :: '/' :: source)).2 := by
  constructor
  · refine .lexical (.comment ?_)
    intro hmem
    simpa using List.mem_takeWhile_imp hmem
  · intro c hc
    simpa using head?_dropWhile_eq_false _ _ c hc

theorem nextString_spec (source : Text) :
    (nextString source).1.WellFormed ∧
      (nextString source).1.EndsBefore (nextString source).2 := by
  unfold nextString
  split
  · next hdrop =>
    refine ⟨.openString ?_, rfl⟩
    intro hmem
    simpa using List.dropWhile_eq_nil_iff.1 hdrop '"' hmem
  · next quote after hdrop =>
    have hhead := head?_dropWhile_eq_false (fun c => decide (c ≠ '"')) source
    rw [hdrop] at hhead
    obtain rfl : quote = '"' := by
      simpa using hhead quote rfl
    refine ⟨.lexical (.string ?_), trivial⟩
    intro hmem
    simpa using List.mem_takeWhile_imp hmem

theorem nextWord_spec (h : IsLetter c) :
    (nextWord (c :: rest)).1.WellFormed ∧
      (nextWord (c :: rest)).1.EndsBefore (nextWord (c :: rest)).2 := by
  have hword : IsName ((c :: rest).takeWhile isWordChar) := by
    rw [List.takeWhile_cons_of_pos (isWordChar_iff.2 (.inl h))]
    exact ⟨h, fun d hd => isWordChar_iff.1 (List.mem_takeWhile_imp hd)⟩
  have hstop : ∀ d ∈ ((c :: rest).dropWhile isWordChar).head?, ¬ (IsLetter d ∨ IsDigit d) :=
    fun d hd => isWordChar_eq_false_iff.1 (head?_dropWhile_eq_false _ _ d hd)
  simp only [nextWord]
  generalize (c :: rest).takeWhile isWordChar = word at hword
  cases hk : Keyword.ofWord? word with
  | some k =>
    obtain rfl := Keyword.ofWord?_eq_some_iff.1 hk
    rw [wordKind_word]
    exact ⟨.lexical (.keyword k), hstop⟩
  | none =>
    have unreserved : ∀ k : Keyword, k.word ≠ word := by
      intro k hw
      rw [Keyword.ofWord?_eq_some_iff.2 hw] at hk
      contradiction
    rw [wordKind_of_unreserved unreserved]
    exact ⟨.lexical (.identifier hword unreserved), hstop⟩

theorem nextSymbol_spec {s : Symbol} (h : Symbol.ofChar? c = some s)
    (alone : c = '/' → rest.head? ≠ some '/') :
    (nextSymbol s c rest).1.WellFormed ∧
      (nextSymbol s c rest).1.EndsBefore (nextSymbol s c rest).2 := by
  obtain ⟨hs, hslash⟩ := spelling_of_ofChar? h
  unfold nextSymbol
  split
  · next joined after hj =>
    obtain ⟨hjs, hne, halone⟩ := spelling_joined hj
    rw [hs, List.singleton_append] at hjs
    rw [← hjs]
    exact ⟨.lexical (.symbol joined), fun he => absurd he hne, by simp [halone]⟩
  · next hne =>
    rw [← hs]
    refine ⟨.lexical (.symbol s), fun he => alone (hslash he), fun hsome hequal => ?_⟩
    obtain ⟨joined, hj⟩ := Option.isSome_iff_exists.1 hsome
    obtain ⟨after, hafter⟩ := List.head?_eq_some_iff.1 hequal
    exact hne joined after hj hafter

theorem isDigits_takeWhile (h : IsDigit c) : IsDigits ((c :: rest).takeWhile Char.isDigit) := by
  rw [List.takeWhile_cons_of_pos (isDigit_iff.2 h)]
  refine ⟨List.cons_ne_nil _ _, ?_⟩
  intro d hd
  rcases List.mem_cons.1 hd with rfl | hd
  · exact h
  · exact isDigit_iff.1 (List.mem_takeWhile_imp hd)

theorem nextNumber_spec (h : IsDigit c) :
    (nextNumber (c :: rest)).1.WellFormed ∧
      (nextNumber (c :: rest)).1.EndsBefore (nextNumber (c :: rest)).2 := by
  have hwhole : IsDigits ((c :: rest).takeWhile Char.isDigit) := isDigits_takeWhile h
  have hstop : ∀ text : Text, ∀ d ∈ (text.dropWhile Char.isDigit).head?, ¬ IsDigit d :=
    fun text d hd => isDigit_eq_false_iff.1 (head?_dropWhile_eq_false _ text d hd)
  have hafter := hstop (c :: rest)
  simp only [nextNumber, splitNumber]
  generalize (c :: rest).takeWhile Char.isDigit = whole at hwhole
  split
  · rw [ofNumber_integer hwhole]
    exact ⟨.lexical (.integer hwhole), by simp [EndsBefore]⟩
  · next point after hdrop =>
    rw [hdrop] at hafter
    split
    · next hpoint =>
      obtain ⟨rfl, hany⟩ := hpoint
      obtain ⟨d, hd, hdigit⟩ := (Option.any_eq_true _ _).1 hany
      obtain ⟨more, rfl⟩ := List.head?_eq_some_iff.1 hd
      have hfraction : IsDigits ((d :: more).takeWhile Char.isDigit) :=
        isDigits_takeWhile (isDigit_iff.1 hdigit)
      rw [ofNumber_decimal hwhole hfraction]
      exact ⟨.lexical (.decimal hwhole hfraction), hstop _, by simp⟩
    · -- a point stays behind if no digit follows it
      next hpoint =>
      rw [ofNumber_integer hwhole]
      refine ⟨.lexical (.integer hwhole), hafter, fun _ d more he hd => hpoint ?_⟩
      cases he
      exact ⟨rfl, by simpa using isDigit_iff.2 hd⟩

/-- What is found is a well-formed piece that ends before what follows it. -/
theorem next_spec (c : Char) (rest : Text) :
    (next c rest).1.WellFormed ∧ (next c rest).1.EndsBefore (next c rest).2 := by
  rcases opening_cases c with h | rfl | h | h | ⟨s, h⟩ | h
  · rw [next_separator h]
    exact ⟨.lexical (.separator h), trivial⟩
  · rw [next_quote]
    exact nextString_spec rest
  · rw [next_digit h]
    exact nextNumber_spec h
  · rw [next_letter h]
    exact nextWord_spec h
  · -- the slash is the one symbol that something else can start with
    by_cases hcomment : c = '/' ∧ rest.head? = some '/'
    · obtain ⟨rfl, hhead⟩ := hcomment
      obtain ⟨more, rfl⟩ := List.head?_eq_some_iff.1 hhead
      rw [next_comment]
      exact nextComment_spec more
    · have alone : c = '/' → rest.head? ≠ some '/' := fun hc hr => hcomment ⟨hc, hr⟩
      rw [next_symbol h alone]
      exact nextSymbol_spec h alone
  · rw [next_other h]
    exact ⟨.unexpected h, trivial⟩

end Piece

/-! ## The pieces of a source -/

/-- Well-formed pieces of which each ends before the text of those after it. -/
def WellPlaced : List Piece → Prop
  | [] => True
  | piece :: later =>
    piece.WellFormed ∧ piece.EndsBefore (later.flatMap Piece.text) ∧ WellPlaced later

/-- Pieces are found one at a time, each where the one before it ends. -/
theorem pieces_of_next {c : Char} {rest later : Text} {piece : Piece} {ps : List Piece}
    (hnext : Piece.next c rest = (piece, later)) (hlater : pieces later = ps) :
    pieces (c :: rest) = piece :: ps := by
  rw [pieces_cons, hnext, hlater]

/-- A well-formed piece before a text that cannot continue it is the first piece of both. -/
theorem pieces_append {piece : Piece} {rest : Text} (h : piece.WellFormed)
    (hend : piece.EndsBefore rest) : pieces (piece.text ++ rest) = piece :: pieces rest := by
  obtain ⟨c, t, ht, hnext⟩ := Piece.next_append h hend
  rw [ht, List.cons_append, pieces_cons, hnext]

theorem WellPlaced.of_append {done later : List Piece} (h : WellPlaced (done ++ later)) :
    WellPlaced later := by
  induction done with
  | nil => exact h
  | cons piece done ih => exact ih h.2.2

theorem WellPlaced.wellFormed {ps : List Piece} (h : WellPlaced ps) :
    ∀ piece ∈ ps, piece.WellFormed := by
  intro piece hpiece
  obtain ⟨done, later, rfl⟩ := List.append_of_mem hpiece
  exact h.of_append.1

theorem wellPlaced_pieces (source : Text) : WellPlaced (pieces source) := by
  fun_induction pieces source with
  | case1 => trivial
  | case2 c rest ih =>
    obtain ⟨hwell, hend⟩ := Piece.next_spec c rest
    rw [← flatMap_text_pieces (Piece.next c rest).2] at hend
    exact ⟨hwell, hend, ih⟩

theorem pieces_flatMap_text {ps : List Piece} (h : WellPlaced ps) :
    pieces (ps.flatMap Piece.text) = ps := by
  induction ps with
  | nil => exact pieces_nil
  | cons piece later ih =>
    obtain ⟨hwell, hend, hlater⟩ := h
    rw [List.flatMap_cons, pieces_append hwell hend, ih hlater]

/-- A source is laid out in one way as well-formed pieces of which each ends before the next. -/
theorem pieces_eq_iff {source : Text} {ps : List Piece} :
    pieces source = ps ↔ ps.flatMap Piece.text = source ∧ WellPlaced ps := by
  constructor
  · rintro rfl
    exact ⟨flatMap_text_pieces source, wellPlaced_pieces source⟩
  · rintro ⟨rfl, h⟩
    exact pieces_flatMap_text h

end ScriptLexer
