import ScriptLexer.Proofs.Grammar
import ScriptLexer.Proofs.Placement

set_option autoImplicit false

/-! # Longest match

What a scan gives can be said without a scanner: take the longest word of the lexical grammar at the
start of what is left, and go on after it; where no word starts, an open string is at fault to the
end and any other character by itself (`LongestMatch`). The scanner looks at one character and
at most two more. That this is enough is `Piece.exists_longer`: a word that the next characters can
continue is not the longest one. Main statement: `longestMatch_iff_tokenize`. -/

namespace ScriptLexer

namespace Piece

/-! ## Words at the start of a source -/

/-- A word of the grammar that starts a source, of which no other such word is longer. -/
structure IsLongest (source : Text) (word : Piece) : Prop where
  lexical : word.Lexical
  starts : word.text <+: source
  longest : ∀ other : Piece, other.Lexical → other.text <+: source →
    other.text.length ≤ word.text.length

/-- No word of the grammar starts a source. -/
def NoWord (source : Text) : Prop :=
  ∀ word : Piece, word.Lexical → ¬ word.text <+: source

theorem lexical_of_isName {name : Text} (h : IsName name) :
    ∃ kind, (token kind name).Lexical := by
  by_cases hk : ∃ k : Keyword, k.word = name
  · obtain ⟨k, rfl⟩ := hk
    exact ⟨_, .keyword k⟩
  · exact ⟨_, .identifier h fun k he => hk ⟨k, he⟩⟩

theorem IsName.concat {name : Text} {c : Char} (h : IsName name) (hc : IsLetter c ∨ IsDigit c) :
    IsName (name ++ [c]) := by
  cases name with
  | nil => exact h.elim
  | cons d rest =>
    refine ⟨h.1, ?_⟩
    intro e he
    rcases List.mem_append.1 he with he | he
    · exact h.2 e he
    · rwa [List.mem_singleton.1 he]

theorem IsDigits.concat {digits : Text} {c : Char} (h : IsDigits digits) (hc : IsDigit c) :
    IsDigits (digits ++ [c]) := by
  refine ⟨by simp, ?_⟩
  intro d hd
  rcases List.mem_append.1 hd with hd | hd
  · exact h.2 d hd
  · rwa [List.mem_singleton.1 hd]

/-- A name that a letter or a digit follows is part of a longer name. -/
theorem exists_longer_name {name rest : Text} (h : IsName name)
    (hend : ¬ ∀ c ∈ rest.head?, ¬ (IsLetter c ∨ IsDigit c)) :
    ∃ (longer : Piece) (rest' : Text), longer.Lexical ∧ longer.text ++ rest' = name ++ rest ∧
      name.length < longer.text.length := by
  simp only [not_forall, not_not] at hend
  obtain ⟨c, hc, hword⟩ := hend
  obtain ⟨more, rfl⟩ := List.head?_eq_some_iff.1 hc
  obtain ⟨kind, hkind⟩ := lexical_of_isName (IsName.concat h hword)
  exact ⟨_, more, hkind, by simp [text], by simp [text]⟩

/-- A word that can go on into the text that follows is not the longest word there. -/
theorem exists_longer {word : Piece} {rest : Text} (h : word.Lexical)
    (hend : ¬ word.EndsBefore rest) :
    ∃ (longer : Piece) (rest' : Text), longer.Lexical ∧ longer.text ++ rest' = word.text ++ rest ∧
      word.text.length < longer.text.length := by
  cases h with
  | separator | string => exact absurd trivial hend
  | @comment body inside =>
    simp only [EndsBefore, not_forall] at hend
    obtain ⟨c, hc, hne⟩ := hend
    obtain ⟨more, rfl⟩ := List.head?_eq_some_iff.1 hc
    have hbody : '\n' ∉ body ++ [c] := by
      simpa [inside] using fun he => hne he.symm
    exact ⟨_, more, .comment hbody, by simp [text], by simp [text]⟩
  | symbol s =>
    simp only [EndsBefore, Classical.not_and_iff_not_or_not, Classical.not_imp, ne_eq, not_not]
      at hend
    rcases hend with ⟨rfl, hhead⟩ | ⟨hsome, hhead⟩
    · -- two slashes are a comment at least
      obtain ⟨more, rfl⟩ := List.head?_eq_some_iff.1 hhead
      exact ⟨comment ['/', '/'], more, .comment List.not_mem_nil, rfl, by decide⟩
    · obtain ⟨more, rfl⟩ := List.head?_eq_some_iff.1 hhead
      obtain ⟨joined, hj⟩ := Option.isSome_iff_exists.1 hsome
      have hspelling := (spelling_joined hj).1
      exact ⟨_, more, .symbol joined, by simp [text, hspelling], by simp [text, hspelling]⟩
  | @integer whole hw =>
    simp only [EndsBefore, Classical.not_and_iff_not_or_not, Classical.not_imp, not_forall, not_not]
      at hend
    rcases hend with ⟨c, hc, hd⟩ | ⟨-, c, more, rfl, hd⟩
    · obtain ⟨more, rfl⟩ := List.head?_eq_some_iff.1 hc
      exact ⟨_, more, .integer (IsDigits.concat hw hd), by simp [text], by simp [text]⟩
    · -- the point and one digit are taken in at once: the point alone would be no number
      have hc : IsDigits [c] := ⟨by simp, by simpa using hd⟩
      exact ⟨_, more, .decimal hw hc, by simp [text], by simp [text]⟩
  | @decimal whole fraction hw hf =>
    simp only [EndsBefore, Classical.not_and_iff_not_or_not, Classical.not_imp, not_forall, not_not]
      at hend
    rcases hend with ⟨c, hc, hd⟩ | ⟨hpoint, -⟩
    · obtain ⟨more, rfl⟩ := List.head?_eq_some_iff.1 hc
      exact ⟨_, more, .decimal hw (IsDigits.concat hf hd), by simp [text], by simp [text]⟩
    · exact absurd (by simp) hpoint
  | keyword k => exact exists_longer_name (isName_word k) hend
  | identifier hname => exact exists_longer_name hname hend

/-- Where a word starts a source, a word is found there that is at least as long. -/
theorem longest_of_append {word : Piece} {c : Char} {rest source : Text} (h : word.Lexical)
    (hs : word.text ++ rest = c :: source) :
    (next c source).1.Lexical ∧ word.text.length ≤ (next c source).1.text.length := by
  by_cases hend : word.EndsBefore rest
  · obtain ⟨d, t, ht, hnext⟩ := next_append (.lexical h) hend
    rw [ht, List.cons_append, List.cons.injEq] at hs
    obtain ⟨rfl, rfl⟩ := hs
    rw [hnext]
    exact ⟨h, le_rfl⟩
  · -- a longer word takes its place, and the recursion ends since less follows it
    obtain ⟨longer, rest', hl, hsame, hlt⟩ := exists_longer h hend
    have hlen := congrArg List.length hsame
    rw [List.length_append, List.length_append] at hlen
    have hrest : rest'.length < rest.length := by omega
    obtain ⟨hlex, hle⟩ := longest_of_append hl (hsame.trans hs)
    exact ⟨hlex, by omega⟩
termination_by rest.length

theorem isLongest_next {c : Char} {source : Text} (h : (next c source).1.Lexical) :
    IsLongest (c :: source) (next c source).1 where
  lexical := h
  starts := ⟨_, text_append_next c source⟩
  longest := by
    rintro other hother ⟨rest, hs⟩
    exact (longest_of_append hother hs).2

theorem noWord_next {c : Char} {source : Text} (h : ¬ (next c source).1.Lexical) :
    NoWord (c :: source) := by
  rintro word hword ⟨rest, hs⟩
  exact h (longest_of_append hword hs).1

/-- The longest word at the start of a source is its first piece. -/
theorem pieces_of_isLongest (word : Piece) (rest : Text)
    (h : IsLongest (word.text ++ rest) word) :
    pieces (word.text ++ rest) = word :: pieces rest := by
  -- what could go on would not be longest, so it ends here and is what `next` finds
  refine pieces_append (.lexical h.lexical) ?_
  by_contra hend
  obtain ⟨longer, rest', hl, hsame, hlt⟩ := exists_longer h.lexical hend
  exact absurd (h.longest longer hl ⟨rest', hsame⟩) (by omega)

/-- Where no word starts there is an open string or a character by itself. -/
theorem pieces_of_noWord {c : Char} {rest : Text} (h : NoWord (c :: rest)) :
    (c = '"' ∧ pieces (c :: rest) = [fault .unterminatedString (c :: rest)]) ∨
      (c ≠ '"' ∧ pieces (c :: rest) = fault (.unexpectedCharacter c) [c] :: pieces rest) := by
  have hsplit := text_append_next c rest
  obtain ⟨hwell, hend⟩ := next_spec c rest
  rw [pieces_cons]
  generalize (next c rest).1 = piece at *
  generalize (next c rest).2 = after at *
  cases hwell with
  | lexical hlex => exact absurd ⟨after, hsplit⟩ (h _ hlex)
  | unexpected hopens =>
    obtain ⟨rfl, rfl⟩ := List.cons.inj hsplit
    exact .inr ⟨hopens.ne_quote, rfl⟩
  | openString inside =>
    obtain rfl : after = [] := hend
    obtain ⟨rfl, rfl⟩ := List.cons.inj hsplit
    exact .inl ⟨rfl, by simp⟩

end Piece

/-! ## The longest word, again and again -/

open Piece

/-- Cuts a source by longest words, from a byte offset on, into the kinds, texts and spans of tokens
    and the kinds and spans of faults. -/
inductive LongestMatch : Nat → Text → List (Kind × Text × Span) → List (Fault × Span) → Prop where
  | endOfInput {offset : Nat} :
    LongestMatch offset [] [(.endOfInput, [], ⟨offset, offset⟩)] []
  | separator {offset : Nat} {c : Char} {rest : Text} {tokens : List (Kind × Text × Span)}
    {faults : List (Fault × Span)} (h : IsLongest (c :: rest) (.separator c))
    (later : LongestMatch (offset + c.utf8Size) rest tokens faults) :
    LongestMatch offset (c :: rest) tokens faults
  | comment {offset : Nat} {text rest : Text} {tokens : List (Kind × Text × Span)}
    {faults : List (Fault × Span)} (h : IsLongest (text ++ rest) (.comment text))
    (later : LongestMatch (offset + byteLength text) rest tokens faults) :
    LongestMatch offset (text ++ rest) tokens faults
  | token {offset : Nat} {kind : Kind} {lexeme rest : Text} {tokens : List (Kind × Text × Span)}
    {faults : List (Fault × Span)} (h : IsLongest (lexeme ++ rest) (.token kind lexeme))
    (later : LongestMatch (offset + byteLength lexeme) rest tokens faults) :
    LongestMatch offset (lexeme ++ rest)
      ((kind, lexeme, ⟨offset, offset + byteLength lexeme⟩) :: tokens) faults
  | openString {offset : Nat} {rest : Text} {tokens : List (Kind × Text × Span)}
    {faults : List (Fault × Span)} (h : NoWord ('"' :: rest))
    (later : LongestMatch (offset + byteLength ('"' :: rest)) [] tokens faults) :
    LongestMatch offset ('"' :: rest) tokens
      ((.unterminatedString, ⟨offset, offset + byteLength ('"' :: rest)⟩) :: faults)
  | unexpected {offset : Nat} {c : Char} {rest : Text} {tokens : List (Kind × Text × Span)}
    {faults : List (Fault × Span)} (h : NoWord (c :: rest)) (hc : c ≠ '"')
    (later : LongestMatch (offset + c.utf8Size) rest tokens faults) :
    LongestMatch offset (c :: rest) tokens
      ((.unexpectedCharacter c, ⟨offset, offset + c.utf8Size⟩) :: faults)

/-- A token without its line. -/
def Token.outline (token : Token) : Kind × Text × Span :=
  (token.kind, token.lexeme, token.span)

/-- A diagnostic without its line. -/
def Diagnostic.outline (diagnostic : Diagnostic) : Fault × Span :=
  (diagnostic.fault, diagnostic.span)

/-- A scan gives what its first piece makes, and then what the scan of the rest gives. -/
theorem outlines_append (position : Position) (piece : Piece) (rest : Text)
    (hpieces : pieces (piece.text ++ rest) = piece :: pieces rest)
    {tokens : List (Kind × Text × Span)} {faults : List (Fault × Span)}
    (later : tokens = (tokensFrom (position.advance piece.text) rest).map Token.outline ∧
      faults = (diagnosticsFrom (position.advance piece.text) rest).map Diagnostic.outline) :
    (Placed.mk position piece).token?.toList.map Token.outline ++ tokens =
        (tokensFrom position (piece.text ++ rest)).map Token.outline ∧
      (Placed.mk position piece).diagnostic?.toList.map Diagnostic.outline ++ faults =
        (diagnosticsFrom position (piece.text ++ rest)).map Diagnostic.outline := by
  have hpieces' : pieces (piece.text ++ rest) = [piece] ++ pieces rest := hpieces
  rw [tokensFrom_append hpieces', diagnosticsFrom_append hpieces', List.flatMap_singleton,
    List.map_append, List.map_append, later.1, later.2]
  cases piece <;> exact ⟨rfl, rfl⟩

/-- A scan cuts its source by longest words. -/
theorem longestMatch_scan (position : Position) (source : Text) :
    LongestMatch position.offset source ((tokensFrom position source).map Token.outline)
      ((diagnosticsFrom position source).map Diagnostic.outline) := by
  fun_induction pieces source generalizing position with
  | case1 =>
    rw [tokensFrom_nil, diagnosticsFrom_nil]
    exact .endOfInput
  | case2 c rest ih =>
    have hsplit := text_append_next c rest
    have hpieces := pieces_cons c rest
    have hlongest : (next c rest).1.Lexical → IsLongest (c :: rest) (next c rest).1 :=
      isLongest_next
    have hnone : ¬ (next c rest).1.Lexical → NoWord (c :: rest) := noWord_next
    obtain ⟨hwell, hend⟩ := next_spec c rest
    generalize (next c rest).1 = piece at *
    generalize (next c rest).2 = after at *
    rw [← hsplit] at hpieces hlongest hnone ⊢
    obtain ⟨htokens, hfaults⟩ := outlines_append position piece after hpieces ⟨rfl, rfl⟩
    rw [← htokens, ← hfaults]
    have later := ih (position.advance piece.text)
    cases hwell with
    | lexical h =>
      have hword := hlongest h
      cases piece with
      | separator d => exact .separator hword later
      | comment body => exact .comment hword later
      | token kind lexeme => exact .token hword later
      | fault fault body => cases h
    | unexpected h =>
      have hfault : NoWord _ := hnone (by rintro ⟨⟩)
      exact .unexpected hfault h.ne_quote later
    | openString inside =>
      obtain rfl : after = [] := hend
      rw [List.append_nil] at hnone ⊢
      have hfault : NoWord _ := hnone (by rintro ⟨⟩)
      exact .openString hfault later

/-- Cutting by longest words leaves no choice. -/
theorem LongestMatch.eq_scan {offset : Nat} {source : Text} {tokens : List (Kind × Text × Span)}
    {faults : List (Fault × Span)} (h : LongestMatch offset source tokens faults)
    (position : Position) (hoffset : position.offset = offset) :
    tokens = (tokensFrom position source).map Token.outline ∧
      faults = (diagnosticsFrom position source).map Diagnostic.outline := by
  induction h generalizing position with
  | endOfInput =>
    subst hoffset
    rw [tokensFrom_nil, diagnosticsFrom_nil]
    exact ⟨rfl, rfl⟩
  | @separator offset c rest tokens faults h later ih =>
    subst hoffset
    have hp := pieces_of_isLongest (.separator c) rest h
    exact outlines_append position (.separator c) rest hp (ih (position.advance [c]) rfl)
  | @comment offset text rest tokens faults h later ih =>
    subst hoffset
    have hp := pieces_of_isLongest (.comment text) rest h
    exact outlines_append position (.comment text) rest hp (ih (position.advance text) rfl)
  | @token offset kind lexeme rest tokens faults h later ih =>
    subst hoffset
    have hp := pieces_of_isLongest (.token kind lexeme) rest h
    exact outlines_append position (.token kind lexeme) rest hp (ih (position.advance lexeme) rfl)
  | @openString offset rest tokens faults h later ih =>
    subst hoffset
    rcases pieces_of_noWord h with ⟨-, hp⟩ | ⟨hc, -⟩
    · have hp' : pieces ('"' :: rest ++ []) =
          .fault .unterminatedString ('"' :: rest) :: pieces [] := by
        rw [List.append_nil, hp, pieces_nil]
      have hscan := outlines_append position (.fault .unterminatedString ('"' :: rest)) [] hp'
        (ih (position.advance ('"' :: rest)) rfl)
      simp only [text, List.append_nil] at hscan
      exact hscan
    · exact absurd rfl hc
  | @unexpected offset c rest tokens faults h hc later ih =>
    subst hoffset
    rcases pieces_of_noWord h with ⟨hquote, -⟩ | ⟨-, hp⟩
    · exact absurd hquote hc
    · exact outlines_append position (.fault (.unexpectedCharacter c) [c]) rest hp
        (ih (position.advance [c]) rfl)

/-- **Longest match.** The tokens and the diagnostics of a scan are the ones that cutting the source
    by longest words gives, and it gives no others. -/
theorem longestMatch_iff_tokenize (source : Text) (tokens : List (Kind × Text × Span))
    (faults : List (Fault × Span)) :
    LongestMatch 0 source tokens faults ↔
      tokens = (tokenize source).tokens.map Token.outline ∧
        faults = (tokenize source).diagnostics.map Diagnostic.outline := by
  rw [tokenize_tokens, tokenize_diagnostics]
  constructor
  · intro h
    exact h.eq_scan .start rfl
  · rintro ⟨rfl, rfl⟩
    exact longestMatch_scan .start source

end ScriptLexer
