import ScriptLexer.Proofs.LineBoundary
import ScriptLexer.Proofs.Tiling

set_option autoImplicit false

/-! # Code, strings and comments

Whether a character stands in code, in a string or in a comment can be told without tokens, by an
automaton that reads one character after another (`Mode.next`). A scan leaps from the end of one piece
to the end of the next, and there the two meet: what follows a piece is read by the automaton as it
would be at the start of a source (`Mode.Fresh`), unless the piece is an open string. So a view of the
characters of code that overlooks words, blanks, quotes and slashes is a view of the pieces
(`filterMap_codeOf`), and what a scan reports is known from the automaton alone.
Main statement: `foretold_tokenize`. -/

namespace ScriptLexer

/-! ## The automaton -/

/-- Where the next character of a source stands. In code the automaton remembers a slash that it has
    just read, since a second one starts a comment. -/
inductive Mode where
  | code (afterSlash : Bool)
  | string
  | comment
deriving DecidableEq

namespace Mode

/-- The mode at the start of a source. -/
def start : Mode := code false

/-- The mode after a character. -/
def next : Mode → Char → Mode
  | code afterSlash, c =>
    if c = '"' then string
    else if c = '/' then (if afterSlash then comment else code true)
    else code false
  | string, c => if c = '"' then code false else string
  | comment, c => if c = '\n' then code false else comment

/-- The mode after a text. -/
def after (mode : Mode) (text : Text) : Mode :=
  text.foldl next mode

/-- Whether the next character stands in code. -/
def isCode : Mode → Bool
  | code _ => true
  | _ => false

end Mode

/-- The mode at the end of a source. -/
def modeAtEnd (source : Text) : Mode :=
  Mode.start.after source

/-- The characters of a text that stand in code, with their offsets. -/
def codeFrom : Nat → Mode → Text → List (Nat × Char)
  | _, _, [] => []
  | offset, mode, c :: rest =>
    let later := codeFrom (offset + c.utf8Size) (mode.next c) rest
    if mode.isCode then (offset, c) :: later else later

/-- The characters of a source that stand in code, with their offsets. -/
def codeOf (source : Text) : List (Nat × Char) :=
  codeFrom 0 .start source

/-! ## What the statement speaks of -/

/-- The characters that scripts are written with, beside what their strings and comments hold. -/
def IsScriptChar (c : Char) : Prop :=
  IsLetter c ∨ IsDigit c ∨ IsSpace c ∨ c = '"' ∨
    c ∈ ['(', ')', '{', '}', ',', '.', '-', '+', ';', '*', '/', '!', '=', '<', '>']

instance (c : Char) : Decidable (IsScriptChar c) := inferInstanceAs (Decidable (_ ∨ _))

/-- What is to be reported of a character of code. -/
def unexpectedAt? (found : Nat × Char) : Option (Span × Fault) :=
  if IsScriptChar found.2 then none
  else some (⟨found.1, found.1 + found.2.utf8Size⟩, .unexpectedCharacter found.2)

/-- A diagnostic without its line. -/
def Diagnostic.report (diagnostic : Diagnostic) : Span × Fault :=
  (diagnostic.span, diagnostic.fault)

/-- What the automaton foretells of a scan. -/
structure Foretold (source : Text) (scan : Scan) : Prop where
  /-- A string is reported to be open exactly if the source ends in one. -/
  endsOpen : scan.EndsOpen ↔ modeAtEnd source = .string
  /-- Otherwise the characters of code with which no script is written are reported, once each and in
      their order, and nothing else is. -/
  closed : modeAtEnd source ≠ .string →
    scan.diagnostics.map Diagnostic.report = (codeOf source).filterMap unexpectedAt?
  /-- An open string is reported after them, from its quote to the end of the source, and no token
      but the one that marks the end starts at the quote or after it. -/
  opened : modeAtEnd source = .string → ∃ before inside, source = before ++ '"' :: inside ∧
    (modeAtEnd before).isCode = true ∧ '"' ∉ inside ∧
    scan.diagnostics.map Diagnostic.report = (codeOf source).filterMap unexpectedAt? ++
      [(⟨byteLength before, byteLength source⟩, .unterminatedString)] ∧
    ∀ token ∈ scan.tokens, byteLength before ≤ token.span.start → token.isEnd = true
  /-- Every number has a value. -/
  numbers : ∀ diagnostic ∈ scan.diagnostics, ∀ text, diagnostic.fault ≠ .invalidNumber text

/-! ## Reading on -/

section Reading

variable {offset : Nat} {mode : Mode} {text rest : Text} {c : Char}

theorem Mode.after_cons (mode : Mode) (c : Char) (text : Text) :
    mode.after (c :: text) = (mode.next c).after text := rfl

theorem Mode.after_append (mode : Mode) (a b : Text) :
    mode.after (a ++ b) = (mode.after a).after b :=
  List.foldl_append

theorem codeFrom_append (offset : Nat) (mode : Mode) (a b : Text) :
    codeFrom offset mode (a ++ b) =
      codeFrom offset mode a ++ codeFrom (offset + byteLength a) (mode.after a) b := by
  induction a generalizing offset mode with
  | nil => rfl
  | cons c a ih =>
    simp only [List.cons_append, codeFrom, ih, byteLength_cons, Nat.add_assoc, Mode.after_cons]
    split <;> simp

/-- The modes of strings and comments are left at one character only. -/
theorem Mode.after_string (h : '"' ∉ text) : string.after text = string := by
  induction text with
  | nil => rfl
  | cons c text ih =>
    rw [List.mem_cons, not_or] at h
    rw [after_cons, next, if_neg (Ne.symm h.1), ih h.2]

theorem Mode.after_comment (h : '\n' ∉ text) : comment.after text = comment := by
  induction text with
  | nil => rfl
  | cons c text ih =>
    rw [List.mem_cons, not_or] at h
    rw [after_cons, next, if_neg (Ne.symm h.1), ih h.2]

theorem codeFrom_string (h : '"' ∉ text) : codeFrom offset .string text = [] := by
  induction text generalizing offset with
  | nil => rfl
  | cons c text ih =>
    rw [List.mem_cons, not_or] at h
    simp [codeFrom, Mode.isCode, Mode.next, Ne.symm h.1, ih h.2]

theorem codeFrom_comment (h : '\n' ∉ text) : codeFrom offset .comment text = [] := by
  induction text generalizing offset with
  | nil => rfl
  | cons c text ih =>
    rw [List.mem_cons, not_or] at h
    simp [codeFrom, Mode.isCode, Mode.next, Ne.symm h.1, ih h.2]

/-- Only quotes and slashes change the mode of code. -/
theorem Mode.after_plain (h : ∀ c ∈ text, c ≠ '"' ∧ c ≠ '/') : start.after text = start := by
  induction text with
  | nil => rfl
  | cons c text ih =>
    obtain ⟨⟨hquote, hslash⟩, hlater⟩ := List.forall_mem_cons.1 h
    rw [after_cons, start, next, if_neg hquote, if_neg hslash]
    exact ih hlater

/-! ### Fresh starts -/

/-- Whether a text is read in a mode as it is at the start of a source. -/
def Mode.Fresh : Mode → Text → Prop
  | code afterSlash, text => afterSlash = true → text.head? ≠ some '/'
  | string, _ => False
  | comment, text => ∀ c ∈ text.head?, c = '\n'

namespace Mode

theorem fresh_start (text : Text) : start.Fresh text := by
  intro hslash
  cases hslash

theorem Fresh.of_append (h : mode.Fresh (text ++ rest)) (hne : text ≠ []) : mode.Fresh text := by
  obtain ⟨c, text, rfl⟩ := List.exists_cons_of_ne_nil hne
  cases mode <;> exact h

theorem Fresh.next_eq (h : mode.Fresh (c :: rest)) : mode.next c = start.next c := by
  cases mode with
  | code afterSlash =>
    cases afterSlash with
    | false => rfl
    | true =>
      have hc : c ≠ '/' := by simpa using h rfl
      simp [next, start, hc]
  | string => exact h.elim
  | comment =>
    obtain rfl : c = '\n' := h c rfl
    rfl

theorem Fresh.after_eq (h : mode.Fresh text) (hne : text ≠ []) :
    mode.after text = start.after text := by
  obtain ⟨c, text, rfl⟩ := List.exists_cons_of_ne_nil hne
  rw [after_cons, after_cons, h.next_eq]

theorem Fresh.isCode (h : mode.Fresh (c :: rest)) (hc : c ≠ '\n') : mode.isCode = true := by
  cases mode with
  | code afterSlash => rfl
  | string => exact h.elim
  | comment => exact absurd (h c rfl) hc

end Mode

end Reading

/-! ## Views of the characters of code -/

section View

variable {β : Type} {view : Nat × Char → Option β} {offset : Nat} {mode : Mode}
  {piece : Piece} {rest text : Text}

/-- Whether a view shows nothing of blanks, nor of the characters that words, numbers, strings and
    comments are made of. -/
def Overlooks (view : Nat × Char → Option β) : Prop :=
  ∀ offset c, IsSpace c ∨ (IsLetter c ∨ IsDigit c) ∨ c ∈ ['"', '/', '.'] → view (offset, c) = none

/-- What such a view shows of a piece at the given offset: of symbols, and of characters that no
    token starts with. -/
def Piece.shown (view : Nat × Char → Option β) (offset : Nat) : Piece → List β
  | .token (.symbol _) lexeme => (codeFrom offset .start lexeme).filterMap view
  | .fault (.unexpectedCharacter c) _ => (view (offset, c)).toList
  | _ => []

theorem filterMap_codeFrom_eq_nil (h : ∀ c ∈ text, ∀ offset, view (offset, c) = none) :
    (codeFrom offset mode text).filterMap view = [] := by
  induction text generalizing offset mode with
  | nil => rfl
  | cons c text ih =>
    obtain ⟨hc, hlater⟩ := List.forall_mem_cons.1 h
    rw [codeFrom]
    split
    · rw [List.filterMap_cons_none (hc offset), ih hlater]
    · exact ih hlater

/-- A line feed may end a comment, but then it is a blank all the same. -/
theorem Mode.Fresh.filterMap_codeFrom (hview : Overlooks view) (h : mode.Fresh text) :
    (codeFrom offset mode text).filterMap view = (codeFrom offset .start text).filterMap view := by
  cases text with
  | nil => rfl
  | cons c text =>
    rw [codeFrom, codeFrom, h.next_eq]
    cases mode with
    | code afterSlash => rfl
    | string => exact h.elim
    | comment =>
      obtain rfl : c = '\n' := h c rfl
      have hblank : view (offset, '\n') = none := hview offset '\n' (.inl (by decide))
      exact (List.filterMap_cons_none hblank).symm

/-! ### Pieces -/

theorem forall_wordChar_of_isName {name : Text} (h : IsName name) :
    ∀ c ∈ name, IsLetter c ∨ IsDigit c := by
  cases name with
  | nil => exact h.elim
  | cons d name => exact List.forall_mem_cons.2 ⟨.inl h.1, h.2⟩

theorem plain_of_wordChar (h : ∀ c ∈ text, IsLetter c ∨ IsDigit c) :
    ∀ c ∈ text, c ≠ '"' ∧ c ≠ '/' := by
  intro c hc
  obtain ⟨-, hslash, hquote⟩ := Piece.unnamed_of_wordChar (h c hc)
  exact ⟨hquote, hslash⟩

theorem plain_of_decimal {whole fraction : Text} (hw : IsDigits whole) (hf : IsDigits fraction) :
    ∀ c ∈ whole ++ '.' :: fraction, c ≠ '"' ∧ c ≠ '/' := by
  rw [List.forall_mem_append, List.forall_mem_cons]
  exact ⟨plain_of_wordChar fun c hc => .inr (hw.2 c hc), by decide,
    plain_of_wordChar fun c hc => .inr (hf.2 c hc)⟩

theorem plain_spelling {s : Symbol} (h : s ≠ .slash) : ∀ c ∈ s.spelling, c ≠ '"' ∧ c ≠ '/' := by
  cases s with
  | slash => exact absurd rfl h
  | _ => simp [Symbol.spelling]

/-- After a piece the automaton starts afresh, unless a string is open. -/
theorem Piece.WellFormed.fresh_after (h : piece.WellFormed) (hend : piece.EndsBefore rest)
    (hclosed : ¬ piece.IsOpen) : (Mode.start.after piece.text).Fresh rest := by
  have hplain : (∀ c ∈ piece.text, c ≠ '"' ∧ c ≠ '/') →
      (Mode.start.after piece.text).Fresh rest := by
    intro hpiece
    rw [Mode.after_plain hpiece]
    exact Mode.fresh_start rest
  cases h with
  | lexical h =>
    cases h with
    | separator hc =>
      apply hplain
      rcases hc with rfl | rfl | rfl | rfl <;> simp [text]
    | @comment body inside =>
      have hafter : Mode.start.after ('/' :: '/' :: body) = .comment := Mode.after_comment inside
      rw [text, hafter]
      exact hend
    | symbol s =>
      by_cases hs : s = .slash
      · subst hs
        exact fun _ => hend.1 rfl
      · exact hplain (plain_spelling hs)
    | integer hw => exact hplain (plain_of_wordChar fun c hc => .inr (hw.2 c hc))
    | decimal hw hf => exact hplain (plain_of_decimal hw hf)
    | @string value inside =>
      have hafter : Mode.start.after ('"' :: value ++ ['"']) = (Mode.string.after value).after ['"'] :=
        Mode.after_append .string value ['"']
      rw [text, hafter, Mode.after_string inside]
      exact Mode.fresh_start rest
    | keyword k => exact hplain (plain_of_wordChar (forall_wordChar_of_isName (isName_word k)))
    | identifier hname => exact hplain (plain_of_wordChar (forall_wordChar_of_isName hname))
  | @unexpected c hc =>
    have hslash : c ≠ '/' := by
      rintro rfl
      exact absurd hc.no_symbol (by decide)
    exact hplain (by simp [text, hc.ne_quote, hslash])
  | openString => exact absurd ⟨_, rfl⟩ hclosed

/-- What a view shows of the characters of a piece. -/
theorem Piece.WellFormed.filterMap_codeFrom (hview : Overlooks view) (h : piece.WellFormed)
    (offset : Nat) :
    (codeFrom offset .start piece.text).filterMap view = piece.shown view offset := by
  have hquote : ∀ o, view (o, '"') = none := fun o => hview o '"' (.inr (.inr (by decide)))
  have hslash : ∀ o, view (o, '/') = none := fun o => hview o '/' (.inr (.inr (by decide)))
  have hword : ∀ {word : Text}, (∀ c ∈ word, IsLetter c ∨ IsDigit c) →
      ∀ c ∈ word, ∀ o, view (o, c) = none := fun hw c hc o => hview o c (.inr (.inl (hw c hc)))
  cases h with
  | lexical h =>
    cases h with
    | @separator c hc =>
      exact filterMap_codeFrom_eq_nil (by simpa [text] using fun o => hview o c (.inl hc))
    | @comment body inside =>
      have hcode : codeFrom offset .start ('/' :: '/' :: body) =
          (offset, '/') :: (offset + 1, '/') :: codeFrom (offset + 1 + 1) .comment body := rfl
      rw [text, hcode, codeFrom_comment inside]
      simp [shown, hslash]
    | symbol s => rfl
    | integer hw => exact filterMap_codeFrom_eq_nil (hword fun c hc => .inr (hw.2 c hc))
    | @decimal whole fraction hw hf =>
      refine filterMap_codeFrom_eq_nil ?_
      rw [text, List.forall_mem_append, List.forall_mem_cons]
      exact ⟨hword fun c hc => .inr (hw.2 c hc), fun o => hview o '.' (.inr (.inr (by decide))),
        hword fun c hc => .inr (hf.2 c hc)⟩
    | @string value inside =>
      have hcode : codeFrom offset .start ('"' :: value ++ ['"']) =
          (offset, '"') :: codeFrom (offset + 1) .string (value ++ ['"']) := rfl
      rw [text, hcode, codeFrom_append, codeFrom_string inside, Mode.after_string inside]
      simp [codeFrom, Mode.isCode, shown, hquote]
    | keyword k =>
      exact filterMap_codeFrom_eq_nil (hword (forall_wordChar_of_isName (isName_word k)))
    | identifier hname =>
      exact filterMap_codeFrom_eq_nil (hword (forall_wordChar_of_isName hname))
  | @unexpected c hc =>
    cases hv : view (offset, c) <;> simp [text, codeFrom, Mode.start, Mode.isCode, shown, hv]
  | @openString body inside =>
    have hcode : codeFrom offset .start ('"' :: body) =
        (offset, '"') :: codeFrom (offset + 1) .string body := rfl
    rw [text, hcode, codeFrom_string inside]
    simp [shown, hquote]

/-- One piece further the automaton is fresh again. -/
theorem Mode.Fresh.after_piece (hm : mode.Fresh (piece.text ++ rest)) (h : piece.WellFormed)
    (hend : piece.EndsBefore rest) (hclosed : ¬ piece.IsOpen) :
    (mode.after piece.text).Fresh rest := by
  rw [(hm.of_append h.text_ne_nil).after_eq h.text_ne_nil]
  exact h.fresh_after hend hclosed

/-! ### Sources -/

theorem Mode.Fresh.after_pieces {ps qs : List Piece} (h : WellPlaced (ps ++ qs))
    (hclosed : ∀ piece ∈ ps, ¬ piece.IsOpen)
    (hm : mode.Fresh ((ps ++ qs).flatMap Piece.text)) :
    (mode.after (ps.flatMap Piece.text)).Fresh (qs.flatMap Piece.text) := by
  induction ps generalizing mode with
  | nil => exact hm
  | cons piece ps ih =>
    obtain ⟨hwell, hend, hlater⟩ := h
    obtain ⟨hpiece, hpieces⟩ := List.forall_mem_cons.1 hclosed
    rw [List.flatMap_cons, after_append]
    exact ih hlater hpieces (hm.after_piece hwell hend hpiece)

theorem filterMap_codeFrom_pieces (hview : Overlooks view) {ps : List Piece} (h : WellPlaced ps)
    (hm : mode.Fresh (ps.flatMap Piece.text)) (position : Position) :
    (codeFrom position.offset mode (ps.flatMap Piece.text)).filterMap view =
      (placedFrom position ps).flatMap fun item => item.piece.shown view item.position.offset := by
  induction ps generalizing mode position with
  | nil => rfl
  | cons piece ps ih =>
    obtain ⟨hwell, hend, hlater⟩ := h
    have hfresh : mode.Fresh piece.text := hm.of_append hwell.text_ne_nil
    rw [List.flatMap_cons, codeFrom_append, List.filterMap_append, hfresh.filterMap_codeFrom hview,
      hwell.filterMap_codeFrom hview, placedFrom_cons, List.flatMap_cons]
    congr 1
    by_cases hopen : piece.IsOpen
    · -- nothing is left after an open string
      obtain ⟨body, rfl⟩ := hopen
      obtain rfl : ps = [] := hlater.eq_nil hend
      rfl
    · exact ih hlater (hm.after_piece hwell hend hopen) (position.advance piece.text)

/-- A view of the characters of code is a view of the pieces. -/
theorem filterMap_codeOf (hview : Overlooks view) (source : Text) :
    (codeOf source).filterMap view =
      (placed source).flatMap fun item => item.piece.shown view item.position.offset := by
  have hpieces := filterMap_codeFrom_pieces hview (wellPlaced_pieces source)
    (Mode.fresh_start _) .start
  rwa [flatMap_text_pieces] at hpieces

end View

/-! ## What is foretold -/

section Source

variable {source : Text}

/-- An open string starts with a quote that no other follows, and it is the only one. -/
theorem exists_openString (h : ∃ piece ∈ pieces source, piece.IsOpen) :
    ∃ done inside, pieces source = done ++ [.fault .unterminatedString ('"' :: inside)] ∧
      '"' ∉ inside ∧ ∀ piece ∈ done, ¬ piece.IsOpen := by
  obtain ⟨done, body, hpieces, hdone⟩ := (wellPlaced_pieces source).exists_open h
  have hwell : (Piece.fault .unterminatedString body).WellFormed :=
    (wellPlaced_pieces source).wellFormed _ (by simp [hpieces])
  cases hwell with
  | lexical h => cases h
  | @openString inside hinside => exact ⟨done, inside, hpieces, hinside, hdone⟩

theorem modeAtEnd_closed (h : ∀ piece ∈ pieces source, ¬ piece.IsOpen) :
    modeAtEnd source ≠ .string := by
  have hwell : WellPlaced (pieces source ++ []) := by
    rw [List.append_nil]
    exact wellPlaced_pieces source
  have hfresh := (Mode.fresh_start _).after_pieces hwell h
  rw [flatMap_text_pieces, ← modeAtEnd] at hfresh
  intro hstring
  rw [hstring] at hfresh
  exact hfresh

/-- Where a string is open, its quote is read as code, and the source ends in the string. -/
theorem modeAtEnd_open {done : List Piece} {inside : Text}
    (hpieces : pieces source = done ++ [.fault .unterminatedString ('"' :: inside)])
    (hinside : '"' ∉ inside) (hdone : ∀ piece ∈ done, ¬ piece.IsOpen) :
    source = done.flatMap Piece.text ++ '"' :: inside ∧
      (modeAtEnd (done.flatMap Piece.text)).isCode = true ∧ modeAtEnd source = .string := by
  have hsource : source = done.flatMap Piece.text ++ '"' :: inside := by
    rw [← flatMap_text_pieces source, hpieces]
    simp [Piece.text]
  have hwell : WellPlaced (done ++ [.fault .unterminatedString ('"' :: inside)]) :=
    hpieces ▸ wellPlaced_pieces source
  have hfresh : (modeAtEnd (done.flatMap Piece.text)).Fresh ('"' :: inside) := by
    simpa [modeAtEnd, Piece.text] using (Mode.fresh_start _).after_pieces hwell hdone
  refine ⟨hsource, hfresh.isCode (by decide), ?_⟩
  rw [hsource, modeAtEnd, Mode.after_append, ← modeAtEnd, hfresh.after_eq (by simp)]
  exact Mode.after_string hinside

theorem modeAtEnd_eq_string_iff :
    modeAtEnd source = .string ↔ ∃ piece ∈ pieces source, piece.IsOpen := by
  constructor
  · intro hstring
    by_contra hclosed
    simp only [not_exists, not_and] at hclosed
    exact modeAtEnd_closed hclosed hstring
  · intro hopen
    obtain ⟨done, inside, hpieces, hinside, hdone⟩ := exists_openString hopen
    exact (modeAtEnd_open hpieces hinside hdone).2.2

theorem modeAtEnd_ne_string_iff :
    modeAtEnd source ≠ .string ↔ ∀ piece ∈ pieces source, ¬ piece.IsOpen := by
  rw [ne_eq, modeAtEnd_eq_string_iff]
  simp only [not_exists, not_and]

theorem endsOpen_iff_modeAtEnd (source : Text) :
    (tokenize source).EndsOpen ↔ modeAtEnd source = .string := by
  rw [endsOpen_tokenize, modeAtEnd_eq_string_iff]

/-! ### Reports -/

theorem OpensNothing.not_isScriptChar {c : Char} (h : OpensNothing c) : ¬ IsScriptChar c := by
  have hsymbols : ∀ d ∈ ['(', ')', '{', '}', ',', '.', '-', '+', ';', '*', '/', '!', '=', '<', '>'],
      Symbol.ofChar? d ≠ none := by
    simp [Symbol.ofChar?]
  rintro (hletter | hdigit | hspace | rfl | hsymbol)
  · exact h.not_letter hletter
  · exact h.not_digit hdigit
  · exact h.not_space hspace
  · exact h.ne_quote rfl
  · exact hsymbols c hsymbol h.no_symbol

theorem overlooks_unexpectedAt? : Overlooks unexpectedAt? := by
  have hmarks : ∀ d ∈ ['"', '/', '.'], IsScriptChar d := by
    simp [IsScriptChar]
  intro offset c h
  refine if_pos ?_
  rcases h with hspace | (hletter | hdigit) | hmark
  · exact .inr (.inr (.inl hspace))
  · exact .inl hletter
  · exact .inr (.inl hdigit)
  · exact hmarks c hmark

/-- Unless it is an open string, what is reported of a piece is what is foretold of it. -/
theorem shown_unexpectedAt? {piece : Piece} (h : piece.WellFormed) (hclosed : ¬ piece.IsOpen)
    (position : Position) :
    piece.shown unexpectedAt? position.offset =
      ((Placed.mk position piece).diagnostic?.map Diagnostic.report).toList := by
  cases h with
  | lexical h =>
    cases h with
    | symbol s =>
      have hscript : ∀ c ∈ s.spelling, IsScriptChar c := by
        cases s <;> simp [Symbol.spelling, IsScriptChar]
      exact filterMap_codeFrom_eq_nil fun c hc _ => if_pos (hscript c hc)
    | _ => rfl
  | @unexpected c hc =>
    have hview : unexpectedAt? (position.offset, c) =
        some (position.span [c], .unexpectedCharacter c) := if_neg hc.not_isScriptChar
    rw [Piece.shown, hview]
    rfl
  | openString => exact absurd ⟨_, rfl⟩ hclosed

theorem reports_placedFrom {ps : List Piece} (h : ∀ piece ∈ ps, piece.WellFormed)
    (hclosed : ∀ piece ∈ ps, ¬ piece.IsOpen) (position : Position) :
    ((placedFrom position ps).filterMap Placed.diagnostic?).map Diagnostic.report =
      (placedFrom position ps).flatMap fun item =>
        item.piece.shown unexpectedAt? item.position.offset := by
  induction ps generalizing position with
  | nil => rfl
  | cons piece ps ih =>
    obtain ⟨hwell, hlater⟩ := List.forall_mem_cons.1 h
    obtain ⟨hpiece, hpieces⟩ := List.forall_mem_cons.1 hclosed
    rw [placedFrom_cons, List.flatMap_cons, shown_unexpectedAt? hwell hpiece,
      ← ih hlater hpieces, List.filterMap_cons]
    cases (Placed.mk position piece).diagnostic? <;> rfl

theorem reports_closed (h : ∀ piece ∈ pieces source, ¬ piece.IsOpen) :
    (tokenize source).diagnostics.map Diagnostic.report =
      (codeOf source).filterMap unexpectedAt? := by
  rw [filterMap_codeOf overlooks_unexpectedAt?, tokenize_diagnostics]
  exact reports_placedFrom (wellPlaced_pieces source).wellFormed h .start

theorem reports_open {done : List Piece} {inside : Text}
    (hpieces : pieces source = done ++ [.fault .unterminatedString ('"' :: inside)])
    (hdone : ∀ piece ∈ done, ¬ piece.IsOpen) :
    (tokenize source).diagnostics.map Diagnostic.report =
      (codeOf source).filterMap unexpectedAt? ++
        [((Position.start.advance (done.flatMap Piece.text)).span ('"' :: inside),
          .unterminatedString)] := by
  have hwell : ∀ piece ∈ done, piece.WellFormed := fun piece hpiece =>
    (wellPlaced_pieces source).wellFormed piece (by simp [hpieces, hpiece])
  have hshown := reports_placedFrom hwell hdone .start
  rw [filterMap_codeOf overlooks_unexpectedAt?, tokenize_diagnostics, diagnosticsFrom, placed,
    hpieces, placedFrom_append, List.filterMap_append, List.map_append, hshown,
    List.flatMap_append, List.append_assoc]
  rfl

/-- The tokens of the first pieces start before the text of the later ones. -/
theorem start_lt_of_mem {ps : List Piece} (h : ∀ piece ∈ ps, piece.WellFormed)
    {position : Position} {token : Token}
    (htoken : token ∈ (placedFrom position ps).filterMap Placed.token?) :
    token.span.start < (position.advance (ps.flatMap Piece.text)).offset := by
  obtain ⟨⟨place, piece⟩, hitem, hpiece⟩ := List.mem_filterMap.1 htoken
  obtain ⟨before, later, rfl, rfl⟩ := mem_placedFrom hitem
  have hpos : 0 < byteLength piece.text := byteLength_pos (h piece (by simp)).text_ne_nil
  cases piece with
  | token kind lexeme =>
    obtain rfl := Option.some.inj hpiece
    simp only [Position.token, Position.span, Position.advance, List.flatMap_append,
      List.flatMap_cons, byteLength_append]
    omega
  | _ => cases hpiece

theorem isEnd_of_open {done : List Piece} {inside : Text}
    (hpieces : pieces source = done ++ [.fault .unterminatedString ('"' :: inside)])
    {token : Token} (htoken : token ∈ (tokenize source).tokens)
    (hstart : byteLength (done.flatMap Piece.text) ≤ token.span.start) : token.isEnd = true := by
  have hwell : ∀ piece ∈ done, piece.WellFormed := fun piece hpiece =>
    (wellPlaced_pieces source).wellFormed piece (by simp [hpieces, hpiece])
  rw [tokenize_tokens_eq_proper, proper_tokenize, placed, hpieces, placedFrom_append,
    List.filterMap_append] at htoken
  rcases List.mem_append.1 htoken with hproper | hend
  · rcases List.mem_append.1 hproper with hdone | hfault
    · have hlt := start_lt_of_mem hwell hdone
      simp only [Position.advance, Position.start] at hlt
      omega
    · cases hfault
  · rw [List.mem_singleton.1 hend]
    rfl

theorem invalidNumber_not_mem {diagnostic : Diagnostic}
    (h : diagnostic ∈ (tokenize source).diagnostics) (text : Text) :
    diagnostic.fault ≠ .invalidNumber text := by
  obtain ⟨before, body, after, -, -, hwell⟩ := exists_of_mem_diagnostics h
  intro hfault
  rw [hfault] at hwell
  cases hwell with
  | lexical h => cases h

/-- **What is reported is known character by character.** An automaton that knows no tokens foretells
    every diagnostic of a scan, with its place. -/
theorem foretold_tokenize (source : Text) : Foretold source (tokenize source) where
  endsOpen := endsOpen_iff_modeAtEnd source
  closed := by
    intro hstring
    exact reports_closed (modeAtEnd_ne_string_iff.1 hstring)
  opened := by
    intro hstring
    obtain ⟨done, inside, hpieces, hinside, hdone⟩ :=
      exists_openString (modeAtEnd_eq_string_iff.1 hstring)
    obtain ⟨hsource, hcode, -⟩ := modeAtEnd_open hpieces hinside hdone
    refine ⟨done.flatMap Piece.text, inside, hsource, hcode, hinside, ?_, ?_⟩
    · have hspan : (Position.start.advance (done.flatMap Piece.text)).span ('"' :: inside) =
          ⟨byteLength (done.flatMap Piece.text), byteLength source⟩ := by
        conv_rhs => rw [hsource, byteLength_append]
        simp [Position.span, Position.advance, Position.start]
      rw [← hspan]
      exact reports_open hpieces hdone
    · intro token htoken hstart
      exact isEnd_of_open hpieces htoken hstart
  numbers := by
    intro diagnostic hdiagnostic text
    exact invalidNumber_not_mem hdiagnostic text

end Source

/-- A quote behind a line that ends in a comment opens a string, and of the two strange characters
    the one in the comment is not reported. -/
theorem foretold_open_quote :
    modeAtEnd ['é', '/', '/', '§', '\n', '"', '€'] = .string ∧
      ∃ before inside, ['é', '/', '/', '§', '\n', '"', '€'] = before ++ '"' :: inside ∧
        '"' ∉ inside ∧
        (tokenize ['é', '/', '/', '§', '\n', '"', '€']).diagnostics.map Diagnostic.report =
          [(⟨0, 2⟩, .unexpectedCharacter 'é'), (⟨byteLength before, 11⟩, .unterminatedString)] := by
  have hstring : modeAtEnd ['é', '/', '/', '§', '\n', '"', '€'] = .string := by
    decide
  have hcode : (codeOf ['é', '/', '/', '§', '\n', '"', '€']).filterMap unexpectedAt? =
      [(⟨0, 2⟩, .unexpectedCharacter 'é')] := by
    decide
  obtain ⟨before, inside, hsource, -, hinside, hreports, -⟩ := (foretold_tokenize _).opened hstring
  rw [hcode] at hreports
  exact ⟨hstring, before, inside, hsource, hinside, hreports⟩

end ScriptLexer
