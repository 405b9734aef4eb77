import ScriptLexer.Proofs.Reports

set_option autoImplicit false

/-! # Where the caret stands

Under the line of a snippet there is a caret, behind as many blanks as the characters above it have
bytes. A blank is one character, so the caret stands below the character that is meant exactly if all
characters before that one on its line have one byte; each longer one moves the caret to the right.
Main statement: `caret_below_iff_oneByte`. -/

namespace ScriptLexer

/-! ## What the statement speaks of -/

/-- What a reader sees on a line of a report: the part of the line of the source before the character
    that is meant, and before that part a gutter. -/
def Reporter.ShowsPlace (reporter : Reporter) (diagnostic : Diagnostic) (line : List Segment)
    (gutter left : Text) : Prop :=
  ∃ snippet opener right,
    snippet? reporter.source diagnostic.span.start = some snippet ∧
    splitAtByte? snippet.text snippet.column = some (left, opener :: right) ∧
    diagnostic.fault.ShownAt opener ∧ plainText line = gutter ++ left ++ opener :: right

/-- What a reader sees before the caret on a line of a report. -/
def HasCaret (line : List Segment) (indent : Text) : Prop :=
  '^' ∉ indent ∧ ∃ label, plainText line = indent ++ '^' :: label

/-- What stands before the character that is meant on the second line of a report, and before the
    caret on the third. -/
def Reporter.PlacesCaret (reporter : Reporter) (diagnostic : Diagnostic)
    (gutter left indent : Text) : Prop :=
  ∃ first second third, reporter.lines diagnostic = [first, second, third] ∧
    reporter.ShowsPlace diagnostic second gutter left ∧ HasCaret third indent

/-! ## Characters and bytes -/

/-- No text has more characters than bytes. -/
theorem length_le_byteLength (text : Text) : text.length ≤ byteLength text := by
  induction text with
  | nil => exact Nat.le_refl 0
  | cons c text ih =>
    have := Char.utf8Size_pos c
    rw [List.length_cons, byteLength_cons]
    omega

theorem byteLength_eq_length_iff {text : Text} :
    byteLength text = text.length ↔ ∀ c ∈ text, c.utf8Size = 1 := by
  induction text with
  | nil => simp
  | cons c text ih =>
    have hpos := Char.utf8Size_pos c
    have hle := length_le_byteLength text
    rw [List.forall_mem_cons, ← ih, byteLength_cons, List.length_cons]
    omega

theorem byteLength_gutter (snippet : Snippet) :
    byteLength (Reporter.gutter snippet) = (Reporter.gutter snippet).length := by
  rw [byteLength_eq_length_iff]
  intro c hc
  rcases Reporter.mem_gutter hc with rfl | rfl | hdigit
  · rfl
  · rfl
  · exact utf8Size_of_digit hdigit

/-! ## The place of the caret -/

theorem exists_caretLabel (diagnostic : Diagnostic) (line : Nat) :
    ∃ label, caretLabel diagnostic line = '^' :: label := by
  rw [caretLabel]
  split
  · exact ⟨"--- Here.".toList, rfl⟩
  · exact ⟨"--- String starts here.".toList, rfl⟩

theorem hasCaret_iff {diagnostic : Diagnostic} {snippet : Snippet} {indent : Text} :
    HasCaret (Reporter.caretLine diagnostic snippet) indent ↔
      indent = List.replicate (byteLength (Reporter.gutter snippet) + snippet.column) ' ' := by
  obtain ⟨label, hlabel⟩ := exists_caretLabel diagnostic snippet.number
  have hblank : ∀ n, '^' ∉ List.replicate n ' ' := by
    intro n hmem
    exact absurd (List.eq_of_mem_replicate hmem) (by decide)
  rw [HasCaret, Reporter.plainText_caretLine, hlabel]
  constructor
  · rintro ⟨hcaret, label', hline⟩
    exact (append_mark_inj (hblank _) hcaret hline).1.symm
  · rintro rfl
    exact ⟨hblank _, label, rfl⟩

/-- A report of a scan has one gutter and one place, and before its caret there is a blank for each
    byte of them. -/
theorem placesCaret_iff {reporter : Reporter} {diagnostic : Diagnostic}
    (hfound : diagnostic ∈ (tokenize reporter.source).diagnostics) :
    ∃ snippet before, ∀ gutter left indent,
      reporter.PlacesCaret diagnostic gutter left indent ↔
        gutter = Reporter.gutter snippet ∧ left = before ∧
          indent = List.replicate (byteLength (gutter ++ left)) ' ' := by
  obtain ⟨number, before, opener, right, hsnippet, -, hshown, -⟩ := exists_snippet hfound
  refine ⟨⟨number, before ++ opener :: right, byteLength before⟩, before, ?_⟩
  intro gutter left indent
  have hlines := reporter.lines_eq diagnostic hsnippet
  constructor
  · rintro ⟨first, second, third, hlines', ⟨snippet, opener', right', hsnippet', hsplit, -, hplace⟩,
      hcaret⟩
    rw [hlines] at hlines'
    obtain ⟨-, rfl, rfl, -⟩ : _ ∧ _ ∧ _ ∧ True := by simpa using hlines'
    rw [hsnippet] at hsnippet'
    obtain rfl := Option.some.inj hsnippet'
    rw [splitAtByte?_append] at hsplit
    obtain ⟨rfl, hrest⟩ := Prod.mk.inj (Option.some.inj hsplit)
    rw [Reporter.plainText_sourceLine, ← hrest, List.append_assoc] at hplace
    obtain rfl := List.append_cancel_right hplace
    refine ⟨rfl, rfl, ?_⟩
    rw [byteLength_append]
    exact hasCaret_iff.1 hcaret
  · rintro ⟨rfl, rfl, rfl⟩
    refine ⟨_, _, _, hlines, ⟨_, opener, right, hsnippet, splitAtByte?_append _ _, hshown, ?_⟩, ?_⟩
    · rw [Reporter.plainText_sourceLine, List.append_assoc]
    · rw [hasCaret_iff, byteLength_append]

theorem Reporter.PlacesCaret.unique {reporter : Reporter} {diagnostic : Diagnostic}
    {gutter left indent gutter' left' indent' : Text}
    (hfound : diagnostic ∈ (tokenize reporter.source).diagnostics)
    (h : reporter.PlacesCaret diagnostic gutter left indent)
    (h' : reporter.PlacesCaret diagnostic gutter' left' indent') :
    gutter = gutter' ∧ left = left' ∧ indent = indent' := by
  obtain ⟨snippet, before, hplaces⟩ := placesCaret_iff hfound
  obtain ⟨rfl, rfl, rfl⟩ := (hplaces _ _ _).1 h
  obtain ⟨rfl, rfl, rfl⟩ := (hplaces _ _ _).1 h'
  exact ⟨rfl, rfl, rfl⟩

/-- Without control sequences the printed lines are what a reader sees, unless the source has some of
    its own. -/
theorem withoutSequences_lines {reporter : Reporter} {diagnostic : Diagnostic}
    (hfound : diagnostic ∈ (tokenize reporter.source).diagnostics) (hsource : '\x1b' ∉ reporter.source) :
    ∀ line ∈ (reporter.lines diagnostic).tail, withoutSequences (render line) = plainText line := by
  obtain ⟨number, before, opener, right, hsnippet, -⟩ := exists_snippet hfound
  rw [reporter.lines_eq diagnostic hsnippet, List.tail_cons, List.forall_mem_cons,
    List.forall_mem_singleton]
  constructor
  · apply withoutSequences_render
    rw [Reporter.plainText_sourceLine, List.mem_append, not_or]
    exact ⟨Reporter.not_mem_gutter (by decide), fun hmem => hsource (mem_of_mem_snippet hsnippet hmem)⟩
  · apply withoutSequences_render
    rw [Reporter.plainText_caretLine, List.mem_append, not_or]
    constructor
    · intro hmem
      exact absurd (List.eq_of_mem_replicate hmem) (by decide)
    · rw [caretLabel]
      split <;> decide

/-- **The caret is below the character behind characters of one byte.** In the report of a diagnostic
    of a scan, colours taken away, there is one place of the character that is meant and one of the
    caret. The caret is never to the left of the character, and it is right below it exactly if the
    characters before that one on its line have one byte each. -/
theorem caret_below_iff_oneByte (reporter : Reporter) (diagnostic : Diagnostic)
    (hfound : diagnostic ∈ (tokenize reporter.source).diagnostics) :
    (∃ gutter left indent, reporter.PlacesCaret diagnostic gutter left indent) ∧
      (∀ gutter left indent, reporter.PlacesCaret diagnostic gutter left indent →
        (gutter ++ left).length ≤ indent.length ∧
          (indent.length = (gutter ++ left).length ↔ ∀ c ∈ left, c.utf8Size = 1)) ∧
      ('\x1b' ∉ reporter.source → ∀ line ∈ (reporter.lines diagnostic).tail,
        withoutSequences (render line) = plainText line) := by
  obtain ⟨snippet, before, hplaces⟩ := placesCaret_iff hfound
  refine ⟨⟨_, _, _, (hplaces _ _ _).2 ⟨rfl, rfl, rfl⟩⟩, ?_, withoutSequences_lines hfound⟩
  intro gutter left indent hcaret
  obtain ⟨rfl, rfl, rfl⟩ := (hplaces _ _ _).1 hcaret
  have hgutter := byteLength_gutter snippet
  have hleft := length_le_byteLength left
  rw [List.length_replicate, ← byteLength_eq_length_iff, byteLength_append, List.length_append, hgutter]
  omega

/-- Long characters on an earlier line do not move the caret. -/
theorem caret_below_on_second_line :
    ⟨2, ⟨4, 5⟩, .unexpectedCharacter '@'⟩ ∈ (tokenize ['é', '\n', '-', '@']).diagnostics ∧
      Reporter.PlacesCaret ⟨['é', '\n', '-', '@'], none, 0⟩
        ⟨2, ⟨4, 5⟩, .unexpectedCharacter '@'⟩ "    2 | ".toList ['-'] (List.replicate 9 ' ') ∧
      (List.replicate 9 ' ').length = ("    2 | ".toList ++ ['-']).length := by
  have hpieces : pieces ['é', '\n', '-', '@'] =
      [.fault (.unexpectedCharacter 'é') ['é'], .separator '\n', .token (.symbol .minus) ['-'],
        .fault (.unexpectedCharacter '@') ['@']] := by
    rw [pieces_cons, show Piece.next 'é' ['\n', '-', '@'] =
        (.fault (.unexpectedCharacter 'é') ['é'], ['\n', '-', '@']) from rfl, pieces_cons,
      show Piece.next '\n' ['-', '@'] = (.separator '\n', ['-', '@']) from rfl, pieces_cons,
      show Piece.next '-' ['@'] = (.token (.symbol .minus) ['-'], ['@']) from rfl, pieces_cons,
      show Piece.next '@' [] = (.fault (.unexpectedCharacter '@') ['@'], []) from rfl, pieces_nil]
  have hfound : ⟨2, ⟨4, 5⟩, .unexpectedCharacter '@'⟩ ∈
      (tokenize ['é', '\n', '-', '@']).diagnostics := by
    rw [tokenize_diagnostics, diagnosticsFrom, hpieces]
    exact List.mem_cons_of_mem _ (List.mem_singleton_self _)
  have hplaces : Reporter.PlacesCaret ⟨['é', '\n', '-', '@'], none, 0⟩
      ⟨2, ⟨4, 5⟩, .unexpectedCharacter '@'⟩ "    2 | ".toList ['-'] (List.replicate 9 ' ') :=
    ⟨_, _, _, rfl, ⟨_, _, _, rfl, rfl, .character '@', rfl⟩, by decide, _, rfl⟩
  refine ⟨hfound, hplaces, ?_⟩
  have hbelow := ((caret_below_iff_oneByte _ _ hfound).2.1 _ _ _ hplaces).2
  exact hbelow.2 (List.forall_mem_singleton.2 rfl)

/-- Behind an accented letter in a string the caret is one place too far to the right. -/
theorem caret_right_of_accent :
    ⟨1, ⟨4, 5⟩, .unexpectedCharacter '@'⟩ ∈ (tokenize ['"', 'é', '"', '@']).diagnostics ∧
      Reporter.PlacesCaret ⟨['"', 'é', '"', '@'], none, 0⟩
        ⟨1, ⟨4, 5⟩, .unexpectedCharacter '@'⟩ "    1 | ".toList ['"', 'é', '"']
        (List.replicate 12 ' ') ∧
      ("    1 | ".toList ++ ['"', 'é', '"']).length = 11 ∧
      ¬ ∃ gutter left indent, Reporter.PlacesCaret ⟨['"', 'é', '"', '@'], none, 0⟩
        ⟨1, ⟨4, 5⟩, .unexpectedCharacter '@'⟩ gutter left indent ∧
        indent.length = (gutter ++ left).length := by
  have hpieces : pieces ['"', 'é', '"', '@'] =
      [.token (.string ['é']) ['"', 'é', '"'], .fault (.unexpectedCharacter '@') ['@']] := by
    rw [pieces_cons, show Piece.next '"' ['é', '"', '@'] =
        (.token (.string ['é']) ['"', 'é', '"'], ['@']) from rfl, pieces_cons,
      show Piece.next '@' [] = (.fault (.unexpectedCharacter '@') ['@'], []) from rfl, pieces_nil]
  have hfound : ⟨1, ⟨4, 5⟩, .unexpectedCharacter '@'⟩ ∈
      (tokenize ['"', 'é', '"', '@']).diagnostics := by
    rw [tokenize_diagnostics, diagnosticsFrom, hpieces]
    exact List.mem_singleton_self _
  have hplaces : Reporter.PlacesCaret ⟨['"', 'é', '"', '@'], none, 0⟩
      ⟨1, ⟨4, 5⟩, .unexpectedCharacter '@'⟩ "    1 | ".toList ['"', 'é', '"']
      (List.replicate 12 ' ') :=
    ⟨_, _, _, rfl, ⟨_, _, _, rfl, rfl, .character '@', rfl⟩, by decide, _, rfl⟩
  refine ⟨hfound, hplaces, rfl, ?_⟩
  rintro ⟨gutter, left, indent, hcaret, hlength⟩
  obtain ⟨rfl, rfl, rfl⟩ := hplaces.unique hfound hcaret
  exact absurd hlength (by decide)

end ScriptLexer
