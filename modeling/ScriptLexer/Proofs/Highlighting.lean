import ScriptLexer.Proofs.ControlSequences
import ScriptLexer.Proofs.Offsets
import ScriptLexer.Proofs.Receivers

set_option autoImplicit false

/-! # Highlighting keeps the text

A highlighted source is its tokens, each in the style of its kind, and between them the gaps, of which
each may end in a dimmed comment (`Highlighted`). Put together by offsets, with a slice of the source
between the end of one token and the start of the next (`highlightByOffsets`), it is cut between
characters only, as tokens follow one another. So no character is lost or shown twice, and what is
added are control sequences, which come out again.
Main statement: `highlight_keeps_text`. -/

namespace ScriptLexer

/-! ## By offsets -/

/-- The segments of a gap between tokens: two slashes are looked for, and the gap is cut there unless
    a quote comes before them. -/
def gapByOffsets (gap : Text) : Except BadOffset (List Segment) :=
  match findText? ['/', '/'] gap with
  | none => return [.plain gap]
  | some place => do
    let (before, comment) ← cutAt gap place
    return if before.contains '"' then [.plain gap] else [.plain before, .dimmed comment]

/-- The segments of a source from a byte offset on, up to and between the tokens that follow it. -/
def highlightFrom (source : Text) (last : Nat) : List Token → Except BadOffset (List Segment)
  | [] => do
    let (_, gap) ← cutAt source last
    gapByOffsets gap
  | token :: later => do
    let gap ← sliceAt source last token.span.start
    let before ← gapByOffsets gap
    let after ← highlightFrom source token.span.stop later
    return before ++ token.kind.paint token.lexeme :: after

/-- The segments of a source, put together from the spans of its tokens. -/
def highlightByOffsets (source : Text) : Except BadOffset (List Segment) :=
  highlightFrom source 0 ((tokensOf source).filter (!·.isEnd))

/-! ## From left to right -/

/-- A text from a byte offset on as its tokens and the gaps around them, and the segments they make. -/
inductive Highlighted : Nat → List Token → Text → List Segment → Prop where
  | last (offset : Nat) (gap : Text) : Highlighted offset [] gap (gapSegments gap)
  | token {offset : Nat} (gap : Text) {token : Token} {later : List Token} {rest : Text}
    {segments : List Segment}
    (hspan : token.span =
      ⟨offset + byteLength gap, offset + byteLength gap + byteLength token.lexeme⟩)
    (h : Highlighted token.span.stop later rest segments) :
    Highlighted offset (token :: later) (gap ++ (token.lexeme ++ rest))
      (gapSegments gap ++ token.kind.paint token.lexeme :: segments)

/-- What a segment is that is made of a source with the given tokens and gaps. -/
inductive Segment.IsPartOf (source : Text) (tokens : List Token) (gaps : List Span) :
    Segment → Prop where
  | plain (text : Text) : IsPartOf source tokens gaps (.plain text)
  | token {token : Token} (h : token ∈ tokens) :
    IsPartOf source tokens gaps (token.kind.paint token.lexeme)
  | tail {gap : Span} {before comment : Text} (h : gap ∈ gaps)
    (hcut : gap.cut? source = some (before ++ comment)) :
    IsPartOf source tokens gaps (.dimmed comment)

theorem Segment.IsPartOf.mono {source : Text} {tokens tokens' : List Token} {gaps gaps' : List Span}
    {segment : Segment} (h : segment.IsPartOf source tokens gaps) (htokens : tokens ⊆ tokens')
    (hgaps : gaps ⊆ gaps') : segment.IsPartOf source tokens' gaps' := by
  cases h with
  | plain text => exact .plain text
  | token h => exact .token (htokens h)
  | tail h hcut => exact .tail (hgaps h) hcut

/-! ## Gaps -/

theorem gapByOffsets_eq (gap : Text) : gapByOffsets gap = .ok (gapSegments gap) := by
  have hcut := cutAt_append (splitAtSlashes gap).1 (splitAtSlashes gap).2
  rw [splitAtSlashes_append] at hcut
  rw [gapByOffsets, findText?_slashes, gapSegments]
  by_cases hcomment : (splitAtSlashes gap).2 = []
  · simp [hcomment]
    rfl
  · simp only [if_neg hcomment, hcut]
    simp [hcomment]

theorem isPartOf_gapSegments {source gap : Text} {tokens : List Token} {span : Span}
    {gaps : List Span} (hspan : span ∈ gaps) (hcut : span.cut? source = some gap) :
    ∀ segment ∈ gapSegments gap, segment.IsPartOf source tokens gaps := by
  intro segment hsegment
  simp only [gapSegments] at hsegment
  split at hsegment
  · rw [List.mem_singleton.1 hsegment]
    exact .plain gap
  · rw [← splitAtSlashes_append gap] at hcut
    rcases List.mem_pair.1 hsegment with rfl | rfl
    · exact .plain _
    · exact .tail hspan hcut

namespace Highlighted

variable {offset : Nat} {tokens : List Token} {text : Text} {segments : List Segment}

/-- All of the text is shown, once and in order. -/
theorem plainText_eq (h : Highlighted offset tokens text segments) : plainText segments = text := by
  induction h with
  | last offset gap => exact plainText_gapSegments gap
  | token gap hspan h ih =>
    rw [plainText_append, plainText_gapSegments, plainText_cons, ih]
    rfl

section Source

variable {source before : Text}

/-- The slices are gaps and the rest of the source, so every cut is made. -/
theorem highlightFrom_eq (h : Highlighted offset tokens text segments)
    (hsource : source = before ++ text) (hoffset : byteLength before = offset) :
    highlightFrom source offset tokens = .ok segments := by
  induction h generalizing before with
  | last offset gap =>
    subst hoffset hsource
    rw [highlightFrom, cutAt_append]
    exact gapByOffsets_eq gap
  | @token offset gap token later rest segments hspan h ih =>
    subst hoffset hsource
    have hslice := sliceAt_append before gap (token.lexeme ++ rest)
    have hlater := @ih (before ++ gap ++ token.lexeme) (by simp)
      (by rw [hspan, byteLength_append, byteLength_append])
    have hstart : token.span.start = byteLength (before ++ gap) := by
      rw [hspan, byteLength_append]
    rw [highlightFrom, hstart, hslice, hlater]
    show (gapByOffsets gap >>= _) = _
    rw [gapByOffsets_eq]
    rfl

theorem isPartOf (h : Highlighted offset tokens text segments)
    (hsource : source = before ++ text) (hoffset : byteLength before = offset) :
    ∀ segment ∈ segments, segment.IsPartOf source tokens
      (gapsBetween offset (byteLength source) (tokens.map Token.span)) := by
  induction h generalizing before with
  | last offset gap =>
    subst hoffset hsource
    have hcut := slice?_append before gap []
    rw [List.append_nil] at hcut
    refine isPartOf_gapSegments (List.mem_singleton_self _) ?_
    rwa [Span.cut?, byteLength_append]
  | @token offset gap token later rest segments hspan h ih =>
    subst hoffset hsource
    have hcut : Span.cut? (before ++ (gap ++ (token.lexeme ++ rest)))
        ⟨byteLength before, token.span.start⟩ = some gap := by
      rw [hspan]
      exact slice?_append before gap (token.lexeme ++ rest)
    have hlater := @ih (before ++ gap ++ token.lexeme) (by simp)
      (by rw [hspan, byteLength_append, byteLength_append])
    intro segment hsegment
    rcases List.mem_append.1 hsegment with hgap | hsegment
    · exact isPartOf_gapSegments List.mem_cons_self hcut segment hgap
    · rcases List.mem_cons.1 hsegment with rfl | hsegment
      · exact .token List.mem_cons_self
      · exact (hlater segment hsegment).mono (List.subset_cons_self _ _) (List.subset_cons_self _ _)

end Source

end Highlighted

/-! ## Highlighted sources -/

/-- The pieces of a text with the gap `pending` before them. -/
theorem highlighted_pieces (ps : List Piece) {offset : Nat} {pending : Text} {position : Position}
    (hposition : position.offset = offset + byteLength pending) :
    Highlighted offset ((placedFrom position ps).filterMap Placed.token?)
      (pending ++ ps.flatMap Piece.text)
      (gapSegments (pending ++ (tokensInGaps ps).1) ++
        (tokensInGaps ps).2.flatMap fun (token, after) => token :: gapSegments after) := by
  induction ps generalizing offset pending position with
  | nil => simpa [tokensInGaps] using Highlighted.last offset pending
  | cons piece ps ih =>
    have hadvance : (position.advance piece.text).offset =
        offset + byteLength (pending ++ piece.text) := by
      rw [Position.advance, hposition, byteLength_append, Nat.add_assoc]
    -- a piece that is no token makes the gap before the next one longer
    have hskip := ih hadvance
    rw [List.append_assoc, List.append_assoc] at hskip
    cases piece with
    | token kind lexeme =>
      have hspan : (position.token kind lexeme).span =
          ⟨offset + byteLength pending, offset + byteLength pending + byteLength lexeme⟩ := by
        rw [← hposition]
        rfl
      have hlater := @ih _ [] (position.advance lexeme) rfl
      have hgap : pending ++ (tokensInGaps (.token kind lexeme :: ps)).1 = pending :=
        List.append_nil pending
      rw [hgap]
      exact .token pending hspan hlater
    | separator c => exact hskip
    | comment body => exact hskip
    | fault fault body => exact hskip

theorem highlighted_highlightSource (source : Text) :
    Highlighted 0 (tokenize source).proper source (highlightSource source) := by
  have h := @highlighted_pieces (pieces source) 0 [] .start rfl
  rw [List.nil_append, flatMap_text_pieces] at h
  rw [proper_tokenize]
  exact h

theorem highlightByOffsets_eq (source : Text) :
    highlightByOffsets source = .ok (highlightSource source) := by
  have htokens : (tokensOf source).filter (!·.isEnd) = (tokenize source).proper := by
    rw [tokensOf, scanInto_tokens_eq, Scan.proper]
  rw [highlightByOffsets, htokens]
  exact (highlighted_highlightSource source).highlightFrom_eq (List.nil_append source).symm rfl

theorem plainText_highlightSource (source : Text) : plainText (highlightSource source) = source :=
  (highlighted_highlightSource source).plainText_eq

theorem plainText_highlight (line : Text) : plainText (highlight line) = line := by
  rw [highlight]
  split
  · exact List.append_nil line
  · exact plainText_highlightSource line

/-- **Highlighting keeps the text.** Put together by offsets, the segments of a line are found without
    any cut that fails. They are the tokens and gaps of the line in their order, and their texts are
    the line: each segment is plain, or a lexeme in the style of its token, or the dimmed end of a
    gap. So if the line has no escape character, it is what is left when control sequences are taken
    out again, of a command as well. -/
theorem highlight_keeps_text (line : Text) :
    highlightByOffsets line = .ok (highlightSource line) ∧
      Highlighted 0 (tokenize line).proper line (highlightSource line) ∧
      plainText (highlightSource line) = line ∧
      (∀ segment ∈ highlightSource line, segment.IsPartOf line (tokenize line).proper
        (gapsBetween 0 (byteLength line) ((tokenize line).proper.map Token.span))) ∧
      ('\x1b' ∉ line → withoutSequences (render (highlightSource line)) = line ∧
        withoutSequences (render (highlight line)) = line) := by
  have hshown := highlighted_highlightSource line
  refine ⟨highlightByOffsets_eq line, hshown, hshown.plainText_eq,
    hshown.isPartOf (List.nil_append line).symm rfl, ?_⟩
  intro hescape
  have hsource := plainText_highlightSource line
  have hline := plainText_highlight line
  constructor
  · rw [withoutSequences_render (by rwa [hsource]), hsource]
  · rw [withoutSequences_render (by rwa [hline]), hline]

/-- An operator, a gap, and a comment with a longer character in it. -/
theorem highlight_keeps_comment :
    '\x1b' ∉ ['=', ' ', '/', '/', 'é'] ∧
      highlightSource ['=', ' ', '/', '/', 'é'] =
        [.plain [], .coloured .cyan ['='], .plain [' '], .dimmed ['/', '/', 'é']] ∧
      withoutSequences (render (highlightSource ['=', ' ', '/', '/', 'é'])) =
        ['=', ' ', '/', '/', 'é'] ∧
      withoutSequences (render (highlight ['=', ' ', '/', '/', 'é'])) = ['=', ' ', '/', '/', 'é'] := by
  have hpieces : pieces ['=', ' ', '/', '/', 'é'] =
      [.token (.symbol .equal) ['='], .separator ' ', .comment ['/', '/', 'é']] := by
    rw [pieces_cons, show Piece.next '=' [' ', '/', '/', 'é'] =
        (.token (.symbol .equal) ['='], [' ', '/', '/', 'é']) from rfl, pieces_cons,
      show Piece.next ' ' ['/', '/', 'é'] = (.separator ' ', ['/', '/', 'é']) from rfl, pieces_cons,
      show Piece.next '/' ['/', 'é'] = (.comment ['/', '/', 'é'], []) from rfl, pieces_nil]
  have hescape : '\x1b' ∉ ['=', ' ', '/', '/', 'é'] := by decide
  have hsegments : highlightSource ['=', ' ', '/', '/', 'é'] =
      [.plain [], .coloured .cyan ['='], .plain [' '], .dimmed ['/', '/', 'é']] := by
    rw [highlightSource, hpieces]
    rfl
  exact ⟨hescape, hsegments, (highlight_keeps_text _).2.2.2.2 hescape⟩

end ScriptLexer
