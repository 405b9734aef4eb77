import Mathlib.Data.List.Sort
import ScriptLexer.Proofs.Grammar
import ScriptLexer.Proofs.Placement

set_option autoImplicit false

/-! # Scans lose nothing

The tokens and the diagnostics of a scan lie one after another in the source. What is left between
them is blanks and comments (`IsGap`), so that the source can be put together again from the gaps and
from what the spans cut out. All of that is read off one derivation, `Tiling`, which goes through the
source from left to right and which every scan has (`tiling_spansFrom`). Main statement:
`lossless_tokenize`. -/

namespace ScriptLexer

/-! ## What the statement speaks of -/

/-- An offset between two characters of a text, or at one of its ends. -/
def IsBoundary (text : Text) (offset : Nat) : Prop :=
  ∃ before after, text = before ++ after ∧ byteLength before = offset

/-- Blanks and comments before the given text. A comment goes on up to a line feed or to the end of
    the source. -/
inductive IsGap : Text → Text → Prop where
  | nil {rest : Text} : IsGap [] rest
  | blank {c : Char} {gap rest : Text} (h : IsSpace c) (later : IsGap gap rest) :
    IsGap (c :: gap) rest
  | comment {body gap rest : Text} (h : '\n' ∉ body) (stop : ∀ c ∈ (gap ++ rest).head?, c = '\n')
    (later : IsGap gap rest) : IsGap ('/' :: '/' :: (body ++ gap)) rest

/-- Whether a span starts before another or at the same byte. -/
def Span.startsBefore (a b : Span) : Bool :=
  a.start ≤ b.start

/-- The spans of proper tokens and of diagnostics, merged by their starts. -/
def Scan.spans (scan : Scan) : List Span :=
  (scan.proper.map Token.span ++ scan.diagnostics.map Diagnostic.span).mergeSort
    Span.startsBefore

/-- The stretches that spans leave between two offsets. -/
def gapsBetween (start stop : Nat) : List Span → List Span
  | [] => [⟨start, stop⟩]
  | span :: later => ⟨start, span.start⟩ :: gapsBetween span.stop stop later

/-- Spans and the stretches between them, in turn. -/
def tilesBetween (start stop : Nat) : List Span → List Span
  | [] => [⟨start, stop⟩]
  | span :: later => ⟨start, span.start⟩ :: span :: tilesBetween span.stop stop later

/-- The text that a span cuts out. -/
def Span.cut? (source : Text) (span : Span) : Option Text :=
  slice? source span.start span.stop

/-- Every byte of a source is accounted for by a scan. -/
structure Lossless (source : Text) (scan : Scan) : Prop where
  nonempty : ∀ span ∈ scan.spans, span.start < span.stop
  ordered : scan.spans.Pairwise fun a b => a.stop ≤ b.start
  boundaries : ∀ span ∈ scan.spans, IsBoundary source span.start ∧ IsBoundary source span.stop
  /-- A token has the text that its span cuts out. -/
  lexemes : ∀ token ∈ scan.tokens, token.span.cut? source = some token.lexeme
  /-- The value of a string is cut out between its quotes. -/
  values : ∀ token ∈ scan.tokens, ∀ value, token.kind = .string value →
    slice? source (token.span.start + 1) (token.span.stop - 1) = some value
  /-- A character that is reported is the one that its span cuts out. -/
  characters : ∀ diagnostic ∈ scan.diagnostics, ∀ c, diagnostic.fault = .unexpectedCharacter c →
    diagnostic.span.cut? source = some [c]
  /-- The bytes that no span covers are in the stretches between them. -/
  covered : ∀ offset < byteLength source,
    ∃ span ∈ scan.spans ++ gapsBetween 0 (byteLength source) scan.spans,
      span.start ≤ offset ∧ offset < span.stop
  /-- Those stretches are blanks and comments. -/
  gaps : ∀ gap ∈ gapsBetween 0 (byteLength source) scan.spans, ∃ before text after,
    source = before ++ text ++ after ∧ byteLength before = gap.start ∧
      byteLength (before ++ text) = gap.stop ∧ IsGap text after
  /-- Put together in turn, the stretches and the texts of the spans are the source. -/
  rebuilt : ((tilesBetween 0 (byteLength source) scan.spans).mapM (Span.cut? source)).map
    List.flatten = some source
  /-- One token marks the end, and it comes last. -/
  ends : ∃ line, scan.tokens = scan.proper ++
    [⟨.endOfInput, [], line, ⟨byteLength source, byteLength source⟩⟩]
  /-- There are no more tokens and diagnostics than characters. -/
  bounded : scan.proper.length + scan.diagnostics.length ≤ source.length

/-! ## From left to right -/

/-- A text in which the given spans and gaps follow one another, from a byte offset on. -/
inductive Tiling : Nat → Text → List Span → Prop where
  | last {offset : Nat} {gap : Text} (h : IsGap gap []) : Tiling offset gap []
  | item {offset : Nat} {gap text rest : Text} {spans : List Span} (hgap : IsGap gap (text ++ rest))
    (hne : text ≠ []) (later : Tiling (offset + byteLength gap + byteLength text) rest spans) :
    Tiling offset (gap ++ (text ++ rest))
      (⟨offset + byteLength gap, offset + byteLength gap + byteLength text⟩ :: spans)

theorem byteLength_pos {text : Text} (h : text ≠ []) : 0 < byteLength text :=
  Nat.pos_of_ne_zero fun hz => h (byteLength_eq_zero_iff.1 hz)

theorem IsGap.append {a b rest : Text} (ha : IsGap a (b ++ rest)) (hb : IsGap b rest) :
    IsGap (a ++ b) rest := by
  generalize hr : b ++ rest = following at ha
  induction ha with
  | nil => exact hb
  | blank h later ih => exact .blank h (ih hr)
  | comment h stop later ih =>
    subst hr
    rw [List.cons_append, List.cons_append, List.append_assoc]
    exact .comment h (by rwa [List.append_assoc]) (ih rfl)

namespace Tiling

variable {offset : Nat} {text : Text} {spans : List Span}

theorem prepend {gap : Text} (hgap : IsGap gap text)
    (h : Tiling (offset + byteLength gap) text spans) : Tiling offset (gap ++ text) spans := by
  generalize ho : offset + byteLength gap = from' at h
  cases h with
  | last hlast => exact .last (.append (by rwa [List.append_nil]) hlast)
  | item hgap' hne later =>
    subst ho
    rw [← List.append_assoc, Nat.add_assoc offset, ← byteLength_append]
    rw [Nat.add_assoc offset, ← byteLength_append] at later
    exact .item (.append hgap hgap') hne later

theorem bounds (h : Tiling offset text spans) :
    ∀ span ∈ spans, offset ≤ span.start ∧ span.start < span.stop ∧
      span.stop ≤ offset + byteLength text := by
  induction h with
  | last => simp
  | @item offset gap text rest spans hgap hne later ih =>
    have hpos := byteLength_pos hne
    intro span hspan
    simp only [byteLength_append]
    rcases List.mem_cons.1 hspan with rfl | hspan
    · refine ⟨?_, ?_, ?_⟩ <;> simp only <;> omega
    · obtain ⟨h1, h2, h3⟩ := ih span hspan
      omega

theorem pairwise (h : Tiling offset text spans) : spans.Pairwise fun a b => a.stop ≤ b.start := by
  induction h with
  | last => exact .nil
  | item hgap hne later ih => exact .cons (fun span hspan => (later.bounds span hspan).1) ih

/-- Where the spans are, relative to the text. -/
theorem exists_part (h : Tiling offset text spans) :
    ∀ span ∈ spans, ∃ before part after, text = before ++ (part ++ after) ∧
      offset + byteLength before = span.start ∧
      offset + byteLength before + byteLength part = span.stop := by
  induction h with
  | last => simp
  | @item offset gap text rest spans hgap hne later ih =>
    intro span hspan
    rcases List.mem_cons.1 hspan with rfl | hspan
    · exact ⟨gap, text, rest, rfl, rfl, rfl⟩
    · obtain ⟨before, part, after, rfl, hstart, hstop⟩ := ih span hspan
      refine ⟨gap ++ text ++ before, part, after, by simp, ?_, ?_⟩ <;>
        simp only [byteLength_append] <;> omega

/-- Where the gaps are, relative to the text. -/
theorem exists_gap (h : Tiling offset text spans) :
    ∀ gap ∈ gapsBetween offset (offset + byteLength text) spans,
      ∃ before part after, text = before ++ part ++ after ∧
        offset + byteLength before = gap.start ∧
        offset + byteLength (before ++ part) = gap.stop ∧ IsGap part after := by
  induction h with
  | @last offset gap h =>
    intro g hg
    obtain rfl := List.mem_singleton.1 hg
    exact ⟨[], gap, [], by simp, rfl, rfl, h⟩
  | @item offset gap text rest spans hgap hne later ih =>
    intro g hg
    rcases List.mem_cons.1 hg with rfl | hg
    · exact ⟨[], gap, text ++ rest, by simp, rfl, rfl, hgap⟩
    · rw [byteLength_append, byteLength_append, ← Nat.add_assoc, ← Nat.add_assoc] at hg
      obtain ⟨before, part, after, rfl, hstart, hstop, hpart⟩ := ih g hg
      refine ⟨gap ++ text ++ before, part, after, by simp, ?_, ?_, hpart⟩ <;>
        simp only [byteLength_append] at hstop ⊢ <;> omega

theorem covered (h : Tiling offset text spans) :
    ∀ i, offset ≤ i → i < offset + byteLength text →
      ∃ span ∈ spans ++ gapsBetween offset (offset + byteLength text) spans,
        span.start ≤ i ∧ i < span.stop := by
  induction h with
  | @last offset gap h =>
    intro i hle hlt
    exact ⟨⟨offset, offset + byteLength gap⟩, by simp [gapsBetween], hle, hlt⟩
  | @item offset gap text rest spans hgap hne later ih =>
    intro i hle hlt
    simp only [byteLength_append, ← Nat.add_assoc] at hlt ⊢
    by_cases hin : i < offset + byteLength gap
    · exact ⟨⟨offset, offset + byteLength gap⟩, by simp [gapsBetween], hle, hin⟩
    by_cases hitem : i < offset + byteLength gap + byteLength text
    · exact ⟨_, List.mem_append_left _ List.mem_cons_self, Nat.le_of_not_lt hin, hitem⟩
    · obtain ⟨span, hspan, hcover⟩ := ih i (Nat.le_of_not_lt hitem) hlt
      refine ⟨span, ?_, hcover⟩
      simp only [gapsBetween, List.mem_append, List.mem_cons] at hspan ⊢
      tauto

theorem length_le (h : Tiling offset text spans) : spans.length ≤ text.length := by
  induction h with
  | last => simp
  | item hgap hne later ih =>
    have hpos := List.length_pos_iff.2 hne
    simp only [List.length_cons, List.length_append]
    omega

/-- The spans and the gaps cut the text into its parts. -/
theorem rebuilt (h : Tiling offset text spans) {source before : Text}
    (hsource : source = before ++ text) (hoffset : byteLength before = offset) :
    ((tilesBetween offset (byteLength source) spans).mapM (Span.cut? source)).map List.flatten =
      some text := by
  induction h generalizing before with
  | @last offset gap h =>
    subst hoffset hsource
    have hcut := slice?_append before gap []
    simp only [List.append_nil] at hcut
    simp [tilesBetween, Span.cut?, hcut]
  | @item offset gap text rest spans hgap hne later ih =>
    subst hoffset hsource
    have hgapcut := slice?_append before gap (text ++ rest)
    have hcut := slice?_append (before ++ gap) text rest
    have hlater := @ih (before ++ gap ++ text) (by simp) (by simp [Nat.add_assoc])
    obtain ⟨parts, hparts, hflat⟩ := Option.map_eq_some_iff.1 hlater
    simp only [byteLength_append, List.append_assoc] at hcut hparts
    simp [tilesBetween, Span.cut?, hgapcut, hcut, hparts, hflat]

end Tiling

/-! ## The spans of a scan -/

/-- The span of a placed token or fault. -/
def Placed.span? (placed : Placed) : Option Span :=
  match placed.piece with
  | .separator _ | .comment _ => none
  | .token _ text | .fault _ text => some (placed.position.span text)

theorem isGap_separator {c : Char} {rest : Text} (h : (Piece.separator c).WellFormed) :
    IsGap [c] rest := by
  cases h with
  | lexical h =>
    cases h with
    | separator hc => exact .blank hc .nil

theorem isGap_comment {body rest : Text} (h : (Piece.comment body).WellFormed)
    (hend : (Piece.comment body).EndsBefore rest) : IsGap body rest := by
  cases h with
  | lexical h =>
    cases h with
    | @comment body inside =>
      rw [← List.append_nil body]
      exact .comment inside hend .nil

/-- A part of the text that stands right at its start. -/
theorem Tiling.item_first {offset : Nat} {text rest : Text} {spans : List Span} (hne : text ≠ [])
    (later : Tiling (offset + byteLength text) rest spans) :
    Tiling offset (text ++ rest) (⟨offset, offset + byteLength text⟩ :: spans) :=
  .item .nil hne later

/-- Well-placed pieces tile their text. -/
theorem tiling_spansFrom {ps : List Piece} (h : WellPlaced ps) (position : Position) :
    Tiling position.offset (ps.flatMap Piece.text)
      ((placedFrom position ps).filterMap Placed.span?) := by
  induction ps generalizing position with
  | nil => exact .last .nil
  | cons piece ps ih =>
    obtain ⟨hwell, hend, hlater⟩ := h
    have later := ih hlater (position.advance piece.text)
    cases piece with
    | separator c => exact later.prepend (isGap_separator hwell)
    | comment body => exact later.prepend (isGap_comment hwell hend)
    | token kind lexeme => exact .item_first hwell.text_ne_nil later
    | fault fault body => exact .item_first hwell.text_ne_nil later

/-! ### One list from two -/

theorem spans_perm (items : List Placed) :
    ((items.filterMap Placed.token?).map Token.span ++
      (items.filterMap Placed.diagnostic?).map Diagnostic.span).Perm
        (items.filterMap Placed.span?) := by
  induction items with
  | nil => exact .nil
  | cons item items ih =>
    obtain ⟨position, piece⟩ := item
    cases piece with
    | separator c => exact ih
    | comment body => exact ih
    | token kind lexeme => exact ih.cons _
    | fault fault body => exact List.perm_middle.trans (ih.cons _)

/-- Spans that lie one after another are in the order of their starts. -/
theorem mergeSort_eq {spans merged : List Span} (hperm : spans.Perm merged)
    (hne : ∀ span ∈ merged, span.start < span.stop)
    (hord : merged.Pairwise fun a b => a.stop ≤ b.start) :
    spans.mergeSort Span.startsBefore = merged := by
  have hstrict : merged.Pairwise fun a b => a.start < b.start :=
    hord.imp_of_mem fun ha _ hab => (hne _ ha).trans_le hab
  have hnodup : (merged.map Span.start).Nodup :=
    List.pairwise_map.2 (hstrict.imp Nat.ne_of_lt)
  have hsorted : (spans.mergeSort Span.startsBefore).Pairwise fun a b => a.startsBefore b = true :=
    List.pairwise_mergeSort (by simpa [Span.startsBefore] using fun _ _ _ => Nat.le_trans)
      (by simpa [Span.startsBefore] using fun _ _ => Nat.le_total _ _) spans
  have hperm' := (List.mergeSort_perm spans Span.startsBefore).trans hperm
  -- the starts are all different, so the order leaves no choice
  refine List.Perm.eq_of_pairwise (fun a b ha hb hab hba => ?_) hsorted
    (hstrict.imp fun h => by simpa [Span.startsBefore] using h.le) hperm'
  simp only [Span.startsBefore, decide_eq_true_eq] at hab hba
  exact List.inj_on_of_nodup_map hnodup (hperm'.mem_iff.1 ha) hb (Nat.le_antisymm hab hba)

theorem spans_tokenize (source : Text) :
    (tokenize source).spans = (placed source).filterMap Placed.span? := by
  have htiling := tiling_spansFrom (wellPlaced_pieces source) .start
  rw [Scan.spans, proper_tokenize, tokenize_diagnostics]
  exact mergeSort_eq (spans_perm _) (fun span hspan => (htiling.bounds span hspan).2.1)
    htiling.pairwise

/-! ## Nothing is lost -/

/-- Where a piece of a source is. -/
theorem exists_of_mem_placed {source : Text} {item : Placed} (h : item ∈ placed source) :
    ∃ before after, source = before ++ (item.piece.text ++ after) ∧
      item.position = Position.start.advance before ∧ item.piece.WellFormed := by
  obtain ⟨done, later, hpieces, hposition⟩ := mem_placedFrom h
  obtain ⟨hwell, -⟩ := WellPlaced.of_append (hpieces ▸ wellPlaced_pieces source)
  refine ⟨done.flatMap Piece.text, later.flatMap Piece.text, ?_, hposition, hwell⟩
  rw [← flatMap_text_pieces source, hpieces, List.flatMap_append, List.flatMap_cons]

theorem exists_of_mem_proper {source : Text} {token : Token}
    (h : token ∈ (tokenize source).proper) :
    ∃ before after, source = before ++ (token.lexeme ++ after) ∧
      token.span = (Position.start.advance before).span token.lexeme ∧
      (Piece.token token.kind token.lexeme).WellFormed := by
  rw [proper_tokenize] at h
  obtain ⟨⟨position, piece⟩, hmem, htoken⟩ := List.mem_filterMap.1 h
  obtain ⟨before, after, hsource, rfl, hwell⟩ := exists_of_mem_placed hmem
  cases piece with
  | token kind lexeme =>
    obtain rfl := Option.some.inj htoken
    exact ⟨before, after, hsource, rfl, hwell⟩
  | _ => cases htoken

theorem exists_of_mem_diagnostics {source : Text} {diagnostic : Diagnostic}
    (h : diagnostic ∈ (tokenize source).diagnostics) :
    ∃ before text after, source = before ++ (text ++ after) ∧
      diagnostic.span = (Position.start.advance before).span text ∧
      (Piece.fault diagnostic.fault text).WellFormed := by
  rw [tokenize_diagnostics] at h
  obtain ⟨⟨position, piece⟩, hmem, hdiagnostic⟩ := List.mem_filterMap.1 h
  obtain ⟨before, after, hsource, rfl, hwell⟩ := exists_of_mem_placed hmem
  cases piece with
  | fault fault text =>
    obtain rfl := Option.some.inj hdiagnostic
    exact ⟨before, text, after, hsource, rfl, hwell⟩
  | _ => cases hdiagnostic

theorem cut?_span (before text after : Text) :
    ((Position.start.advance before).span text).cut? (before ++ (text ++ after)) = some text := by
  simpa [Span.cut?, Position.span, Position.advance, Position.start] using
    slice?_append before text after

theorem cut?_token {source : Text} {token : Token} (h : token ∈ (tokenize source).tokens) :
    token.span.cut? source = some token.lexeme := by
  rw [tokenize_tokens_eq_proper] at h
  rcases List.mem_append.1 h with h | h
  · obtain ⟨before, after, hsource, hspan, -⟩ := exists_of_mem_proper h
    rw [hspan]
    conv_lhs => rw [hsource]
    exact cut?_span before token.lexeme after
  · rw [List.mem_singleton.1 h, endToken_eq]
    simpa [Span.cut?] using slice?_append source [] []

theorem slice?_value {source : Text} {token : Token} {value : Text}
    (h : token ∈ (tokenize source).tokens) (hkind : token.kind = .string value) :
    slice? source (token.span.start + 1) (token.span.stop - 1) = some value := by
  rw [tokenize_tokens_eq_proper] at h
  rcases List.mem_append.1 h with h | h
  · obtain ⟨before, after, hsource, hspan, hwell⟩ := exists_of_mem_proper h
    rw [hkind] at hwell
    generalize token.lexeme = lexeme at *
    cases hwell with
    | lexical hlex =>
      cases hlex with
      | string inside =>
        have hquote : byteLength ['"'] = 1 := rfl
        have hlexeme : byteLength ('"' :: value ++ ['"']) = byteLength value + 2 := by
          rw [List.cons_append, ← List.singleton_append, byteLength_append, byteLength_append,
            hquote]
          omega
        have hstart : token.span.start + 1 = byteLength (before ++ ['"']) := by
          rw [hspan, byteLength_append, hquote]
          simp [Position.span, Position.advance, Position.start]
        have hstop : token.span.stop - 1 = byteLength (before ++ ['"']) + byteLength value := by
          rw [hspan, byteLength_append, hquote]
          simp only [Position.span, Position.advance, Position.start, hlexeme]
          omega
        rw [hstart, hstop, hsource]
        simpa using slice?_append (before ++ ['"']) value ('"' :: after)
  · rw [List.mem_singleton.1 h, endToken_eq] at hkind
    cases hkind

theorem lossless_tokenize (source : Text) : Lossless source (tokenize source) := by
  have htiling : Tiling 0 source (tokenize source).spans := by
    have h := tiling_spansFrom (wellPlaced_pieces source) .start
    rw [flatMap_text_pieces] at h
    rwa [spans_tokenize]
  exact {
    nonempty := fun span hspan => (htiling.bounds span hspan).2.1
    ordered := htiling.pairwise
    boundaries := by
      intro span hspan
      obtain ⟨before, part, after, hsource, hstart, hstop⟩ := htiling.exists_part span hspan
      exact ⟨⟨before, part ++ after, hsource, by omega⟩,
        ⟨before ++ part, after, by simp [hsource], by rw [byteLength_append]; omega⟩⟩
    lexemes := fun token => cut?_token
    values := fun token htoken value => slice?_value htoken
    characters := by
      intro diagnostic hdiagnostic c hc
      obtain ⟨before, text, after, hsource, hspan, hwell⟩ := exists_of_mem_diagnostics hdiagnostic
      rw [hc] at hwell
      rw [hspan]
      cases hwell with
      | lexical h => cases h
      | unexpected h =>
        conv_lhs => rw [hsource]
        exact cut?_span before [c] after
    covered := by
      intro offset hlt
      have h := htiling.covered offset (Nat.zero_le _) (by simpa using hlt)
      rwa [Nat.zero_add] at h
    gaps := by
      intro gap hgap
      have h := htiling.exists_gap gap (by rwa [Nat.zero_add])
      simpa only [Nat.zero_add] using h
    rebuilt := htiling.rebuilt (List.nil_append source).symm rfl
    ends := ⟨_, by rw [← endToken_eq]; exact tokenize_tokens_eq_proper source⟩
    bounded := by
      have h := htiling.length_le
      rw [Scan.spans, List.length_mergeSort, List.length_append] at h
      simpa using h }

end ScriptLexer
