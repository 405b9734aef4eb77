import ScriptLexer.Proofs.Highlighting
import ScriptLexer.Proofs.LineBoundary

set_option autoImplicit false

/-! # What is dimmed

Between two tokens of a highlighted source lies a gap, and where it is dimmed is found by looking for
two slashes in its text. That agrees with the scan as far as comments begin: what can stand in a gap
before its first comment has no slash in it, or has a quote before it
(`gapSegments_comment`, `gapSegments_of_no_comment`). Dimming ends with the gap and not with the
comment, however. So of all characters those are dimmed that stand between the start of a comment and
the next token (`marks_segmentsOf`), and line feeds are among them unless the comment ends the source.
Main statements: `comments_dimmed`, `dimmed_until_token`. -/

namespace ScriptLexer

/-! ## What the statements speak of -/

/-- Whether a piece is a token. -/
def Piece.isToken : Piece → Bool
  | .token _ _ => true
  | _ => false

/-- Whether a piece is a comment. -/
def Piece.isComment : Piece → Bool
  | .comment _ => true
  | _ => false

/-- The text of several pieces. -/
def textOf (ps : List Piece) : Text :=
  ps.flatMap Piece.text

/-- A stretch without a token that cannot be longer: it lies before the first token, between two
    tokens, or after the last one. -/
structure IsTokenGap (ps done gap later : List Piece) : Prop where
  split : ps = done ++ (gap ++ later)
  inside : ∀ piece ∈ gap, piece.isToken = false
  start : ∀ piece ∈ done.getLast?, piece.isToken = true
  stop : ∀ piece ∈ later.head?, piece.isToken = true

/-- Whether a segment is dimmed. -/
def Segment.isDimmed (segment : Segment) : Bool :=
  segment.style.contains .dimmed

section Marks

variable {α : Type} (text : α → Text) (p : α → Bool)

/-- For each character of a text in parts, whether its part is of the given sort. -/
def marks (parts : List α) : List Bool :=
  parts.flatMap fun part => List.replicate (text part).length (p part)

@[simp]
theorem marks_nil : marks text p [] = [] := rfl

@[simp]
theorem marks_cons (part : α) (parts : List α) :
    marks text p (part :: parts) =
      List.replicate (text part).length (p part) ++ marks text p parts := rfl

@[simp]
theorem marks_append (a b : List α) : marks text p (a ++ b) = marks text p a ++ marks text p b := by
  simp [marks]

theorem length_marks (parts : List α) :
    (marks text p parts).length = (parts.flatMap text).length := by
  induction parts with
  | nil => rfl
  | cons part parts ih => simp [ih]

end Marks

/-- Whether a character is shown dimmed, where characters are numbered from zero. -/
def IsDimmedAt (segments : List Segment) (index : Nat) : Prop :=
  (marks Segment.text Segment.isDimmed segments)[index]? = some true

/-- Whether a character of a source belongs to a comment. -/
def IsCommentAt (source : Text) (index : Nat) : Prop :=
  (marks Piece.text Piece.isComment (pieces source))[index]? = some true

/-! ## Gaps one after another -/

@[simp]
theorem textOf_nil : textOf [] = [] := rfl

@[simp]
theorem textOf_cons (piece : Piece) (later : List Piece) :
    textOf (piece :: later) = piece.text ++ textOf later := rfl

@[simp]
theorem textOf_append (a b : List Piece) : textOf (a ++ b) = textOf a ++ textOf b := by
  simp [textOf]

/-- The segments of pieces: each token in its style, with the gaps around it. -/
def segmentsOf (ps : List Piece) : List Segment :=
  gapSegments (tokensInGaps ps).1 ++
    (tokensInGaps ps).2.flatMap fun (token, after) => token :: gapSegments after

theorem highlightSource_eq (source : Text) : highlightSource source = segmentsOf (pieces source) :=
  rfl

theorem plainText_segmentsOf (ps : List Piece) : plainText (segmentsOf ps) = textOf ps :=
  (@highlighted_pieces ps 0 [] .start rfl).plainText_eq

theorem tokensInGaps_gap {gap : List Piece} (h : ∀ piece ∈ gap, piece.isToken = false) :
    tokensInGaps gap = (textOf gap, []) := by
  induction gap with
  | nil => rfl
  | cons piece gap ih =>
    obtain ⟨hpiece, hgap⟩ := List.forall_mem_cons.1 h
    cases piece with
    | token kind lexeme => cases hpiece
    | _ => simp [tokensInGaps, ih hgap]

theorem tokensInGaps_token (before : List Piece) (kind : Kind) (lexeme : Text)
    (later : List Piece) :
    tokensInGaps (before ++ .token kind lexeme :: later) =
      ((tokensInGaps before).1,
        (tokensInGaps before).2 ++
          (kind.paint lexeme, (tokensInGaps later).1) :: (tokensInGaps later).2) := by
  induction before with
  | nil => rfl
  | cons piece before ih => cases piece <;> simp [tokensInGaps, ih]

/-- A stretch without tokens is one gap. -/
theorem segmentsOf_gap {gap : List Piece} (h : ∀ piece ∈ gap, piece.isToken = false) :
    segmentsOf gap = gapSegments (textOf gap) := by
  simp [segmentsOf, tokensInGaps_gap h]

/-- Around a token the pieces are shown apart. -/
theorem segmentsOf_token (before : List Piece) (kind : Kind) (lexeme : Text) (later : List Piece) :
    segmentsOf (before ++ .token kind lexeme :: later) =
      segmentsOf before ++ kind.paint lexeme :: segmentsOf later := by
  simp [segmentsOf, tokensInGaps_token]

theorem Piece.exists_of_isToken {piece : Piece} (h : piece.isToken = true) :
    ∃ kind lexeme, piece = .token kind lexeme := by
  cases piece with
  | token kind lexeme => exact ⟨kind, lexeme, rfl⟩
  | _ => cases h

/-- A gap is shown by itself, between what is shown before it and after it. -/
theorem IsTokenGap.exists_segments {ps done gap later : List Piece}
    (h : IsTokenGap ps done gap later) :
    ∃ before after, segmentsOf ps = before ++ (gapSegments (textOf gap) ++ after) ∧
      plainText before = textOf done ∧ plainText after = textOf later := by
  have hlater : ∃ after, segmentsOf (gap ++ later) = gapSegments (textOf gap) ++ after ∧
      plainText after = textOf later := by
    cases later with
    | nil => exact ⟨[], by simp [segmentsOf_gap h.inside], rfl⟩
    | cons piece later =>
      obtain ⟨kind, lexeme, rfl⟩ := Piece.exists_of_isToken (h.stop piece rfl)
      refine ⟨kind.paint lexeme :: segmentsOf later, ?_, ?_⟩
      · rw [segmentsOf_token, segmentsOf_gap h.inside]
      · rw [plainText_cons, plainText_segmentsOf]
        rfl
  obtain ⟨after, hsegments, hafter⟩ := hlater
  rcases List.eq_nil_or_concat' done with rfl | ⟨done, piece, rfl⟩
  · exact ⟨[], after, by rw [h.split, List.nil_append, hsegments]; rfl, rfl, hafter⟩
  · obtain ⟨kind, lexeme, rfl⟩ := Piece.exists_of_isToken (h.start piece (by simp))
    refine ⟨segmentsOf done ++ [kind.paint lexeme], after, ?_, ?_, hafter⟩
    · rw [h.split, List.append_assoc, List.singleton_append, segmentsOf_token, hsegments]
      simp
    · rw [plainText_append, plainText_segmentsOf, textOf_append]
      simp [plainText, Kind.paint, Piece.text]

/-- Pieces fall into gaps and tokens. -/
theorem gapInduction {motive : List Piece → Prop}
    (last : ∀ gap, (∀ piece ∈ gap, piece.isToken = false) → motive gap)
    (token : ∀ gap kind lexeme later, (∀ piece ∈ gap, piece.isToken = false) → motive later →
      motive (gap ++ .token kind lexeme :: later)) (ps : List Piece) : motive ps := by
  -- the gap that is under way is kept apart from the pieces that are left
  have hpending : ∀ gap, (∀ piece ∈ gap, piece.isToken = false) → motive (gap ++ ps) := by
    induction ps with
    | nil =>
      intro gap hgap
      rw [List.append_nil]
      exact last gap hgap
    | cons piece ps ih =>
      intro gap hgap
      cases htoken : piece.isToken with
      | true =>
        obtain ⟨kind, lexeme, rfl⟩ := Piece.exists_of_isToken htoken
        exact token gap kind lexeme ps hgap (ih [] (by simp))
      | false =>
        have hlonger := ih (gap ++ [piece]) (by
          rw [List.forall_mem_append]
          exact ⟨hgap, by simpa using htoken⟩)
        rwa [List.append_assoc, List.singleton_append] at hlonger
  exact hpending [] (by simp)

/-! ## Where a gap is dimmed -/

section Slashes

variable {before : Text}

theorem splitAtSlashes_append_of_no_slash (h : '/' ∉ before) (rest : Text) :
    splitAtSlashes (before ++ rest) =
      (before ++ (splitAtSlashes rest).1, (splitAtSlashes rest).2) := by
  induction before with
  | nil => rfl
  | cons c before ih =>
    rw [List.mem_cons, not_or] at h
    have hc : ¬ (c = '/' ∧ (before ++ rest).head? = some '/') := fun hslash => h.1 hslash.1.symm
    rw [List.cons_append, splitAtSlashes, if_neg hc, ih h.2]
    rfl

/-- Two slashes behind neither a slash nor a quote are where dimming starts. -/
theorem gapSegments_slashes (hslash : '/' ∉ before) (hquote : '"' ∉ before) (rest : Text) :
    gapSegments (before ++ '/' :: '/' :: rest) = [.plain before, .dimmed ('/' :: '/' :: rest)] := by
  have hsplit : splitAtSlashes ('/' :: '/' :: rest) = ([], '/' :: '/' :: rest) := rfl
  simp [gapSegments, splitAtSlashes_append_of_no_slash hslash, hsplit, hquote]

theorem gapSegments_of_no_slash (h : '/' ∉ before) : gapSegments before = [.plain before] := by
  have hsplit := splitAtSlashes_append_of_no_slash h []
  rw [List.append_nil] at hsplit
  simp [gapSegments, hsplit, splitAtSlashes]

/-- Slashes behind a quote stay as they are. -/
theorem gapSegments_quote (h : '/' ∉ before) (rest : Text) :
    gapSegments (before ++ '"' :: rest) = [.plain (before ++ '"' :: rest)] := by
  have hsplit : (splitAtSlashes ('"' :: rest)).1 = '"' :: (splitAtSlashes rest).1 := rfl
  simp [gapSegments, splitAtSlashes_append_of_no_slash h, hsplit]

end Slashes

/-- What is neither a token nor a comment nor an open string has no slash and no quote. -/
theorem Piece.WellFormed.no_slash_no_quote {piece : Piece} (h : piece.WellFormed)
    (htoken : piece.isToken = false) (hcomment : piece.isComment = false)
    (hclosed : ¬ piece.IsOpen) : '/' ∉ piece.text ∧ '"' ∉ piece.text := by
  cases h with
  | lexical h =>
    cases h with
    | separator hc => rcases hc with rfl | rfl | rfl | rfl <;> decide
    | comment => cases hcomment
    | _ => cases htoken
  | @unexpected c hc =>
    have hslash : '/' ≠ c := by
      rintro rfl
      exact absurd hc.no_symbol (by decide)
    have hquote : '"' ≠ c := Ne.symm hc.ne_quote
    simp [Piece.text, hslash, hquote]
  | openString => exact absurd ⟨_, rfl⟩ hclosed

section Gap

variable {gap clear rest later : List Piece} {body : Text}

/-- Before another piece there is no open string. -/
theorem WellPlaced.no_slash_no_quote (h : WellPlaced (clear ++ later)) (hlater : later ≠ [])
    (htoken : ∀ piece ∈ clear, piece.isToken = false)
    (hcomment : ∀ piece ∈ clear, piece.isComment = false) :
    '/' ∉ textOf clear ∧ '"' ∉ textOf clear := by
  induction clear with
  | nil => simp
  | cons piece clear ih =>
    obtain ⟨hpieceToken, hclearToken⟩ := List.forall_mem_cons.1 htoken
    obtain ⟨hpieceComment, hclearComment⟩ := List.forall_mem_cons.1 hcomment
    obtain ⟨hwell, hend, hrest⟩ := h
    have hclosed : ¬ piece.IsOpen := by
      rintro ⟨text, rfl⟩
      exact hlater (List.append_eq_nil_iff.1 (hrest.eq_nil hend)).2
    obtain ⟨hslash, hquote⟩ := hwell.no_slash_no_quote hpieceToken hpieceComment hclosed
    obtain ⟨hslashes, hquotes⟩ := ih hrest hclearToken hclearComment
    simp [hslash, hquote, hslashes, hquotes]

theorem Piece.WellFormed.exists_quote (h : (Piece.fault .unterminatedString body).WellFormed) :
    ∃ inside, body = '"' :: inside := by
  cases h with
  | lexical h => cases h
  | @openString inside => exact ⟨inside, rfl⟩

/-- A gap is dimmed from its first comment on. -/
theorem gapSegments_comment (h : WellPlaced (clear ++ .comment body :: rest ++ later))
    (htoken : ∀ piece ∈ clear, piece.isToken = false)
    (hcomment : ∀ piece ∈ clear, piece.isComment = false) :
    gapSegments (textOf (clear ++ .comment body :: rest)) =
      [.plain (textOf clear), .dimmed (body ++ textOf rest)] := by
  rw [List.append_assoc] at h
  obtain ⟨hslash, hquote⟩ := h.no_slash_no_quote (by simp) htoken hcomment
  obtain ⟨inside, rfl, -⟩ := h.of_append.1.exists_comment
  rw [textOf_append, textOf_cons]
  exact gapSegments_slashes hslash hquote (inside ++ textOf rest)

/-- A gap without a comment is not dimmed. -/
theorem gapSegments_of_no_comment (h : WellPlaced (gap ++ later))
    (htoken : ∀ piece ∈ gap, piece.isToken = false)
    (hcomment : ∀ piece ∈ gap, piece.isComment = false) :
    gapSegments (textOf gap) = [.plain (textOf gap)] := by
  by_cases hopen : ∃ piece ∈ gap, piece.IsOpen
  · obtain ⟨piece, hpiece, body, rfl⟩ := hopen
    obtain ⟨clear, rest, rfl⟩ := List.append_of_mem hpiece
    rw [List.append_assoc, List.cons_append] at h
    have hclear : ∀ piece ∈ clear, piece ∈ clear ++ .fault .unterminatedString body :: rest :=
      fun piece => List.mem_append_left _
    obtain ⟨hslash, -⟩ := h.no_slash_no_quote (by simp) (fun piece hp => htoken piece (hclear piece hp))
      (fun piece hp => hcomment piece (hclear piece hp))
    obtain ⟨inside, rfl⟩ := h.of_append.1.exists_quote
    rw [textOf_append, textOf_cons]
    exact gapSegments_quote hslash (inside ++ textOf rest)
  · apply gapSegments_of_no_slash
    rw [textOf, List.mem_flatMap]
    rintro ⟨piece, hpiece, hslash⟩
    have hwell := h.wellFormed piece (List.mem_append_left _ hpiece)
    exact (hwell.no_slash_no_quote (htoken piece hpiece) (hcomment piece hpiece)
      fun hp => hopen ⟨piece, hpiece, hp⟩).1 hslash

/-- The first comment of a gap. -/
theorem exists_first_comment (h : ∃ piece ∈ gap, piece.isComment = true) :
    ∃ clear body rest, gap = clear ++ .comment body :: rest ∧
      ∀ piece ∈ clear, piece.isComment = false := by
  induction gap with
  | nil => simp at h
  | cons piece gap ih =>
    cases piece with
    | comment body => exact ⟨[], body, gap, rfl, by simp⟩
    | _ =>
      obtain ⟨clear, body, rest, rfl, hclear⟩ := ih (by simpa [Piece.isComment] using h)
      exact ⟨_ :: clear, body, rest, rfl, List.forall_mem_cons.2 ⟨rfl, hclear⟩⟩

end Gap

/-! ## From a comment up to a token -/

/-- Whether a piece is dimmed, if `dimming` says so of the text before it: a comment starts dimming and
    a token ends it. -/
def Piece.dims (dimming : Bool) : Piece → Bool
  | .token _ _ => false
  | .comment _ => true
  | .separator _ | .fault _ _ => dimming

/-- For each character of several pieces, whether it is dimmed. -/
def dimmedFrom : Bool → List Piece → List Bool
  | _, [] => []
  | dimming, piece :: later =>
    List.replicate piece.text.length (piece.dims dimming) ++
      dimmedFrom (piece.dims dimming) later

section Dimmed

variable {ps gap later : List Piece} {dimming : Bool}

theorem length_dimmedFrom (dimming : Bool) (ps : List Piece) :
    (dimmedFrom dimming ps).length = (textOf ps).length := by
  induction ps generalizing dimming with
  | nil => rfl
  | cons piece ps ih => simp [dimmedFrom, ih]

theorem dimmedFrom_append (dimming : Bool) (a b : List Piece) :
    dimmedFrom dimming (a ++ b) =
      dimmedFrom dimming a ++ dimmedFrom (a.foldl Piece.dims dimming) b := by
  induction a generalizing dimming with
  | nil => rfl
  | cons piece a ih => simp [dimmedFrom, ih]

theorem dimmedFrom_same (h : ∀ piece ∈ ps, piece.dims dimming = dimming) :
    dimmedFrom dimming ps = List.replicate (textOf ps).length dimming := by
  induction ps with
  | nil => rfl
  | cons piece ps ih =>
    obtain ⟨hpiece, hps⟩ := List.forall_mem_cons.1 h
    simp [dimmedFrom, hpiece, ih hps]

theorem Piece.dims_eq_self {piece : Piece} (htoken : piece.isToken = false)
    (hcomment : piece.isComment = false) (dimming : Bool) : piece.dims dimming = dimming := by
  cases piece with
  | token kind lexeme => cases htoken
  | comment body => cases hcomment
  | _ => rfl

theorem Piece.dims_true {piece : Piece} (h : piece.isToken = false) : piece.dims true = true := by
  cases piece with
  | token kind lexeme => cases h
  | _ => rfl

/-- A gap is dimmed from its first comment up to its end. -/
theorem marks_gapSegments (h : WellPlaced (gap ++ later))
    (htoken : ∀ piece ∈ gap, piece.isToken = false) :
    marks Segment.text Segment.isDimmed (gapSegments (textOf gap)) = dimmedFrom false gap := by
  by_cases hexists : ∃ piece ∈ gap, piece.isComment = true
  · obtain ⟨clear, body, rest, rfl, hcomment⟩ := exists_first_comment hexists
    rw [List.forall_mem_append, List.forall_mem_cons] at htoken
    obtain ⟨hclear, -, hrest⟩ := htoken
    have hbefore : dimmedFrom false clear = List.replicate (textOf clear).length false :=
      dimmedFrom_same fun piece hp => (Piece.dims_eq_self (hclear piece hp) (hcomment piece hp) _)
    have hafter : dimmedFrom true rest = List.replicate (textOf rest).length true :=
      dimmedFrom_same fun piece hp => Piece.dims_true (hrest piece hp)
    rw [gapSegments_comment h hclear hcomment, dimmedFrom_append, hbefore, dimmedFrom,
      Piece.dims, hafter]
    simp [Segment.isDimmed, Segment.plain, Segment.dimmed, Piece.text]
  · have hcomment : ∀ piece ∈ gap, piece.isComment = false := by
      simpa using hexists
    rw [gapSegments_of_no_comment h htoken hcomment,
      dimmedFrom_same fun piece hp => Piece.dims_eq_self (htoken piece hp) (hcomment piece hp) _]
    simp [Segment.isDimmed, Segment.plain]

theorem isDimmed_paint {kind : Kind} {lexeme : Text} (h : (Piece.token kind lexeme).WellFormed) :
    (kind.paint lexeme).isDimmed = false := by
  cases h with
  | lexical h =>
    cases h with
    | symbol s => cases s <;> rfl
    | _ => rfl

/-- The characters that are shown dimmed are those from a comment up to a token. -/
theorem marks_segmentsOf (h : WellPlaced ps) :
    marks Segment.text Segment.isDimmed (segmentsOf ps) = dimmedFrom false ps := by
  induction ps using gapInduction with
  | last gap htoken =>
    rw [← List.append_nil gap] at h
    rw [segmentsOf_gap htoken]
    exact marks_gapSegments h htoken
  | token gap kind lexeme later htoken ih =>
    obtain ⟨hwell, -, hlater⟩ := h.of_append
    rw [segmentsOf_token, segmentsOf_gap htoken, marks_append, marks_cons, ih hlater,
      marks_gapSegments h htoken, isDimmed_paint hwell, dimmedFrom_append]
    rfl

/-- Comments are dimmed, whatever comes before them. -/
theorem getElem?_dimmedFrom_of_comment {index : Nat} (ps : List Piece) (dimming : Bool)
    (h : (marks Piece.text Piece.isComment ps)[index]? = some true) :
    (dimmedFrom dimming ps)[index]? = some true := by
  induction ps generalizing dimming index with
  | nil => simp at h
  | cons piece ps ih =>
    rw [marks_cons, List.getElem?_append] at h
    rw [dimmedFrom, List.getElem?_append]
    simp only [List.length_replicate] at h ⊢
    by_cases hindex : index < piece.text.length
    · rw [if_pos hindex, List.getElem?_replicate, if_pos hindex] at h ⊢
      cases piece with
      | comment body => rfl
      | _ => cases h
    · rw [if_neg hindex] at h ⊢
      exact ih _ h

/-- Without anything behind a comment only comments are dimmed. -/
theorem dimmedFrom_eq_marks (h : ∀ done body later, ps = done ++ .comment body :: later → later = []) :
    dimmedFrom false ps = marks Piece.text Piece.isComment ps := by
  induction ps with
  | nil => rfl
  | cons piece ps ih =>
    have hlater := ih fun done body later hps => h (piece :: done) body later (by rw [hps]; rfl)
    cases piece with
    | comment body =>
      obtain rfl := h [] body ps rfl
      rfl
    | _ => rw [dimmedFrom, Piece.dims, hlater]; rfl

/-- Behind a comment a line feed comes first. -/
theorem WellPlaced.newline_of_comment {body : Text} {piece : Piece}
    (h : WellPlaced (.comment body :: piece :: later)) : piece = .separator '\n' := by
  obtain ⟨-, hend, hwell, hpieceEnd, -⟩ := h
  obtain ⟨c, text, htext, hnext⟩ := Piece.next_append hwell hpieceEnd
  obtain rfl : c = '\n' := hend c (by simp [htext])
  rw [Piece.next_separator (by decide)] at hnext
  exact (congrArg Prod.fst hnext).symm

/-- That line feed is dimmed, and it does not belong to the comment. -/
theorem exists_dimmed_not_comment {done : List Piece} {body : Text} {piece : Piece}
    (h : WellPlaced (done ++ .comment body :: piece :: later)) :
    ∃ index : Nat,
      (dimmedFrom false (done ++ .comment body :: piece :: later))[index]? = some true ∧
      (marks Piece.text Piece.isComment (done ++ .comment body :: piece :: later))[index]? =
        some false := by
  obtain rfl := h.of_append.newline_of_comment
  rw [← List.singleton_append, ← List.append_assoc, dimmedFrom_append, marks_append]
  refine ⟨(textOf (done ++ [.comment body])).length, ?_, ?_⟩
  · rw [List.getElem?_append_right (by rw [length_dimmedFrom]), length_dimmedFrom, Nat.sub_self,
      List.foldl_append]
    rfl
  · rw [List.getElem?_append_right (by rw [length_marks]; rfl), length_marks, ← textOf,
      Nat.sub_self]
    rfl

end Dimmed

/-! ## Comments and what is dimmed -/

theorem isDimmedAt_iff {source : Text} {index : Nat} :
    IsDimmedAt (highlightSource source) index ↔
      (dimmedFrom false (pieces source))[index]? = some true := by
  rw [IsDimmedAt, highlightSource_eq, marks_segmentsOf (wellPlaced_pieces source)]

/-- How a gap of a source is shown, beside what the scan found in it. -/
structure IsShownGap (source : Text) (done gap later : List Piece) : Prop where
  /-- The gap is shown by itself, behind what comes before it. -/
  shown : ∃ before after,
    highlightSource source = before ++ (gapSegments (textOf gap) ++ after) ∧
      plainText before = textOf done ∧ plainText after = textOf later
  /-- It is found by its text alone what is dimmed. -/
  byOffsets : gapByOffsets (textOf gap) = .ok (gapSegments (textOf gap))
  /-- Some of it is dimmed exactly if the scan passed over a comment there. -/
  dimmed_iff : (∃ segment ∈ gapSegments (textOf gap), segment.isDimmed = true) ↔
    ∃ piece ∈ gap, piece.isComment = true
  /-- That is the text from the two slashes of the first comment on. -/
  first : ∀ clear body rest, gap = clear ++ .comment body :: rest →
    (∀ piece ∈ clear, piece.isComment = false) → ['/', '/'] <+: body ∧
      gapSegments (textOf gap) = [.plain (textOf clear), .dimmed (body ++ textOf rest)]

section Source

variable {source : Text} {done gap later : List Piece}

theorem IsTokenGap.wellPlaced (h : IsTokenGap (pieces source) done gap later) :
    WellPlaced (gap ++ later) :=
  (h.split ▸ wellPlaced_pieces source).of_append

theorem IsTokenGap.isShownGap (h : IsTokenGap (pieces source) done gap later) :
    IsShownGap source done gap later where
  shown := h.exists_segments
  byOffsets := gapByOffsets_eq (textOf gap)
  dimmed_iff := by
    constructor
    · rintro ⟨segment, hsegment, hdimmed⟩
      by_contra hnone
      have hcomment : ∀ piece ∈ gap, piece.isComment = false := by
        simpa using hnone
      rw [gapSegments_of_no_comment h.wellPlaced h.inside hcomment] at hsegment
      obtain rfl := List.mem_singleton.1 hsegment
      cases hdimmed
    · intro hexists
      obtain ⟨clear, body, rest, rfl, hcomment⟩ := exists_first_comment hexists
      have hclear := (List.forall_mem_append.1 h.inside).1
      rw [gapSegments_comment h.wellPlaced hclear hcomment]
      exact ⟨_, List.mem_cons_of_mem _ (List.mem_singleton_self _), rfl⟩
  first := by
    rintro clear body rest rfl hcomment
    have hwell := h.wellPlaced
    refine ⟨?_, gapSegments_comment hwell (List.forall_mem_append.1 h.inside).1 hcomment⟩
    rw [List.append_assoc] at hwell
    obtain ⟨inside, rfl, -⟩ := hwell.of_append.1.exists_comment
    exact ⟨inside, rfl⟩

/-- At the start of a gap nothing is dimmed yet. -/
theorem IsTokenGap.foldl_dims {ps : List Piece} (h : IsTokenGap ps done gap later) :
    done.foldl Piece.dims false = false := by
  rcases List.eq_nil_or_concat' done with rfl | ⟨done, piece, rfl⟩
  · rfl
  · obtain ⟨kind, lexeme, rfl⟩ := Piece.exists_of_isToken (h.start piece (by simp))
    rw [List.foldl_append]
    rfl

theorem foldl_dims_same {dimming : Bool} (h : ∀ piece ∈ gap, piece.dims dimming = dimming) :
    gap.foldl Piece.dims dimming = dimming := by
  induction gap with
  | nil => rfl
  | cons piece gap ih =>
    obtain ⟨hpiece, hgap⟩ := List.forall_mem_cons.1 h
    rw [List.foldl_cons, hpiece, ih hgap]

/-- An open string is not dimmed if no comment of its gap comes before it. -/
theorem IsTokenGap.not_isDimmedAt {clear rest : List Piece} {text : Text}
    (h : IsTokenGap (pieces source) done (clear ++ .fault .unterminatedString text :: rest) later)
    (hcomment : ∀ piece ∈ clear, piece.isComment = false) {index : Nat}
    (hstart : (textOf (done ++ clear)).length ≤ index)
    (hstop : index < (textOf (done ++ clear)).length + text.length) :
    ¬ IsDimmedAt (highlightSource source) index := by
  have hclear : ∀ piece ∈ clear, piece.dims false = false := fun piece hpiece =>
    Piece.dims_eq_self ((List.forall_mem_append.1 h.inside).1 piece hpiece) (hcomment piece hpiece) _
  have hsplit : pieces source =
      (done ++ clear) ++ .fault .unterminatedString text :: (rest ++ later) := by
    rw [h.split]
    simp
  have hbefore : (done ++ clear).foldl Piece.dims false = false := by
    rw [List.foldl_append, h.foldl_dims, foldl_dims_same hclear]
  have hin : index - (textOf (done ++ clear)).length < text.length := by omega
  rw [isDimmedAt_iff, hsplit, dimmedFrom_append, hbefore,
    List.getElem?_append_right (by rwa [length_dimmedFrom]), length_dimmedFrom, dimmedFrom,
    List.getElem?_append_left (by simpa [Piece.text] using hin), List.getElem?_replicate]
  simp [Piece.dims]

end Source

/-- **Comments are dimmed.** A gap between tokens is dimmed in part exactly if there is a comment in it,
    and then from the slashes of its first comment on. So every character of a comment is dimmed, and
    an open string is not, with whatever slashes in it, unless a comment of the same gap comes before
    it. -/
theorem comments_dimmed (source : Text) :
    (∀ done gap later, IsTokenGap (pieces source) done gap later →
      IsShownGap source done gap later) ∧
    (∀ index, IsCommentAt source index → IsDimmedAt (highlightSource source) index) ∧
    ∀ done clear text rest later,
      IsTokenGap (pieces source) done (clear ++ .fault .unterminatedString text :: rest) later →
      (∀ piece ∈ clear, piece.isComment = false) →
      ∀ index, (textOf (done ++ clear)).length ≤ index →
        index < (textOf (done ++ clear)).length + text.length →
        ¬ IsDimmedAt (highlightSource source) index := by
  refine ⟨fun _ _ _ h => h.isShownGap, ?_, ?_⟩
  · intro index hcomment
    rw [isDimmedAt_iff]
    exact getElem?_dimmedFrom_of_comment _ _ hcomment
  · intro done clear text rest later h hcomment index hstart hstop
    exact h.not_isDimmedAt hcomment hstart hstop

/-- A comment before a line feed, and slashes in an open string. -/
theorem comments_dimmed_before_open_string :
    IsTokenGap (pieces ['/', '/', '\n', '=', '"', '/', '/']) [] [.comment ['/', '/'], .separator '\n']
        [.token (.symbol .equal) ['='], .fault .unterminatedString ['"', '/', '/']] ∧
      gapSegments ['/', '/', '\n'] = [.plain [], .dimmed ['/', '/', '\n']] ∧
      IsCommentAt ['/', '/', '\n', '=', '"', '/', '/'] 1 ∧
      IsDimmedAt (highlightSource ['/', '/', '\n', '=', '"', '/', '/']) 1 ∧
      IsTokenGap (pieces ['/', '/', '\n', '=', '"', '/', '/'])
        [.comment ['/', '/'], .separator '\n', .token (.symbol .equal) ['=']]
        [.fault .unterminatedString ['"', '/', '/']] [] ∧
      ¬ IsDimmedAt (highlightSource ['/', '/', '\n', '=', '"', '/', '/']) 5 := by
  have hpieces : pieces ['/', '/', '\n', '=', '"', '/', '/'] =
      [.comment ['/', '/'], .separator '\n', .token (.symbol .equal) ['='],
        .fault .unterminatedString ['"', '/', '/']] :=
    pieces_of_next rfl (pieces_of_next rfl (pieces_of_next rfl (pieces_of_next rfl pieces_nil)))
  obtain ⟨hgaps, hcomments, hopen⟩ := comments_dimmed ['/', '/', '\n', '=', '"', '/', '/']
  have hfirst : IsTokenGap (pieces ['/', '/', '\n', '=', '"', '/', '/']) []
      [.comment ['/', '/'], .separator '\n']
      [.token (.symbol .equal) ['='], .fault .unterminatedString ['"', '/', '/']] :=
    ⟨hpieces, by decide, by decide, by decide⟩
  have hlast : IsTokenGap (pieces ['/', '/', '\n', '=', '"', '/', '/'])
      [.comment ['/', '/'], .separator '\n', .token (.symbol .equal) ['=']]
      [.fault .unterminatedString ['"', '/', '/']] [] :=
    ⟨hpieces, by decide, by decide, by decide⟩
  have hcomment : IsCommentAt ['/', '/', '\n', '=', '"', '/', '/'] 1 := by
    rw [IsCommentAt, hpieces]
    rfl
  exact ⟨hfirst, ((hgaps _ _ _ hfirst).first [] _ _ rfl (by decide)).2, hcomment,
    hcomments 1 hcomment, hlast, hopen _ [] _ [] _ hlast (by decide) 5 (by decide) (by decide)⟩

/-- **Dimming goes on to the next token.** A character is dimmed if a comment has begun before it and no
    token since. So comments alone are dimmed exactly if nothing comes after any comment: even the
    line feed that ends a comment is dimmed, and so is what follows it up to the next token. -/
theorem dimmed_until_token (source : Text) :
    marks Segment.text Segment.isDimmed (highlightSource source) =
        dimmedFrom false (pieces source) ∧
      ((∀ index, IsDimmedAt (highlightSource source) index → IsCommentAt source index) ↔
        ∀ done body later, pieces source = done ++ .comment body :: later → later = []) := by
  have hwell := wellPlaced_pieces source
  refine ⟨marks_segmentsOf hwell, ?_⟩
  constructor
  · intro honly done body later hpieces
    cases later with
    | nil => rfl
    | cons piece later =>
      rw [hpieces] at hwell
      obtain ⟨index, hdimmed, hcomment⟩ := exists_dimmed_not_comment hwell
      rw [← hpieces] at hdimmed hcomment
      have htrue := honly index (isDimmedAt_iff.2 hdimmed)
      rw [IsCommentAt, hcomment] at htrue
      cases htrue
  · intro hlast index hdimmed
    rwa [isDimmedAt_iff, dimmedFrom_eq_marks hlast] at hdimmed

/-- A comment that ends the source. -/
theorem dimmed_until_token_at_end :
    (∀ done body later, pieces ['=', '/', '/'] = done ++ .comment body :: later → later = []) ∧
      IsDimmedAt (highlightSource ['=', '/', '/']) 1 ∧
      ∀ index, IsDimmedAt (highlightSource ['=', '/', '/']) index →
        IsCommentAt ['=', '/', '/'] index := by
  have hpieces : pieces ['=', '/', '/'] = [.token (.symbol .equal) ['=']] ++ [.comment ['/', '/']] :=
    pieces_of_next rfl (pieces_of_next rfl pieces_nil)
  have hlast : ∀ done body later,
      pieces ['=', '/', '/'] = done ++ .comment body :: later → later = [] := by
    intro done body later h
    rw [hpieces] at h
    rcases done with _ | ⟨first, _ | ⟨second, done⟩⟩
    · cases h
    · cases h
      rfl
    · simp at h
  obtain ⟨-, honly⟩ := dimmed_until_token ['=', '/', '/']
  exact ⟨hlast, by rw [isDimmedAt_iff, hpieces]; rfl, honly.2 hlast⟩

/-- Behind a comment a line feed, a character that starts no token, and an open string are dimmed too. -/
theorem dimmed_behind_comment :
    highlightSource ['/', '/', '\n', '@', '"'] = [.plain [], .dimmed ['/', '/', '\n', '@', '"']] ∧
      IsDimmedAt (highlightSource ['/', '/', '\n', '@', '"']) 2 ∧
      ¬ IsCommentAt ['/', '/', '\n', '@', '"'] 2 ∧
      IsDimmedAt (highlightSource ['/', '/', '\n', '@', '"']) 3 ∧
      ¬ IsCommentAt ['/', '/', '\n', '@', '"'] 3 ∧
      IsDimmedAt (highlightSource ['/', '/', '\n', '@', '"']) 4 ∧
      ¬ IsCommentAt ['/', '/', '\n', '@', '"'] 4 := by
  have hpieces : pieces ['/', '/', '\n', '@', '"'] =
      [.comment ['/', '/'], .separator '\n', .fault (.unexpectedCharacter '@') ['@'],
        .fault .unterminatedString ['"']] :=
    pieces_of_next rfl (pieces_of_next rfl (pieces_of_next rfl (pieces_of_next rfl pieces_nil)))
  have hsegments : highlightSource ['/', '/', '\n', '@', '"'] =
      [.plain [], .dimmed ['/', '/', '\n', '@', '"']] := by
    rw [highlightSource, hpieces]
    rfl
  simp only [hsegments, IsDimmedAt, IsCommentAt, hpieces]
  decide

end ScriptLexer
