import ScriptLexer.Proofs.Grammar
import ScriptLexer.Style

set_option autoImplicit false

/-! # Control sequences

Styles are control sequences in the output, each an escape character, an opening bracket, numbers, and
an `m`. Taking them out (`withoutSequences`) leaves what a reader sees. For the output of segments that
is their plain text, as long as there is no escape character in it that could start a sequence of its
own; text may follow that has sequences (`withoutSequences_render_append`). Nor do styles add a line
feed, so output falls into the lines of its plain text (`newline_mem_render_iff`). -/

namespace ScriptLexer

/-! ## Taking sequences out -/

/-- The characters of the numbers in a control sequence, and between them. -/
def isParameter (c : Char) : Bool :=
  c.isDigit || c == ';'

/-- What follows a control sequence for a style, if a text starts with one. -/
def afterSequence? : Text → Option Text
  | '\x1b' :: '[' :: rest =>
    match rest.dropWhile isParameter with
    | 'm' :: after => some after
    | _ => none
  | _ => none

theorem length_afterSequence? {text after : Text} (h : afterSequence? text = some after) :
    after.length < text.length := by
  unfold afterSequence? at h
  split at h
  · next rest =>
    split at h
    · next later hlater =>
      obtain rfl := Option.some.inj h
      have hle := (List.dropWhile_suffix (l := rest) isParameter).length_le
      rw [hlater] at hle
      simp only [List.length_cons] at hle ⊢
      omega
    · cases h
  · cases h

/-- A text without its control sequences for styles. -/
def withoutSequences : Text → Text
  | [] => []
  | c :: rest =>
    match _h : afterSequence? (c :: rest) with
    | some after => withoutSequences after
    | none => c :: withoutSequences rest
termination_by text => text.length
decreasing_by
  · exact length_afterSequence? _h
  · exact Nat.lt_succ_self _

@[simp]
theorem withoutSequences_nil : withoutSequences [] = [] := by
  rw [withoutSequences]

theorem withoutSequences_of_some {text after : Text} (h : afterSequence? text = some after) :
    withoutSequences text = withoutSequences after := by
  cases text with
  | nil => cases h
  | cons c rest =>
    rw [withoutSequences]
    split <;> simp_all

theorem withoutSequences_of_none {c : Char} {rest : Text} (h : afterSequence? (c :: rest) = none) :
    withoutSequences (c :: rest) = c :: withoutSequences rest := by
  rw [withoutSequences]
  split <;> simp_all

/-- A character that does not start a sequence stays. -/
theorem withoutSequences_cons {c : Char} {rest : Text} (h : c = '\x1b' → rest.head? ≠ some '[') :
    withoutSequences (c :: rest) = c :: withoutSequences rest := by
  apply withoutSequences_of_none
  unfold afterSequence?
  split
  · next hsequence =>
    obtain ⟨rfl, rfl⟩ := List.cons.inj hsequence
    exact absurd rfl (h rfl)
  · rfl

theorem withoutSequences_append {text : Text} (h : '\x1b' ∉ text) (rest : Text) :
    withoutSequences (text ++ rest) = text ++ withoutSequences rest := by
  induction text with
  | nil => rfl
  | cons c text ih =>
    rw [List.mem_cons, not_or] at h
    rw [List.cons_append, withoutSequences_cons (fun hc => absurd hc.symm h.1), ih h.2,
      List.cons_append]

/-- A whole sequence goes. -/
theorem withoutSequences_sequence {code : Text} (h : ∀ c ∈ code, isParameter c = true)
    (rest : Text) : withoutSequences (controlSequence code ++ rest) = withoutSequences rest := by
  apply withoutSequences_of_some
  have hstop : ∀ c ∈ ('m' :: rest).head?, isParameter c = false := by
    simp [isParameter, Char.isDigit]
  have hdrop := dropWhile_append_of_stop h hstop
  simp only [controlSequence, List.cons_append, List.append_assoc, List.nil_append, afterSequence?,
    hdrop]

/-! ## Styles -/

namespace Effect

theorem exists_opening (effect : Effect) :
    ∃ code, effect.opening = controlSequence code ∧ ∀ c ∈ code, isParameter c = true := by
  cases effect with
  | colour colour => exact ⟨colour.code, rfl, List.all_eq_true.1 (by cases colour <;> rfl)⟩
  | bold => exact ⟨['1'], rfl, List.all_eq_true.1 rfl⟩
  | dimmed => exact ⟨['2'], rfl, List.all_eq_true.1 rfl⟩

theorem exists_closing (effect : Effect) :
    ∃ code, effect.closing = controlSequence code ∧ ∀ c ∈ code, isParameter c = true := by
  cases effect with
  | colour colour => exact ⟨['3', '9'], rfl, List.all_eq_true.1 rfl⟩
  | bold => exact ⟨['0'], rfl, List.all_eq_true.1 rfl⟩
  | dimmed => exact ⟨['0'], rfl, List.all_eq_true.1 rfl⟩

end Effect

theorem Style.wrap_cons (effect : Effect) (style : Style) (text : Text) :
    Style.wrap (effect :: style) text = effect.opening ++ style.wrap text ++ effect.closing := rfl

theorem Style.withoutSequences_wrap (style : Style) {text : Text} (h : '\x1b' ∉ text) (rest : Text) :
    withoutSequences (style.wrap text ++ rest) = text ++ withoutSequences rest := by
  induction style generalizing rest with
  | nil => exact withoutSequences_append h rest
  | cons effect style ih =>
    obtain ⟨opening, hopening, hopenCode⟩ := effect.exists_opening
    obtain ⟨closing, hclosing, hcloseCode⟩ := effect.exists_closing
    rw [wrap_cons, hopening, hclosing, List.append_assoc, List.append_assoc,
      withoutSequences_sequence hopenCode, ih, withoutSequences_sequence hcloseCode]

theorem newline_not_mem_sequence {code : Text} (h : ∀ c ∈ code, isParameter c = true) :
    '\n' ∉ controlSequence code := by
  have hcode : '\n' ∉ code := fun hmem => absurd (h '\n' hmem) (by decide)
  simp [controlSequence, hcode]

theorem Style.newline_mem_wrap_iff (style : Style) (text : Text) :
    '\n' ∈ style.wrap text ↔ '\n' ∈ text := by
  induction style with
  | nil => rfl
  | cons effect style ih =>
    obtain ⟨opening, hopening, hopenCode⟩ := effect.exists_opening
    obtain ⟨closing, hclosing, hcloseCode⟩ := effect.exists_closing
    rw [wrap_cons, hopening, hclosing, List.mem_append, List.mem_append, ih]
    simp [newline_not_mem_sequence hopenCode, newline_not_mem_sequence hcloseCode]

/-! ## Segments -/

theorem render_cons (segment : Segment) (later : List Segment) :
    render (segment :: later) = segment.style.wrap segment.text ++ render later := rfl

theorem plainText_cons (segment : Segment) (later : List Segment) :
    plainText (segment :: later) = segment.text ++ plainText later := rfl

/-- Without control sequences the output of segments is their plain text, whatever follows them. -/
theorem withoutSequences_render_append {segments : List Segment} (h : '\x1b' ∉ plainText segments)
    (rest : Text) :
    withoutSequences (render segments ++ rest) = plainText segments ++ withoutSequences rest := by
  induction segments with
  | nil => rfl
  | cons segment later ih =>
    rw [plainText_cons, List.mem_append, not_or] at h
    rw [render_cons, List.append_assoc, segment.style.withoutSequences_wrap h.1, ih h.2,
      plainText_cons, List.append_assoc]

theorem withoutSequences_render {segments : List Segment} (h : '\x1b' ∉ plainText segments) :
    withoutSequences (render segments) = plainText segments := by
  simpa using withoutSequences_render_append h []

/-- Styles add no line feed. -/
theorem newline_mem_render_iff (segments : List Segment) :
    '\n' ∈ render segments ↔ '\n' ∈ plainText segments := by
  induction segments with
  | nil => rfl
  | cons segment later ih =>
    rw [render_cons, plainText_cons, List.mem_append, List.mem_append,
      segment.style.newline_mem_wrap_iff, ih]

/-- Lines of output are told apart by their line feeds. -/
theorem splitOn_renderLine {lines : List (List Segment)}
    (h : ∀ line ∈ lines, '\n' ∉ plainText line) :
    (lines.flatMap renderLine).splitOn '\n' = lines.map render ++ [[]] := by
  induction lines with
  | nil => rfl
  | cons line later ih =>
    obtain ⟨hline, hlater⟩ := List.forall_mem_cons.1 h
    have hrender : '\n' ∉ render line := by rwa [newline_mem_render_iff]
    rw [List.flatMap_cons, renderLine, List.append_assoc, List.singleton_append,
      List.splitOn_append_cons_self_of_not_mem hrender, ih hlater, List.map_cons, List.cons_append]

end ScriptLexer
