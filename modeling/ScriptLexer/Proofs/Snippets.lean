import ScriptLexer.Proofs.Offsets
import ScriptLexer.Report

set_option autoImplicit false

/-! # Snippets

A snippet is a line of the source, counted from the first line on, and a place on it. The line is
found around a byte offset: it starts after the last line feed before the offset and ends before the
next one, wherever the offset stands, also on a line feed, right after one, or at the end. Reckoned
with offsets (`snippetByOffsets`) this never fails. Told by the lines of the source (`Snippet.IsAt`)
there is one snippet for every offset between two characters, and none for others.
Main statement: `snippet?_eq_some_iff_isAt`. -/

namespace ScriptLexer

/-! ## What the statement speaks of -/

/-- The snippet at an offset, reckoned with byte offsets: the source is searched backwards and
    forwards for a line feed, and what is between is cut out of it. -/
def snippetByOffsets (source : Text) (offset : Nat) : Except BadOffset (Option Snippet) :=
  match splitAtByte? source offset with
  | none => return none
  | some (before, _) => do
    let lineStart := (findLast? '\n' before).elim 0 (· + 1)
    let (_, after) ← cutAt source offset
    let lineStop := (findText? ['\n'] after).elim (byteLength source) (offset + ·)
    let text ← sliceAt source lineStart lineStop
    if lineStart ≤ offset then return some ⟨newlines before + 1, text, offset - lineStart⟩
    else throw ⟨lineStart⟩

/-- The bytes of the first so many lines, with a line feed after each. -/
def bytesBefore (lines : List Text) (count : Nat) : Nat :=
  byteLength ((lines.take count).flatMap (· ++ ['\n']))

/-- A snippet told by the lines of the source: its text is the line with its number, the first line
    being number one, and the bytes before that line and the column make the offset. -/
structure Snippet.IsAt (source : Text) (offset : Nat) (snippet : Snippet) : Prop where
  number_pos : 0 < snippet.number
  line : (source.splitOn '\n')[snippet.number - 1]? = some snippet.text
  column_le : snippet.column ≤ byteLength snippet.text
  offset_eq : bytesBefore (source.splitOn '\n') (snippet.number - 1) + snippet.column = offset

/-! ## Lines between line feeds -/

/-- A line, with what stands before it and behind it. -/
structure IsLine (earlier line later : Text) : Prop where
  inside : '\n' ∉ line
  start : ∀ c ∈ earlier.getLast?, c = '\n'
  stop : ∀ c ∈ later.head?, c = '\n'

theorem length_splitOn_newline (text : Text) :
    (text.splitOn '\n').length = newlines text + 1 := by
  induction text with
  | nil => rfl
  | cons c text ih =>
    rw [List.splitOn_cons_eq_if_modifyHead, newlines, List.count_cons]
    split <;> simp_all [newlines]

/-- With a line feed after each, the lines of a text are the text and one line feed more. -/
theorem flatMap_splitOn_newline (text : Text) :
    (text.splitOn '\n').flatMap (· ++ ['\n']) = text ++ ['\n'] := by
  induction text with
  | nil => rfl
  | cons c text ih =>
    rw [List.splitOn_cons_eq_if_modifyHead]
    split
    · next h =>
      rw [List.flatMap_cons, ih, eq_of_beq h]
      rfl
    · obtain ⟨line, lines, hlines⟩ := List.exists_cons_of_ne_nil (List.splitOn_ne_nil '\n' text)
      rw [hlines, List.flatMap_cons] at ih
      rw [hlines, List.modifyHead_cons, List.flatMap_cons, List.cons_append, List.cons_append, ih,
        List.cons_append]

/-- Every place of a text is on a line. -/
theorem exists_isLine (before after : Text) :
    ∃ earlier left right later, before = earlier ++ left ∧ after = right ++ later ∧
      IsLine earlier (left ++ right) later := by
  refine ⟨(before.reverse.dropWhile (· ≠ '\n')).reverse, lastLine before,
    after.takeWhile (· ≠ '\n'), after.dropWhile (· ≠ '\n'), ?_, ?_, ?_⟩
  · rw [lastLine, ← List.reverse_append, List.takeWhile_append_dropWhile, List.reverse_reverse]
  · rw [List.takeWhile_append_dropWhile]
  · constructor
    · intro hmem
      rw [List.mem_append, lastLine, List.mem_reverse] at hmem
      rcases hmem with hmem | hmem <;> simpa using List.mem_takeWhile_imp hmem
    · intro c hc
      rw [List.getLast?_reverse] at hc
      simpa using head?_dropWhile_eq_false _ _ c hc
    · intro c hc
      simpa using head?_dropWhile_eq_false _ _ c hc

namespace IsLine

variable {earlier line later left right : Text}

theorem splitOn_first (h : IsLine [] line later) :
    ∃ lines, (line ++ later).splitOn '\n' = line :: lines := by
  cases later with
  | nil => exact ⟨[], by rw [List.append_nil, List.splitOn_eq_singleton h.inside]⟩
  | cons c later =>
    obtain rfl := h.stop c rfl
    exact ⟨later.splitOn '\n', List.splitOn_append_cons_self_of_not_mem h.inside later⟩

/-- Among the lines of a source a line comes after those before it. -/
theorem splitOn (h : IsLine earlier line later) :
    ∃ before after, (earlier ++ (line ++ later)).splitOn '\n' = before ++ line :: after ∧
      before.length = newlines earlier ∧ before.flatMap (· ++ ['\n']) = earlier := by
  obtain ⟨after, hafter⟩ := IsLine.splitOn_first ⟨h.inside, by simp, h.stop⟩
  rcases List.eq_nil_or_concat' earlier with rfl | ⟨front, c, rfl⟩
  · exact ⟨[], after, hafter, rfl, rfl⟩
  · obtain rfl := h.start c (by simp)
    refine ⟨front.splitOn '\n', after, ?_, ?_, flatMap_splitOn_newline front⟩
    · rw [List.append_assoc, List.singleton_append, List.splitOn_append_cons_self, hafter]
    · rw [length_splitOn_newline, newlines_append]
      rfl

theorem lastLine_eq (h : IsLine earlier (left ++ right) later) : lastLine (earlier ++ left) = left := by
  have hin : ∀ c ∈ left.reverse, decide (c ≠ '\n') = true := by
    intro c hc
    simp only [decide_eq_true_eq]
    rintro rfl
    exact h.inside (List.mem_append_left _ (List.mem_reverse.1 hc))
  have hstop : ∀ c ∈ earlier.reverse.head?, decide (c ≠ '\n') = false := by
    intro c hc
    rw [List.head?_reverse] at hc
    simpa using h.start c hc
  rw [lastLine, List.reverse_append, takeWhile_append_of_stop hin hstop, List.reverse_reverse]

theorem takeWhile_eq (h : IsLine earlier (left ++ right) later) :
    (right ++ later).takeWhile (· ≠ '\n') = right := by
  apply takeWhile_append_of_stop
  · intro c hc
    simp only [decide_eq_true_eq]
    rintro rfl
    exact h.inside (List.mem_append_right _ hc)
  · simpa using h.stop

theorem newlines_eq (h : IsLine earlier (left ++ right) later) :
    newlines (earlier ++ left) = newlines earlier := by
  have hleft : '\n' ∉ left := fun hmem => h.inside (List.mem_append_left _ hmem)
  rw [newlines_append, newlines_of_not_mem hleft, Nat.add_zero]

/-- The snippet at a place on a line is that line. -/
theorem snippet?_eq (h : IsLine earlier (left ++ right) later) :
    snippet? ((earlier ++ left) ++ (right ++ later)) (byteLength (earlier ++ left)) =
      some ⟨newlines earlier + 1, left ++ right, byteLength left⟩ := by
  simp only [snippet?, splitAtByte?_append, Option.map_some, h.lastLine_eq, h.takeWhile_eq,
    h.newlines_eq]

/-! ### By offsets -/

theorem findLast?_eq (h : IsLine earlier (left ++ right) later) :
    (findLast? '\n' (earlier ++ left)).elim 0 (· + 1) = byteLength earlier := by
  have hleft : '\n' ∉ left := fun hmem => h.inside (List.mem_append_left _ hmem)
  rcases List.eq_nil_or_concat' earlier with rfl | ⟨front, c, rfl⟩
  · rw [List.nil_append, findLast?_of_not_mem hleft]
    rfl
  · obtain rfl := h.start c (by simp)
    rw [List.append_assoc, List.singleton_append, findLast?_append front hleft, byteLength_append]
    rfl

theorem findText?_eq (h : IsLine earlier (left ++ right) later) (offset : Nat) :
    (findText? ['\n'] (right ++ later)).elim (offset + byteLength (right ++ later)) (offset + ·) =
      offset + byteLength right := by
  rw [findText?_singleton, h.takeWhile_eq]
  split
  · rfl
  · next hmem =>
    -- without a line feed the line goes on up to the end
    have hlater : later = [] := by
      cases later with
      | nil => rfl
      | cons c later =>
        obtain rfl := h.stop c rfl
        exact absurd (List.mem_append_right _ List.mem_cons_self) hmem
    rw [hlater, List.append_nil]
    rfl

end IsLine

/-- Reckoned with offsets the same snippet is found, and every cut is made between two characters. -/
theorem snippetByOffsets_eq (source : Text) (offset : Nat) :
    snippetByOffsets source offset = .ok (snippet? source offset) := by
  rw [snippetByOffsets]
  cases hsplit : splitAtByte? source offset with
  | none => rw [snippet?, hsplit]; rfl
  | some parts =>
    obtain ⟨before, after⟩ := parts
    obtain ⟨rfl, rfl⟩ := splitAtByte?_eq_some hsplit
    obtain ⟨earlier, left, right, later, rfl, rfl, hline⟩ := exists_isLine before after
    have hstop : byteLength (earlier ++ left) + byteLength right =
        byteLength (earlier ++ (left ++ right)) := by
      rw [← List.append_assoc, byteLength_append (earlier ++ left)]
    have hslice : sliceAt (earlier ++ left ++ (right ++ later)) (byteLength earlier)
        (byteLength (earlier ++ (left ++ right))) = .ok (left ++ right) := by
      have h := sliceAt_append earlier (left ++ right) later
      simpa only [List.append_assoc] using h
    have hcolumn : byteLength (earlier ++ left) - byteLength earlier = byteLength left := by
      rw [byteLength_append, Nat.add_sub_cancel_left]
    have hle : byteLength earlier ≤ byteLength (earlier ++ left) := by
      rw [byteLength_append]
      exact Nat.le_add_right _ _
    simp only [cutAt_append, hline.findLast?_eq, byteLength_append (earlier ++ left),
      hline.findText?_eq, hstop, hslice, hline.snippet?_eq, hline.newlines_eq, hcolumn,
      if_pos hle, bind, Except.bind, pure, Except.pure]

/-! ## One snippet for a place -/

/-- Each line ends, with its line feed, before the next one starts. -/
theorem bytesBefore_lt {lines : List Text} {a b : Nat} {text : Text} (h : lines[a]? = some text)
    (hlt : a < b) : bytesBefore lines a + byteLength text < bytesBefore lines b := by
  obtain ⟨extra, rfl⟩ := Nat.exists_eq_add_of_lt hlt
  have hdrop : lines.drop a = text :: lines.drop (a + 1) := by
    obtain ⟨ha, rfl⟩ := List.getElem?_eq_some_iff.1 h
    exact List.drop_eq_getElem_cons ha
  rw [bytesBefore, bytesBefore, Nat.add_assoc a, List.take_add, hdrop, List.take_succ_cons,
    List.flatMap_append, List.flatMap_cons, byteLength_append, byteLength_append,
    byteLength_append]
  have hfeed : byteLength ['\n'] = 1 := rfl
  omega

theorem Snippet.IsAt.unique {source : Text} {offset : Nat} {a b : Snippet} (ha : a.IsAt source offset)
    (hb : b.IsAt source offset) : a = b := by
  have hnumber : a.number - 1 = b.number - 1 := by
    rcases Nat.lt_trichotomy (a.number - 1) (b.number - 1) with hlt | heq | hlt
    · have := bytesBefore_lt ha.line hlt
      have := ha.offset_eq
      have := hb.offset_eq
      have := ha.column_le
      omega
    · exact heq
    · have := bytesBefore_lt hb.line hlt
      have := ha.offset_eq
      have := hb.offset_eq
      have := hb.column_le
      omega
  have htext : some a.text = some b.text := by rw [← ha.line, ← hb.line, hnumber]
  have hcolumn : a.column = b.column := by
    have := ha.offset_eq
    have := hb.offset_eq
    rw [hnumber] at *
    omega
  have := ha.number_pos
  have := hb.number_pos
  obtain ⟨number, text, column⟩ := a
  obtain ⟨number', text', column'⟩ := b
  obtain rfl : number = number' := by simp only at *; omega
  cases htext
  cases hcolumn
  rfl

theorem isAt_of_snippet? {source : Text} {offset : Nat} {snippet : Snippet}
    (h : snippet? source offset = some snippet) : snippet.IsAt source offset := by
  obtain ⟨⟨before, after⟩, hsplit, -⟩ := Option.map_eq_some_iff.1 h
  obtain ⟨rfl, rfl⟩ := splitAtByte?_eq_some hsplit
  obtain ⟨earlier, left, right, later, rfl, rfl, hline⟩ := exists_isLine before after
  rw [hline.snippet?_eq] at h
  obtain rfl := Option.some.inj h
  obtain ⟨lines, linesAfter, hlines, hlength, hbytes⟩ := hline.splitOn
  have hsource : earlier ++ left ++ (right ++ later) = earlier ++ (left ++ right ++ later) := by
    simp only [List.append_assoc]
  rw [hsource]
  refine ⟨Nat.succ_pos _, ?_, ?_, ?_⟩
  · rw [hlines, Nat.add_sub_cancel, ← hlength, List.getElem?_append_right (Nat.le_refl _),
      Nat.sub_self, List.getElem?_cons_zero]
  · rw [byteLength_append]
    exact Nat.le_add_right _ _
  · rw [hlines, Nat.add_sub_cancel, bytesBefore, ← hlength, List.take_left, hbytes,
      byteLength_append]

/-- What a snippet shows is in the source. -/
theorem mem_of_mem_snippet {source : Text} {offset : Nat} {snippet : Snippet} {c : Char}
    (h : snippet? source offset = some snippet) (hc : c ∈ snippet.text) : c ∈ source := by
  obtain ⟨⟨before, after⟩, hsplit, -⟩ := Option.map_eq_some_iff.1 h
  obtain ⟨rfl, rfl⟩ := splitAtByte?_eq_some hsplit
  obtain ⟨earlier, left, right, later, rfl, rfl, hline⟩ := exists_isLine before after
  rw [hline.snippet?_eq] at h
  obtain rfl := Option.some.inj h
  simp only [List.mem_append] at hc ⊢
  tauto

theorem snippet?_eq_none_iff {source : Text} {offset : Nat} :
    snippet? source offset = none ↔ byteLength source < offset ∨ IsInside source offset := by
  rw [snippet?, Option.map_eq_none_iff, splitAtByte?_eq_none_iff]

/-- **A snippet is the line at its place.** Reckoned with byte offsets, a snippet is looked for
    without any cut that fails. There is none exactly if the offset is past the end of the source or
    inside a character; for any other offset it is the one line, counted from the first, on which the
    offset is, with the bytes on the line before it. -/
theorem snippet?_eq_some_iff_isAt (source : Text) (offset : Nat) :
    snippetByOffsets source offset = .ok (snippet? source offset) ∧
      (snippet? source offset = none ↔ byteLength source < offset ∨ IsInside source offset) ∧
      ∀ snippet, snippet? source offset = some snippet ↔
        IsBoundary source offset ∧ snippet.IsAt source offset := by
  refine ⟨snippetByOffsets_eq source offset, snippet?_eq_none_iff, ?_⟩
  intro snippet
  constructor
  · intro h
    obtain ⟨parts, hsplit, -⟩ := Option.map_eq_some_iff.1 h
    exact ⟨isBoundary_iff.2 ⟨parts, hsplit⟩, isAt_of_snippet? h⟩
  · rintro ⟨hboundary, hat⟩
    obtain ⟨parts, hsplit⟩ := isBoundary_iff.1 hboundary
    obtain ⟨found, hfound⟩ : ∃ found, snippet? source offset = some found :=
      ⟨_, by rw [snippet?, hsplit, Option.map_some]⟩
    rw [hfound, (isAt_of_snippet? hfound).unique hat]

end ScriptLexer
