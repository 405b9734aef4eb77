import ScriptLexer.Proofs.InputLines

set_option autoImplicit false

/-! # Entries part an input

Which entries a session reads can be said without the reader: each is complete, each is incomplete
at every line end inside it, and put together with the line ends that are dropped they are the input
up to where reading stops (`IsPartition`). This leaves one way to part an input (`IsPartition.unique`),
because a first entry could only be followed by a different cut at a line end where it would be
complete too early. The entries that are read part the input in this way
(`exists_isPartition`). -/

namespace ScriptLexer

/-! ## Line ends -/

/-- A line feed after a part of a text, with the carriage return before it if there is one. -/
def IsTerminator (part lineEnd : Text) : Prop :=
  lineEnd = ['\r', '\n'] ∨ (lineEnd = ['\n'] ∧ part.getLast? ≠ some '\r')

/-- Where the last line of a part ends: at a terminator, or without one at the end of the input. -/
def IsLineEnd (part lineEnd later : Text) : Prop :=
  IsTerminator part lineEnd ∨
    (lineEnd = [] ∧ later = [] ∧ part ≠ [] ∧ part.getLast? ≠ some '\n')

variable {part lineEnd later part' lineEnd' later' : Text}

theorem IsTerminator.exists_newline (h : IsTerminator part lineEnd) :
    ∃ line, part ++ lineEnd = line ++ ['\n'] := by
  rcases h with rfl | ⟨rfl, -⟩
  · exact ⟨part ++ ['\r'], by simp⟩
  · exact ⟨part, rfl⟩

theorem IsTerminator.unique (h : IsTerminator part lineEnd) (h' : IsTerminator part' lineEnd')
    (heq : part ++ lineEnd = part' ++ lineEnd') : part = part' ∧ lineEnd = lineEnd' := by
  rcases h with rfl | ⟨rfl, hr⟩ <;> rcases h' with rfl | ⟨rfl, hr'⟩
  · exact ⟨List.append_cancel_right heq, rfl⟩
  · have hpart : part ++ ['\r'] = part' := (List.append_inj' (by simpa using heq) rfl).1
    rw [← hpart, List.getLast?_concat] at hr'
    exact absurd rfl hr'
  · have hpart : part = part' ++ ['\r'] := (List.append_inj' (by simpa using heq) rfl).1
    rw [hpart, List.getLast?_concat] at hr
    exact absurd rfl hr
  · exact ⟨List.append_cancel_right heq, rfl⟩

/-- A text has at most one line end at its end. -/
theorem IsLineEnd.unique (h : IsLineEnd part lineEnd later) (h' : IsLineEnd part' lineEnd' later')
    (heq : part ++ lineEnd = part' ++ lineEnd') : part = part' ∧ lineEnd = lineEnd' := by
  rcases h with h | ⟨rfl, -, -, hlast⟩ <;> rcases h' with h' | ⟨rfl, -, -, hlast'⟩
  · exact h.unique h' heq
  · obtain ⟨line, hline⟩ := h.exists_newline
    rw [List.append_nil] at heq
    rw [← heq, hline, List.getLast?_concat] at hlast'
    exact absurd rfl hlast'
  · obtain ⟨line, hline⟩ := h'.exists_newline
    rw [List.append_nil] at heq
    rw [heq, hline, List.getLast?_concat] at hlast
    exact absurd rfl hlast
  · rw [List.append_nil, List.append_nil] at heq
    exact ⟨heq, rfl⟩

/-- A line that ends before another one ends inside the part before that line's end. -/
theorem IsLineEnd.exists_inside (h : IsLineEnd part lineEnd later)
    (h' : IsTerminator part' lineEnd') {more : Text} (hmore : more ≠ [])
    (heq : part ++ lineEnd = part' ++ lineEnd' ++ more) :
    ∃ inside, part = part' ++ lineEnd' ++ inside := by
  obtain ⟨line, hline⟩ := h'.exists_newline
  rw [hline] at heq ⊢
  obtain ⟨init, c, rfl⟩ : ∃ init c, more = init ++ [c] :=
    ⟨_, _, (List.dropLast_concat_getLast hmore).symm⟩
  rw [← List.append_assoc] at heq
  rcases h with (rfl | ⟨rfl, -⟩) | ⟨rfl, -⟩
  · have hconcat : part ++ ['\r'] ++ ['\n'] = line ++ ['\n'] ++ init ++ [c] := by
      rwa [List.append_assoc]
    obtain ⟨hinit, -⟩ := List.append_inj' hconcat rfl
    by_cases hnil : init = []
    · -- the carriage return is not the line feed that ends the line before
      rw [hnil, List.append_nil] at hinit
      exact absurd (List.append_inj' hinit rfl).2 (by decide)
    · rw [← List.dropLast_concat_getLast hnil, ← List.append_assoc] at hinit
      exact ⟨_, (List.append_inj' hinit rfl).1⟩
  · exact ⟨init, (List.append_inj' heq rfl).1⟩
  · exact ⟨init ++ [c], by rw [← List.append_assoc, ← heq, List.append_nil]⟩

/-- Of two line ends of a text the first lies inside the part before the second. -/
theorem IsLineEnd.inside_of_lt (h : IsLineEnd part lineEnd later)
    (h' : IsLineEnd part' lineEnd' later')
    (heq : part ++ lineEnd ++ later = part' ++ lineEnd' ++ later')
    (hlt : (part' ++ lineEnd').length < (part ++ lineEnd).length) :
    IsTerminator part' lineEnd' ∧ ∃ inside, part = part' ++ lineEnd' ++ inside := by
  rcases List.append_eq_append_iff.1 heq with ⟨more, hmore, -⟩ | ⟨more, hmore, hlater⟩
  · rw [hmore] at hlt
    simp only [List.length_append] at hlt
    omega
  · have hne : more ≠ [] := by
      rintro rfl
      rw [hmore, List.append_nil] at hlt
      exact Nat.lt_irrefl _ hlt
    have hterminator : IsTerminator part' lineEnd' := by
      refine h'.resolve_right ?_
      intro hlast
      rw [hlast.2.1] at hlater
      exact hne (List.append_eq_nil_iff.1 hlater.symm).1
    exact ⟨hterminator, h.exists_inside hterminator hne hmore⟩

/-! ## First entries -/

/-- A text that is incomplete wherever a line ends inside it. -/
def IncompleteInside (text : Text) : Prop :=
  ∀ part lineEnd more, text = part ++ lineEnd ++ more → IsTerminator part lineEnd →
    isIncomplete part = true

/-- A text that is incomplete at every line end, also the one that is its end. -/
def IncompleteThroughout (text : Text) : Prop :=
  ∀ part lineEnd later, text = part ++ lineEnd ++ later → IsLineEnd part lineEnd later →
    isIncomplete part = true

/-- What the first entry of an input is, with the line end after it and what follows that. -/
structure IsFirstEntry (input entry lineEnd later : Text) : Prop where
  joined : input = entry ++ lineEnd ++ later
  ends : IsLineEnd entry lineEnd later
  complete : isIncomplete entry = false
  inside : IncompleteInside entry

section First

variable {input : Text}

theorem IsFirstEntry.length_le (h : IsFirstEntry input part lineEnd later)
    (h' : IsFirstEntry input part' lineEnd' later') :
    (part ++ lineEnd).length ≤ (part' ++ lineEnd').length := by
  apply Nat.le_of_not_lt
  intro hlt
  have hjoined : part ++ lineEnd ++ later = part' ++ lineEnd' ++ later' :=
    h.joined.symm.trans h'.joined
  obtain ⟨hterminator, inside, hinside⟩ := h.ends.inside_of_lt h'.ends hjoined hlt
  -- the shorter entry would be a line end at which the longer one is complete
  have hincomplete := h.inside part' lineEnd' inside hinside hterminator
  rw [h'.complete] at hincomplete
  contradiction

/-- An input has at most one first entry. -/
theorem IsFirstEntry.unique (h : IsFirstEntry input part lineEnd later)
    (h' : IsFirstEntry input part' lineEnd' later') :
    part = part' ∧ lineEnd = lineEnd' ∧ later = later' := by
  have hlength := Nat.le_antisymm (h.length_le h') (h'.length_le h)
  obtain ⟨heq, hlater⟩ := List.append_inj (h.joined.symm.trans h'.joined) hlength
  obtain ⟨hpart, hlineEnd⟩ := h.ends.unique h'.ends heq
  exact ⟨hpart, hlineEnd, hlater⟩

theorem IncompleteThroughout.not_isFirstEntry (h : IncompleteThroughout input) :
    ¬ IsFirstEntry input part lineEnd later := by
  intro hfirst
  have hincomplete := h part lineEnd later hfirst.joined hfirst.ends
  rw [hfirst.complete] at hincomplete
  contradiction

end First

/-! ## Partitions -/

/-- An entry as it is taken from an input, and the line end that is dropped after it. -/
structure Taken where
  text : Text
  lineEnd : Text

/-- The part of the input that is used up. -/
def Taken.source (taken : Taken) : Text :=
  taken.text ++ taken.lineEnd

/-- Entries that part an input, and the rest of the input after them. -/
structure IsPartition (input : Text) (entries : List Taken) (rest : Text) : Prop where
  joined : input = entries.flatMap Taken.source ++ rest
  lineEnds : ∀ done entry later, entries = done ++ entry :: later →
    IsLineEnd entry.text entry.lineEnd (later.flatMap Taken.source ++ rest)
  complete : ∀ entry ∈ entries, isIncomplete entry.text = false
  inside : ∀ entry ∈ entries, IncompleteInside entry.text
  /-- Nothing is read after an entry that ends the session. -/
  stays : ∀ entry ∈ entries.dropLast, asksToLeave entry.text = false
  /-- Without such an entry the rest is one that never gets complete. -/
  ended : (∃ entry ∈ entries.getLast?, asksToLeave entry.text = true) ∨ IncompleteThroughout rest

section Partition

variable {input rest rest' : Text} {entry : Taken} {entries entries' : List Taken}

theorem isPartition_nil_iff :
    IsPartition input [] rest ↔ input = rest ∧ IncompleteThroughout rest := by
  constructor
  · intro h
    exact ⟨h.joined, h.ended.resolve_left (by simp)⟩
  · rintro ⟨rfl, hrest⟩
    exact ⟨rfl, by simp, by simp, by simp, by simp, .inr hrest⟩

/-- After its first entry a partition parts what follows, unless the session ends there. -/
theorem IsPartition.of_cons (h : IsPartition input (entry :: entries) rest) :
    ∃ later, IsFirstEntry input entry.text entry.lineEnd later ∧
      (asksToLeave entry.text = true ∧ entries = [] ∧ later = rest ∨
        asksToLeave entry.text = false ∧ IsPartition later entries rest) := by
  refine ⟨entries.flatMap Taken.source ++ rest, ⟨?_, h.lineEnds [] entry entries rfl,
    h.complete entry List.mem_cons_self, h.inside entry List.mem_cons_self⟩, ?_⟩
  · rw [h.joined, List.flatMap_cons, List.append_assoc, Taken.source]
  · cases entries with
    | nil =>
      cases hleave : asksToLeave entry.text with
      | true => exact .inl ⟨rfl, rfl, rfl⟩
      | false =>
        refine .inr ⟨rfl, isPartition_nil_iff.2 ⟨rfl, h.ended.resolve_left ?_⟩⟩
        rintro ⟨last, hlast, hleaves⟩
        obtain rfl : entry = last := by simpa using hlast
        rw [hleave] at hleaves
        contradiction
    | cons second entries =>
      refine .inr ⟨h.stays entry List.mem_cons_self, rfl, ?_, ?_, ?_, ?_, h.ended⟩
      · intro done taken later heq
        exact h.lineEnds (entry :: done) taken later (by rw [heq, List.cons_append])
      · exact fun taken hmem => h.complete taken (List.mem_cons_of_mem _ hmem)
      · exact fun taken hmem => h.inside taken (List.mem_cons_of_mem _ hmem)
      · exact fun taken hmem => h.stays taken (List.mem_cons_of_mem _ hmem)

theorem IsPartition.leave (h : IsFirstEntry input entry.text entry.lineEnd rest)
    (hleave : asksToLeave entry.text = true) : IsPartition input [entry] rest where
  joined := by simpa [Taken.source] using h.joined
  lineEnds := by
    intro done taken later heq
    obtain ⟨rfl, rfl, rfl⟩ : done = [] ∧ entry = taken ∧ later = [] := by
      rcases List.append_eq_singleton_iff.1 heq.symm with ⟨rfl, heq⟩ | ⟨-, heq⟩
      · cases heq
        exact ⟨rfl, rfl, rfl⟩
      · cases heq
    exact h.ends
  complete := by simpa using h.complete
  inside := by simpa using h.inside
  stays := by simp
  ended := .inl ⟨entry, rfl, hleave⟩

theorem IsPartition.cons {later : Text} (h : IsFirstEntry input entry.text entry.lineEnd later)
    (hstay : asksToLeave entry.text = false) (hlater : IsPartition later entries rest) :
    IsPartition input (entry :: entries) rest where
  joined := by
    rw [h.joined, hlater.joined, List.flatMap_cons, List.append_assoc (Taken.source entry)]
    rfl
  lineEnds := by
    intro done taken following heq
    cases done with
    | nil =>
      cases heq
      -- what follows the first entry is the input of the others
      rw [← hlater.joined]
      exact h.ends
    | cons first done =>
      cases heq
      exact hlater.lineEnds done taken following rfl
  complete := List.forall_mem_cons.2 ⟨h.complete, hlater.complete⟩
  inside := List.forall_mem_cons.2 ⟨h.inside, hlater.inside⟩
  stays := by
    cases entries with
    | nil => simp
    | cons second entries => exact List.forall_mem_cons.2 ⟨hstay, hlater.stays⟩
  ended := by
    cases entries with
    | nil => exact .inr (hlater.ended.resolve_left (by simp))
    | cons second entries => exact hlater.ended

theorem IsPartition.unique (h : IsPartition input entries rest)
    (h' : IsPartition input entries' rest') : entries = entries' ∧ rest = rest' := by
  induction entries generalizing input entries' with
  | nil =>
    obtain ⟨rfl, hrest⟩ := isPartition_nil_iff.1 h
    cases entries' with
    | nil => exact ⟨rfl, (isPartition_nil_iff.1 h').1⟩
    | cons entry' entries' =>
      obtain ⟨later, hfirst, -⟩ := h'.of_cons
      exact absurd hfirst hrest.not_isFirstEntry
  | cons entry entries ih =>
    obtain ⟨later, hfirst, hnext⟩ := h.of_cons
    cases entries' with
    | nil =>
      obtain ⟨rfl, hrest⟩ := isPartition_nil_iff.1 h'
      exact absurd hfirst hrest.not_isFirstEntry
    | cons entry' entries' =>
      obtain ⟨later', hfirst', hnext'⟩ := h'.of_cons
      obtain ⟨htext, hlineEnd, rfl⟩ := hfirst.unique hfirst'
      obtain ⟨text, lineEnd⟩ := entry
      obtain ⟨text', lineEnd'⟩ := entry'
      obtain rfl : text = text' := htext
      obtain rfl : lineEnd = lineEnd' := hlineEnd
      -- the entry is the same, so it ends both partitions or neither
      rcases hnext with ⟨hleave, rfl, rfl⟩ | ⟨hstay, hlater⟩ <;>
        rcases hnext' with ⟨hleave', rfl, rfl⟩ | ⟨hstay', hlater'⟩
      · exact ⟨rfl, rfl⟩
      · exact absurd (hleave.symm.trans hstay') (by decide)
      · exact absurd (hstay.symm.trans hleave') (by decide)
      · obtain ⟨rfl, rfl⟩ := ih hlater hlater'
        exact ⟨rfl, rfl⟩

end Partition

/-! ## Input lines of a text -/

theorem splitLineEnd_of_not_mem {line : Text} (h : '\n' ∉ line) :
    splitLineEnd line = (line, []) := by
  unfold splitLineEnd
  split
  · next hrev => exact absurd (List.mem_reverse.1 (hrev ▸ List.mem_cons_self)) h
  · next hrev => exact absurd (List.mem_reverse.1 (hrev ▸ List.mem_cons_self)) h
  · rfl

/-- The content of a line and its terminator. -/
theorem exists_splitLineEnd {line : Text} (h : '\n' ∉ line) :
    ∃ content lineEnd, splitLineEnd (line ++ ['\n']) = (content, lineEnd) ∧
      line ++ ['\n'] = content ++ lineEnd ∧ '\n' ∉ content ∧ IsTerminator content lineEnd := by
  by_cases hlast : line.getLast? = some '\r'
  · obtain ⟨content, rfl⟩ := List.getLast?_eq_some_iff.1 hlast
    refine ⟨content, ['\r', '\n'], by simp [splitLineEnd], by simp, ?_, .inl rfl⟩
    exact fun hmem => h (List.mem_append_left _ hmem)
  · refine ⟨line, ['\n'], ?_, rfl, h, .inr ⟨rfl, hlast⟩⟩
    unfold splitLineEnd
    split
    · next rest hrev =>
      rw [List.reverse_append, List.reverse_singleton, List.singleton_append] at hrev
      have hline : line = rest.reverse ++ ['\r'] := by
        simpa using congrArg List.reverse (List.cons.inj hrev).2
      rw [hline, List.getLast?_concat] at hlast
      exact absurd rfl hlast
    · next rest _ hrev =>
      rw [List.reverse_append, List.reverse_singleton, List.singleton_append] at hrev
      rw [← (List.cons.inj hrev).2, List.reverse_reverse]
    · next hnone =>
      exact absurd (by simp) (hnone line.reverse)

theorem inputOfText_last {line : Text} (h : '\n' ∉ line) (hne : line ≠ []) :
    inputOfText line = [.text line []] := by
  rw [inputOfText, splitAfter_of_not_mem h hne, List.map_singleton, InputLine.ofText,
    splitLineEnd_of_not_mem h]

theorem inputOfText_line {line content lineEnd : Text} (h : '\n' ∉ line)
    (hsplit : splitLineEnd (line ++ ['\n']) = (content, lineEnd)) (rest : Text) :
    inputOfText (line ++ '\n' :: rest) = .text content lineEnd :: inputOfText rest := by
  rw [inputOfText, splitAfter_append_mark h, List.map_cons, InputLine.ofText, hsplit]
  rfl

/-! ## Reading -/

/-- Lines that have been read without their being an entry yet. -/
structure IsPending (pending : Text) : Prop where
  ends : ∀ c ∈ pending.getLast?, c = '\n'
  inside : IncompleteInside pending

section Reading

variable {pending line text : Text}

theorem incompleteInside_of_not_mem (h : '\n' ∉ text) : IncompleteInside text := by
  intro part lineEnd more heq hterminator
  obtain ⟨init, hinit⟩ := hterminator.exists_newline
  rw [heq, hinit] at h
  exact absurd (by simp) h

theorem IncompleteInside.append_line (h : IncompleteInside pending) (hline : '\n' ∉ line) :
    IncompleteInside (pending ++ line) := by
  intro part lineEnd more heq hterminator
  rcases List.append_eq_append_iff.1 heq with ⟨done, hdone, hmore⟩ | ⟨rest, hrest, -⟩
  · -- a line that ends after the pending ones would end inside the last, which has no line feed
    obtain ⟨init, hinit⟩ := hterminator.exists_newline
    by_cases hnil : done = []
    · exact h part lineEnd [] (by rw [hdone, hnil, List.append_nil, List.append_nil]) hterminator
    · rw [hdone, ← List.dropLast_concat_getLast hnil, ← List.append_assoc] at hinit
      have hlast : done.getLast hnil = '\n' := by simpa using (List.append_inj' hinit rfl).2
      have hmem : '\n' ∈ done := hlast ▸ List.getLast_mem hnil
      exact absurd (hmore ▸ List.mem_append_left _ hmem) hline
  · exact h part lineEnd rest hrest hterminator

theorem IncompleteInside.append_lineEnd {lineEnd : Text} (h : IncompleteInside text)
    (hincomplete : isIncomplete text = true) (hterminator : IsTerminator text lineEnd) :
    IncompleteInside (text ++ lineEnd) := by
  intro part' lineEnd' more heq hterminator'
  by_cases hnil : more = []
  · rw [hnil, List.append_nil] at heq
    rwa [← (hterminator.unique hterminator' heq).1]
  · have hend : IsLineEnd text lineEnd [] := .inl hterminator
    obtain ⟨inside, hinside⟩ := hend.exists_inside hterminator' hnil heq
    exact h part' lineEnd' inside hinside hterminator'

theorem IncompleteInside.throughout (h : IncompleteInside text)
    (hincomplete : isIncomplete text = true) : IncompleteThroughout text := by
  rintro part lineEnd later heq (hterminator | ⟨rfl, rfl, -, -⟩)
  · exact h part lineEnd later heq hterminator
  · rwa [heq, List.append_nil, List.append_nil] at hincomplete

theorem IsPending.terminator (h : IsPending pending) {content lineEnd : Text}
    (hterminator : IsTerminator content lineEnd) : IsTerminator (pending ++ content) lineEnd := by
  rcases hterminator with rfl | ⟨rfl, hlast⟩
  · exact .inl rfl
  · refine .inr ⟨rfl, ?_⟩
    intro hreturn
    rw [List.getLast?_append] at hreturn
    cases hcontent : content.getLast? with
    | none =>
      rw [hcontent, Option.none_or] at hreturn
      exact absurd (h.ends _ hreturn) (by decide)
    | some c =>
      rw [hcontent, Option.some_or] at hreturn
      exact hlast (hcontent.trans hreturn)

theorem IsPending.incompleteThroughout (h : IsPending pending) : IncompleteThroughout pending := by
  rintro part lineEnd later heq (hterminator | ⟨rfl, rfl, hne, hlast⟩)
  · exact h.inside part lineEnd later heq hterminator
  · rw [List.append_nil, List.append_nil] at heq
    rw [← heq] at hne hlast
    rw [List.getLast?_eq_some_getLast hne] at hlast
    exact absurd (congrArg some (h.ends _ (List.getLast?_eq_some_getLast hne))) hlast

theorem getLast?_append_line (hline : '\n' ∉ line) (hne : line ≠ []) :
    (pending ++ line).getLast? ≠ some '\n' := by
  rw [List.getLast?_append, List.getLast?_eq_some_getLast hne, Option.some_or]
  exact fun hlast => hline (Option.some.inj hlast ▸ List.getLast_mem hne)

/-- Either the input ends before an entry is complete, or one is read, and it is the first entry of
    what is pending and what is left. -/
theorem readEntries_spec (text pending : Text) (tried : List Text) (h : IsPending pending) :
    (∃ tried', readEntries pending tried (inputOfText text) = ⟨[], tried', .endOfInput⟩ ∧
        IncompleteThroughout (pending ++ text)) ∨
      ∃ tried' entry lineEnd later, IsFirstEntry (pending ++ text) entry lineEnd later ∧
        readEntries pending tried (inputOfText text) =
          { entriesOf (inputOfText later) with
            entries := ⟨tried', entry⟩ :: (entriesOf (inputOfText later)).entries } := by
  -- one line after another: what is pending grows as long as it is incomplete
  induction text using lineInduction generalizing pending tried with
  | last line hline =>
    by_cases hnil : line = []
    · subst hnil
      rw [List.append_nil]
      exact .inl ⟨tried, rfl, h.incompleteThroughout⟩
    rw [inputOfText_last hline hnil, readEntries]
    have hinside : IncompleteInside (pending ++ line) := h.inside.append_line hline
    have hlast : (pending ++ line).getLast? ≠ some '\n' := getLast?_append_line hline hnil
    have hne : pending ++ line ≠ [] := List.append_ne_nil_of_right_ne_nil _ hnil
    by_cases hincomplete : isIncomplete (pending ++ line) = true
    · rw [if_pos hincomplete]
      exact .inl ⟨_, rfl, hinside.throughout hincomplete⟩
    · rw [if_neg hincomplete]
      refine .inr ⟨tried, pending ++ line, [], [], ?_, rfl⟩
      refine ⟨?_, .inr ⟨rfl, rfl, hne, hlast⟩, by simpa using hincomplete, hinside⟩
      rw [List.append_nil, List.append_nil]
  | line line rest hline ih =>
    obtain ⟨content, lineEnd, hsplit, hcontent, hmem, hterminator⟩ := exists_splitLineEnd hline
    rw [inputOfText_line hline hsplit, readEntries]
    have hjoined : pending ++ (line ++ '\n' :: rest) = pending ++ content ++ lineEnd ++ rest := by
      rw [List.append_assoc pending, ← hcontent]
      simp
    have hinside : IncompleteInside (pending ++ content) := h.inside.append_line hmem
    have hend : IsTerminator (pending ++ content) lineEnd := h.terminator hterminator
    rw [hjoined]
    by_cases hincomplete : isIncomplete (pending ++ content) = true
    · rw [if_pos hincomplete]
      refine ih _ _ ⟨?_, hinside.append_lineEnd hincomplete hend⟩
      obtain ⟨init, hinit⟩ := hend.exists_newline
      rw [hinit, List.getLast?_concat]
      simp
    · rw [if_neg hincomplete]
      exact .inr ⟨tried, pending ++ content, lineEnd, rest,
        ⟨rfl, .inl hend, by simpa using hincomplete, hinside⟩, rfl⟩

end Reading

theorem IsFirstEntry.length_lt {input entry lineEnd later : Text}
    (h : IsFirstEntry input entry lineEnd later) : later.length < input.length := by
  have hne : entry ++ lineEnd ≠ [] := by
    rcases h.ends with hterminator | ⟨-, -, hne, -⟩
    · obtain ⟨line, hline⟩ := hterminator.exists_newline
      simp [hline]
    · exact List.append_ne_nil_of_left_ne_nil hne _
  have hpos := List.length_pos_iff.2 hne
  rw [h.joined, List.length_append]
  omega

theorem readEntries_ending {input : List InputLine} (h : ∀ line ∈ input, line ≠ .unreadable)
    (pending : Text) (tried : List Text) :
    (readEntries pending tried input).ending = .endOfInput := by
  induction input generalizing pending tried with
  | nil => rfl
  | cons first input ih =>
    obtain ⟨hfirst, hlater⟩ := List.forall_mem_cons.1 h
    cases first with
    | unreadable => exact absurd rfl hfirst
    | text content lineEnd =>
      rw [readEntries]
      split
      · exact ih hlater _ _
      · exact ih hlater _ _

theorem entriesOf_ending (input : Text) : (entriesOf (inputOfText input)).ending = .endOfInput := by
  refine readEntries_ending ?_ [] []
  intro line hline
  obtain ⟨source, -, rfl⟩ := List.mem_map.1 hline
  exact InputLine.noConfusion

/-- The entries up to the first that ends the session. -/
def untilLeave : List Entry → List Entry
  | [] => []
  | entry :: later => if asksToLeave entry.text then [entry] else entry :: untilLeave later

/-- A complete line by itself is the one entry of its input. -/
theorem untilLeave_line {line : Text} (h : '\n' ∉ line) (hreturn : line.getLast? ≠ some '\r')
    (hcomplete : isIncomplete line = false) :
    untilLeave (entriesOf (inputOfText (line ++ ['\n']))).entries = [⟨[], line⟩] := by
  have hsplit : splitLineEnd (line ++ ['\n']) = (line, ['\n']) := by
    obtain ⟨content, lineEnd, hsplit, hjoined, -, hterminator⟩ := exists_splitLineEnd h
    obtain ⟨rfl, rfl⟩ := hterminator.unique (.inr ⟨rfl, hreturn⟩) hjoined.symm
    exact hsplit
  have hentries : (entriesOf (inputOfText (line ++ ['\n']))).entries = [⟨[], line⟩] := by
    rw [entriesOf, inputOfText_line h hsplit, readEntries, List.nil_append,
      if_neg (by simp [hcomplete])]
    rfl
  rw [hentries, untilLeave]
  split <;> rfl

/-- The first entry of an input is the first that is read. -/
theorem IsFirstEntry.exists_untilLeave {input entry lineEnd later : Text}
    (h : IsFirstEntry input entry lineEnd later) :
    ∃ tried, ⟨tried, entry⟩ ∈ untilLeave (entriesOf (inputOfText input)).entries := by
  have hempty : IsPending [] := ⟨by simp, incompleteInside_of_not_mem List.not_mem_nil⟩
  rcases readEntries_spec input [] [] hempty with
    ⟨_, _, hrest⟩ | ⟨tried, first, _, _, hfirst, hread⟩
  · exact absurd h hrest.not_isFirstEntry
  · obtain ⟨rfl, -, -⟩ := hfirst.unique h
    refine ⟨tried, ?_⟩
    rw [entriesOf, hread, untilLeave]
    split <;> exact List.mem_cons_self

/-- The entries that are read part the input. -/
theorem exists_isPartition (input : Text) :
    ∃ entries rest, IsPartition input entries rest ∧
      entries.map Taken.text =
        (untilLeave (entriesOf (inputOfText input)).entries).map Entry.text := by
  have hempty : IsPending [] := ⟨by simp, incompleteInside_of_not_mem List.not_mem_nil⟩
  rcases readEntries_spec input [] [] hempty with
    ⟨tried, hread, hrest⟩ | ⟨tried, entry, lineEnd, later, hfirst, hread⟩
  · rw [List.nil_append] at hrest
    exact ⟨[], input, isPartition_nil_iff.2 ⟨rfl, hrest⟩, by rw [entriesOf, hread]; rfl⟩
  · rw [List.nil_append] at hfirst
    have hlt := hfirst.length_lt
    rw [entriesOf, hread]
    by_cases hleave : asksToLeave entry = true
    · refine ⟨[⟨entry, lineEnd⟩], later, .leave hfirst hleave, ?_⟩
      simp [untilLeave, hleave]
    · obtain ⟨entries, rest, hpartition, htexts⟩ := exists_isPartition later
      rw [Bool.not_eq_true] at hleave
      refine ⟨⟨entry, lineEnd⟩ :: entries, rest, .cons hfirst hleave hpartition, ?_⟩
      simp [untilLeave, hleave, htexts]
termination_by input.length

end ScriptLexer
