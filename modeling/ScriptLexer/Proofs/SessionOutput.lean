import ScriptLexer.File.Snapshot
import ScriptLexer.Proofs.Continuation
import ScriptLexer.Proofs.Partition
import ScriptLexer.Proofs.Trimming
import ScriptLexer.Proofs.Visible

set_option autoImplicit false

/-! # What a session shows

A session deals with the entries of its input in order, up to the first that ends it, and nothing
else is noticed of it (`Session.loop_eq`). Only the answers to the entries and the texts around them
are on standard output; records and reports are not. Together with the parts of the input that are
the entries (`exists_isPartition`) this says what standard output is for every input. Main statement:
`Session.run_partition`. -/

namespace ScriptLexer

/-! ## Events that are not answers -/

theorem standardOutput_outLines (lines : List (List Segment)) :
    standardOutput (Session.outLines lines) = lines.flatMap renderLine := by
  induction lines with
  | nil => rfl
  | cons line lines ih =>
    rw [List.flatMap_cons, ← ih]
    rfl

theorem standardOutput_readingEvents {terminal : Text}
    (h : terminal.map Char.toLower ∉ Reader.plainTerminals) :
    standardOutput (Reader.readingEvents terminal) = [] := by
  rw [Reader.readingEvents, if_neg (by simpa using h)]
  rfl

/-! ### History -/

section History

variable {σ : Type} [Storage σ]

theorem standardOutput_readLines (escaped : Bool) (lines : List InputLine) :
    standardOutput (History.readLines escaped lines) = [] := by
  induction lines with
  | nil => rfl
  | cons line lines ih =>
    cases line with
    | unreadable => rfl
    | text content lineEnd =>
      rw [History.readLines, standardOutput_append, ih]
      split <;> rfl

theorem standardOutput_readHistory (storage : σ) (home : Text) :
    standardOutput (History.read storage home) = [] := by
  rw [History.read]
  split
  · unfold History.readFile
    split <;> exact standardOutput_readLines _ _
  · rfl

theorem standardOutput_makeDirectory (storage : σ) (home : Text) :
    standardOutput (History.makeDirectory storage home).2 = [] := by
  rw [History.makeDirectory]
  split <;> rfl

end History

/-! ## Answers -/

namespace Session

variable {σ : Type} [Storage σ]

/-- What an entry shows on standard output. -/
def answer (storage : σ) (entry : Text) : Text :=
  if trim entry = [] then []
  else match Invocation.parse? (trim entry) with
    | some ⟨.help, _⟩ => Screen.help.flatMap renderLine
    | some ⟨.clear, _⟩ => Screen.clear
    | some ⟨.version, _⟩ => Screen.versions.flatMap renderLine
    | some ⟨.load, some path⟩ =>
      match Storage.readText storage path with
      | .ok source => rowsText (tokenize source).tokens
      | .error _ => []
    | some ⟨.load, none⟩ | some ⟨.exit, _⟩ => []
    | none => rowsText (tokenize entry).tokens

/-- The events of a reaction. -/
def Reaction.events : Reaction → List Event
  | .leave => []
  | .stay events => events

theorem standardOutput_react (storage : σ) (entry : Text) :
    standardOutput (react storage entry).events = answer storage entry := by
  rw [react, answer, parse?_trim]
  by_cases hblank : trim entry = []
  · rw [if_pos hblank, hblank]
    rfl
  · rw [if_neg hblank, if_neg (by simpa using hblank)]
    cases Invocation.parse? entry with
    | none => exact (shows_showSource entry none).rows
    | some invocation =>
      obtain ⟨command, argument⟩ := invocation
      cases command with
      | exit => rfl
      | help => exact standardOutput_outLines Screen.help
      | clear => exact List.append_nil _
      | version => exact standardOutput_outLines Screen.versions
      | load =>
        cases argument with
        | none => rfl
        | some path =>
          simp only [runCommand, Reaction.events, load]
          cases Storage.readText storage path with
          | ok source => exact (shows_showSource source (some path)).rows
          | error error => rfl

theorem react_eq_leave_iff (storage : σ) (entry : Text) :
    react storage entry = .leave ↔ asksToLeave entry = true := by
  rw [react, asksToLeave, parse?_trim]
  by_cases hblank : trim entry = []
  · rw [hblank, parse?_of_blank hblank]
    simp
  · rw [if_neg (by simpa using hblank)]
    cases Invocation.parse? entry with
    | none => simp
    | some invocation =>
      obtain ⟨command, argument⟩ := invocation
      cases command <;> cases argument <;> simp [runCommand]

/-! ## The loop -/

/-- A session is made up of what happens for each entry up to the one that ends it, and if there is
    none of what happens when the input ends. -/
theorem loop_eq (storage : σ) (reading : List Event) (tried : List Text) (ending : Ending)
    (entries : List Entry) :
    loop storage reading tried ending entries =
      (untilLeave entries).flatMap (fun entry =>
        reading ++ checkEvents (entry.tried ++ [entry.text]) ++
          (react storage entry.text).events) ++
      if entries.any (asksToLeave ·.text) then []
      else reading ++ checkEvents tried ++ endEvents ending := by
  induction entries with
  | nil => rfl
  | cons entry later ih =>
    rw [loop, untilLeave, List.any_cons]
    -- whether an entry ends the session is decided by its text alone, not by the storage
    cases hleave : asksToLeave entry.text with
    | true =>
      have hreact := (react_eq_leave_iff storage entry.text).2 hleave
      simp [hreact, Reaction.events]
    | false =>
      cases hreact : react storage entry.text with
      | leave =>
        rw [(react_eq_leave_iff storage entry.text).1 hreact] at hleave
        contradiction
      | stay events => simp [hreact, ih, Reaction.events]

theorem standardOutput_loop (storage : σ) {reading : List Event}
    (hreading : standardOutput reading = []) (tried : List Text) (ending : Ending)
    (entries : List Entry) :
    standardOutput (loop storage reading tried ending entries) =
      (untilLeave entries).flatMap (fun entry => answer storage entry.text) ++
      if entries.any (asksToLeave ·.text) then [] else standardOutput (endEvents ending) := by
  rw [loop_eq, standardOutput_append, standardOutput_flatMap]
  congr 1
  · apply List.flatMap_congr
    intro entry _
    rw [standardOutput_append, standardOutput_append, hreading, standardOutput_hidden (checkEvents_hidden _),
      standardOutput_react]
    rfl
  · split
    · rfl
    · rw [standardOutput_append, standardOutput_append, hreading, standardOutput_hidden (checkEvents_hidden _)]
      rfl

theorem any_untilLeave (entries : List Entry) :
    (untilLeave entries).any (asksToLeave ·.text) = entries.any (asksToLeave ·.text) := by
  induction entries with
  | nil => rfl
  | cons entry later ih =>
    rw [untilLeave]
    by_cases hleave : asksToLeave entry.text = true
    · simp [hleave]
    · simp [hleave, ih]

/-- The standard output of a session, whatever its input and however that ends. -/
theorem standardOutput_run (storage : σ) (home : Text) {terminal : Text}
    (hterminal : terminal.map Char.toLower ∉ Reader.plainTerminals) (input : List InputLine) :
    standardOutput (run storage home terminal input) =
      Screen.banner.flatMap renderLine ++
        (untilLeave (entriesOf input).entries).flatMap
          (fun entry => answer (History.makeDirectory storage home).1 entry.text) ++
        (if (entriesOf input).entries.any (asksToLeave ·.text) then []
          else standardOutput (endEvents (entriesOf input).ending)) ++
        Screen.goodbye.flatMap renderLine := by
  have hloop := standardOutput_loop (History.makeDirectory storage home).1
    (standardOutput_readingEvents hterminal) (entriesOf input).tried (entriesOf input).ending
    (entriesOf input).entries
  simp only [run, standardOutput_append, standardOutput_makeDirectory, standardOutput_readHistory,
    standardOutput_outLines, hloop, List.nil_append, List.append_assoc]

theorem tokenize_parens :
    tokenize "(\r\n)".toList =
      ⟨[⟨.symbol .leftParen, ['('], 1, ⟨0, 1⟩⟩, ⟨.symbol .rightParen, [')'], 2, ⟨3, 4⟩⟩,
        ⟨.endOfInput, [], 2, ⟨4, 4⟩⟩], []⟩ := by
  have hpieces : pieces "(\r\n)".toList =
      [.token (.symbol .leftParen) ['('], .separator '\r', .separator '\n',
        .token (.symbol .rightParen) [')']] := by
    show pieces ['(', '\r', '\n', ')'] = _
    rw [pieces_cons, show Piece.next '(' ['\r', '\n', ')'] =
        (.token (.symbol .leftParen) ['('], ['\r', '\n', ')']) from rfl,
      pieces_cons, Piece.next_separator (by decide), pieces_cons, Piece.next_separator (by decide),
      pieces_cons, show Piece.next ')' [] = (.token (.symbol .rightParen) [')'], []) from rfl,
      pieces_nil]
  rw [tokenize, scanInto, hpieces]
  rfl

/-- **A session parts its input.** For every input there is one way to part it into entries, these
    are the entries that the session deals with, and standard output holds their answers in order,
    after the banner and before the end of the input, if it is reached, and the goodbye. -/
theorem run_partition (storage : σ) (home terminal input : Text)
    (hterminal : terminal.map Char.toLower ∉ Reader.plainTerminals) :
    ∃ entries rest, IsPartition input entries rest ∧
      (∀ entries' rest', IsPartition input entries' rest' → entries' = entries ∧ rest' = rest) ∧
      entries.map Taken.text =
        (untilLeave (entriesOf (inputOfBytes (String.ofList input).toUTF8)).entries).map Entry.text ∧
      standardOutput (run storage home terminal (inputOfBytes (String.ofList input).toUTF8)) =
        Screen.banner.flatMap renderLine ++
          entries.flatMap (fun entry => answer (History.makeDirectory storage home).1 entry.text) ++
          (if entries.any (asksToLeave ·.text) then [] else renderLine Screen.endOfInput) ++
          Screen.goodbye.flatMap renderLine := by
  obtain ⟨entries, rest, hpartition, htexts⟩ := exists_isPartition input
  rw [inputOfBytes_utf8, standardOutput_run storage home hterminal]
  refine ⟨entries, rest, hpartition, fun _ _ h => h.unique hpartition, htexts, ?_⟩
  -- both sides look at the texts of the entries only
  have hanswers : ∀ f : Text → Text, entries.flatMap (fun entry => f entry.text) =
      (untilLeave (entriesOf (inputOfText input)).entries).flatMap fun entry => f entry.text := by
    intro f
    rw [← List.flatMap_map Taken.text, htexts, List.flatMap_map]
  have hleaves : entries.any (asksToLeave ·.text) =
      (entriesOf (inputOfText input)).entries.any (asksToLeave ·.text) := by
    rw [← any_untilLeave]
    have hany := congrArg (List.any · asksToLeave) htexts
    simpa only [List.any_map, Function.comp_def] using hany
  have hend : standardOutput (endEvents .endOfInput) = renderLine Screen.endOfInput :=
    List.append_nil _
  rw [hanswers, hleaves, entriesOf_ending, hend]

/-- An entry of two lines, a command, and a line that is never complete; the first and the third line
    end in CR LF. -/
theorem run_partition_dangling :
    let input := "(\r\n)\n.v\r\n(".toList
    IsPartition input [⟨"(\r\n)".toList, ['\n']⟩, ⟨".v".toList, ['\r', '\n']⟩] ['('] ∧
      standardOutput (run (Snapshot.mk [] []) [] []
        (inputOfBytes (String.ofList input).toUTF8)) =
        Screen.banner.flatMap renderLine ++
          rowsText [⟨.symbol .leftParen, ['('], 1, ⟨0, 1⟩⟩, ⟨.symbol .rightParen, [')'], 2, ⟨3, 4⟩⟩,
            ⟨.endOfInput, [], 2, ⟨4, 4⟩⟩] ++
          Screen.versions.flatMap renderLine ++ renderLine Screen.endOfInput ++
          Screen.goodbye.flatMap renderLine := by
  intro input
  have hopen : isIncomplete ['('] = true := isIncomplete_spelling .leftParen (by decide)
  have hclosed : isIncomplete "(\r\n)".toList = false := by
    rw [isIncomplete, tokenize_parens]
    rfl
  have hstart : IncompleteInside ['('] := incompleteInside_of_not_mem (by decide)
  have hpending : IncompleteInside "(\r\n".toList := hstart.append_lineEnd hopen (.inl rfl)
  have hinside : IncompleteInside "(\r\n)".toList :=
    hpending.append_line (show '\n' ∉ [')'] by decide)
  have hrest : IsPartition ['('] [] ['('] :=
    isPartition_nil_iff.2 ⟨rfl, hstart.throughout hopen⟩
  have hcommand : IsFirstEntry ".v\r\n(".toList ".v".toList ['\r', '\n'] ['('] :=
    ⟨by decide, .inl (.inl rfl), by decide, incompleteInside_of_not_mem (by decide)⟩
  have hentry : IsFirstEntry input "(\r\n)".toList ['\n'] ".v\r\n(".toList :=
    ⟨by decide, .inl (.inr ⟨rfl, by decide⟩), hclosed, hinside⟩
  have hknown : IsPartition input
      [⟨"(\r\n)".toList, ['\n']⟩, ⟨".v".toList, ['\r', '\n']⟩] ['('] :=
    .cons hentry (by decide) (.cons hcommand (by decide) hrest)
  obtain ⟨entries, rest, -, hunique, -, houtput⟩ :=
    run_partition (Snapshot.mk [] []) [] [] input (by decide)
  obtain ⟨rfl, rfl⟩ := hunique _ _ hknown
  refine ⟨hknown, ?_⟩
  have hrows : answer (History.makeDirectory (Snapshot.mk [] []) []).1 "(\r\n)".toList =
      rowsText (tokenize "(\r\n)".toList).tokens := rfl
  have hversions : answer (History.makeDirectory (Snapshot.mk [] []) []).1 ".v".toList =
      Screen.versions.flatMap renderLine := rfl
  have hstay : ([⟨"(\r\n)".toList, ['\n']⟩, ⟨".v".toList, ['\r', '\n']⟩] : List Taken).any
      (asksToLeave ·.text) = false := by decide
  rw [houtput, hstay, List.flatMap_cons, List.flatMap_singleton, hrows, hversions, tokenize_parens]
  simp only [Bool.false_eq_true, if_false, List.append_assoc]

end Session

end ScriptLexer
