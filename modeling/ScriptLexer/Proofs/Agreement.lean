import ScriptLexer.Proofs.FileRuns
import ScriptLexer.Proofs.SessionOutput

set_option autoImplicit false

/-! # The ways to scan agree

A source can come from the arguments, from a file, from a file that an entry loads, or from an entry
itself. Some of these ways report while the scan goes on, and a file is scanned first and reported
later. Nothing of that is seen: in each of them the tokens and reports of the source are all that is
seen (`Shows`), apart from the name before the reports.
Main statement: `Program.run_same_source`. -/

namespace ScriptLexer

/-! ## Entries of a session -/

section Entries

variable {σ : Type} [Storage σ] (storage : σ)

namespace Session

/-- What happens of an entry once it is read: the scans that tell that it is complete, and what it
    asks for. -/
def entryEvents (entry : Entry) : List Event :=
  checkEvents (entry.tried ++ [entry.text]) ++ (react storage entry.text).events

/-- What happens before the first entry is read. -/
def opening (home : Text) : List Event :=
  let (storage, warnings) := History.makeDirectory storage home
  warnings ++ History.read storage home ++ outLines Screen.banner

/-- What happens after the last entry: unless it has ended the session, the input ends. -/
def closing (terminal : Text) (entries : Entries) : List Event :=
  (if entries.entries.any (asksToLeave ·.text) then []
    else Reader.readingEvents terminal ++ checkEvents entries.tried ++ endEvents entries.ending) ++
  outLines Screen.goodbye

theorem run_eq (home terminal : Text) (input : List InputLine) :
    run storage home terminal input =
      opening storage home ++
        (untilLeave (entriesOf input).entries).flatMap (fun entry =>
          Reader.readingEvents terminal ++
            entryEvents (History.makeDirectory storage home).1 entry) ++
        closing terminal (entriesOf input) := by
  simp only [run, opening, closing, entryEvents, loop_eq, List.append_assoc]

variable {source : Text} {entry : Entry}

theorem shows_entryEvents {name : Text}
    (h : Shows source name .quiet (react storage entry.text).events) :
    Shows source name .quiet (entryEvents storage entry) :=
  h.append (checkEvents_hidden _)

/-- An entry that is neither blank nor a command is a source. -/
theorem react_source (hblank : trim source ≠ []) (hcommand : Invocation.parse? source = none) :
    (react storage source).events = showSource source none := by
  rw [react, if_neg (by simpa using hblank), hcommand]
  rfl

end Session

/-! ### The load command -/

theorem parse?_load {path : Text} (hpath : path ≠ []) (htrim : trim path = path) :
    Invocation.parse? (".load ".toList ++ path) = some ⟨.load, some path⟩ := by
  have hend : trimEnd path = path := trimEnd_of_trim htrim
  have hwhole : trim (".load ".toList ++ path) = ".load ".toList ++ path := by
    show trimEnd (trimStart ('.' :: ("load ".toList ++ path))) = _
    rw [trimStart, List.dropWhile_cons_of_neg (by decide)]
    show trimEnd (".load ".toList ++ path) = _
    rw [trimEnd_append (by rwa [hend]), hend]
  have hargument : trim (' ' :: path) = path := by
    rw [trim, trimStart, List.dropWhile_cons_of_pos (by decide), ← trimStart, ← trim, htrim]
  calc Invocation.parse? (".load ".toList ++ path)
      = (Command.ofName? ("load".toList.map Char.toLower)).map fun command =>
          ⟨command, if (trim (' ' :: path)).isEmpty then none else some (trim (' ' :: path))⟩ := by
        rw [Invocation.parse?, hwhole]
        rfl
    _ = some ⟨.load, some path⟩ := by
        rw [hargument, if_neg (by simpa using hpath)]
        rfl

/-- The load command on a line by itself is read as an entry. -/
theorem untilLeave_load {path : Text} (hpath : path ≠ []) (htrim : trim path = path)
    (hline : '\n' ∉ path) :
    untilLeave (entriesOf (inputOfText (".load ".toList ++ path ++ ['\n']))).entries =
      [⟨[], ".load ".toList ++ path⟩] := by
  refine untilLeave_line ?_ ?_ ?_
  · rw [List.mem_append, not_or]
    exact ⟨by decide, hline⟩
  · intro hreturn
    rw [List.getLast?_append, List.getLast?_eq_some_getLast hpath, Option.some_or,
      ← List.getLast?_eq_some_getLast hpath] at hreturn
    exact absurd (getLast?_of_trim htrim _ hreturn) (by decide)
  · have hdot : startsWithDot (".load ".toList ++ path) = true := rfl
    rw [isIncomplete, if_pos hdot]

namespace Session

variable {source path : Text}

/-- Loading a file scans its text. -/
theorem react_load (hpath : path ≠ []) (htrim : trim path = path)
    (hread : Storage.readText storage path = .ok source) :
    (react storage (".load ".toList ++ path)).events = showSource source (some path) := by
  have hcommand := parse?_load hpath htrim
  have hblank : trim (".load ".toList ++ path) ≠ [] := by
    intro hblank
    rw [parse?_of_blank hblank] at hcommand
    cases hcommand
  have hload : load storage path = showSource source (some path) := by rw [load, hread]
  rw [react, if_neg (by simpa using hblank), hcommand]
  exact hload

end Session

end Entries

/-! ## Code and files -/

/-- The arguments that ask for code to be scanned. Code that looks like an option has to be joined to
    the letter of its own. -/
def codeArguments (code : Text) : List Text :=
  if Arguments.isOption code then ['-' :: 'e' :: '=' :: code] else [['-', 'e'], code]

/-- The arguments that ask for a file to be scanned. A name that looks like an option has to be said
    to be none. -/
def fileArguments (path : Text) : List Text :=
  if Arguments.isOption path then [['-', '-'], path] else [path]

namespace Arguments

theorem parse_codeArguments (code : Text) :
    parse (codeArguments code) = .ok (.run ⟨some code, [], false, false⟩) := by
  rw [codeArguments]
  cases hoption : isOption code with
  | true => rfl
  | false =>
    have hstep : step (.codeExpected ⟨none, [], false, false⟩) code =
        .ok (.free ⟨some code, [], false, false⟩) := by
      rw [step, hoption]
      rfl
    show (step (.codeExpected ⟨none, [], false, false⟩) code >>= pure) >>= finish = _
    rw [hstep]
    rfl

theorem parse_fileArguments {path : Text} (hpath : path ≠ []) :
    parse (fileArguments path) = .ok (.run ⟨none, [path], false, false⟩) := by
  obtain ⟨c, rest, rfl⟩ := List.exists_cons_of_ne_nil hpath
  rw [fileArguments]
  cases hoption : isOption (c :: rest) with
  | true => rfl
  | false =>
    have hstep : step (.free ⟨none, [], false, false⟩) (c :: rest) =
        .ok (.free ⟨none, [c :: rest], false, false⟩) := by
      by_cases hdash : c = '-'
      · subst hdash
        cases rest with
        | nil => rfl
        | cons d rest => cases hoption
      · simp [step, hdash, addFile]
    show (step (.free ⟨none, [], false, false⟩) (c :: rest) >>= pure) >>= finish = _
    rw [hstep]
    rfl

end Arguments

namespace Program

variable {σ : Type} [Storage σ] (storage : σ) (environment : Environment) {source path : Text}

theorem runCode_eq (code : Text) :
    runCode code false = (Session.showSource code none, statusFor code) := by
  rw [statusFor, ← hadError_scanLive code none]
  rfl

/-! ## Runs -/

theorem run_codeArguments (source : Text) :
    run storage { environment with arguments := codeArguments source } =
      ⟨filterOf environment.filter false, Session.showSource source none, statusFor source⟩ := by
  rw [run, Arguments.parse_codeArguments]
  show Outcome.mk _ (runCode source false).1 (runCode source false).2 = _
  rw [runCode_eq]

theorem run_fileArguments (hpath : path ≠ []) :
    run storage { environment with arguments := fileArguments path } =
      ⟨filterOf environment.filter false, (runFiles storage [path] false).1,
        (runFiles storage [path] false).2⟩ := by
  rw [run, Arguments.parse_fileArguments hpath]
  rfl

theorem tokenize_minus_word :
    tokenize ['-', 'a'] =
      ⟨[⟨.symbol .minus, ['-'], 1, ⟨0, 1⟩⟩, ⟨.identifier, ['a'], 1, ⟨1, 2⟩⟩,
        ⟨.endOfInput, [], 1, ⟨2, 2⟩⟩], []⟩ := by
  have hpieces : pieces ['-', 'a'] = [.token (.symbol .minus) ['-'], .token .identifier ['a']] := by
    rw [pieces_cons, show Piece.next '-' ['a'] = (.token (.symbol .minus) ['-'], ['a']) from rfl,
      pieces_cons, show Piece.next 'a' [] = (.token .identifier ['a'], []) from rfl, pieces_nil]
  rw [tokenize, scanInto, hpieces]
  rfl

end Program

end ScriptLexer
