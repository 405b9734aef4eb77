import ScriptLexer.Arguments
import ScriptLexer.Prompt.Session

set_option autoImplicit false

/-! # The program

A run scans code from its arguments, or files, or starts a session. Files are read first, all of them;
if one cannot be read nothing is scanned. Then every file is scanned, and only after that the tokens
and diagnostics of one file after another are shown. -/

namespace ScriptLexer

/-- The program apart from its parts. -/
def programTarget : Text := "bugsy".toList

namespace Program

variable {σ : Type} [Storage σ]

/-- What a run has done and how it ends. -/
structure Outcome where
  filter : LogFilter
  events : List Event
  status : ExitStatus

/-- The text of a run on standard output. -/
def Outcome.output (outcome : Outcome) : Text :=
  standardOutput outcome.events

/-- The text of a run on standard error. -/
def Outcome.errors (outcome : Outcome) : Text :=
  standardError outcome.filter outcome.events

/-- The status after scanning. -/
def statusOf (hadError : Bool) : ExitStatus :=
  if hadError then .dataError else .success

/-! ## Code -/

/-- Scans code, reporting as it goes, and shows its tokens. -/
def runCode (code : Text) (quiet : Bool) : List Event × ExitStatus :=
  let noticed := scanLive code none
  (noticed.events ++ (if quiet then [] else [.out (rowsText noticed.tokens)]),
    statusOf noticed.hadError)

/-! ## Files -/

/-- A file with its text. -/
structure Source where
  path : Text
  text : Text

/-- A file was read. -/
def loadedRecord (source : Source) : LogRecord :=
  { level := .debug
    target := programTarget
    message := "loaded script".toList
    values := [("path".toList, source.path), ("bytes".toList, natText (byteLength source.text))] }

/-- The files that could be read, up to the first that could not. -/
structure Loaded where
  sources : List Source
  failure : Option (Text × FileError)

/-- Reads files in order, and stops at the first that cannot be read. -/
def readSources (storage : σ) : List Text → Loaded
  | [] => ⟨[], none⟩
  | path :: rest =>
    match Storage.readText storage path with
    | .error error => ⟨[], some (path, error)⟩
    | .ok text =>
      let later := readSources storage rest
      { later with sources := ⟨path, text⟩ :: later.sources }

/-- A file cannot be read. -/
def couldNotRead (path : Text) (error : FileError) : List Segment :=
  [errorWord, .plain (": could not read '".toList ++ path ++ "': ".toList ++ error.message)]

/-- The line above the tokens of a file. -/
def fileHeader (path : Text) : List Segment :=
  [.bold .brightCyan ("==> ".toList ++ path ++ " <==".toList)]

/-- Shows the tokens of a scanned file and reports its diagnostics; tells whether there were any. -/
def showFile (quiet several : Bool) (source : Source) (scan : Scan) : List Event × Bool :=
  let shown : List Event :=
    if quiet then []
    else (if several then [.outLine (fileHeader source.path)] else []) ++
      [.out (rowsText scan.tokens)]
  let recorded := reportAll source.text (some source.path) scan.diagnostics
  (shown ++ recorded.events, recorded.reporter.hadError)

/-- Scans files. -/
def runFiles (storage : σ) (paths : List Text) (quiet : Bool) : List Event × ExitStatus :=
  let loaded := readSources storage paths
  let records := loaded.sources.map fun source => .log (loadedRecord source)
  match loaded.failure with
  | some (path, error) => (records ++ [.errLine (couldNotRead path error)], .noInput)
  | none =>
    let scans := tokenizeAll (loaded.sources.map Source.text)
    let shown := (loaded.sources.zip scans).map fun (source, scan) =>
      showFile quiet (1 < paths.length) source scan
    (records ++ loaded.sources.flatMap (fun source => silentEvents source.text) ++
      shown.flatMap Prod.fst, statusOf (shown.any Prod.snd))

/-! ## Runs -/

/-- What a run depends on beside the storage. -/
structure Environment where
  arguments : List Text
  /-- The log filter, if one is set. -/
  filter : Option Text
  /-- The name of the terminal; empty if there is none. -/
  terminal : Text
  /-- The home directory. -/
  home : Text
  input : List InputLine

/-- What the program says about itself. -/
def helpLines : List Text :=
  ["Token dump tool and REPL for the Bugsy scripting language".toList,
    "".toList,
    "Usage: bugsy [OPTIONS] [FILES]...".toList,
    "".toList,
    "Arguments:".toList,
    "  [FILES]...  Script files to scan; starts the REPL when none are given".toList,
    "".toList,
    "Options:".toList,
    "  -e, --eval <CODE>  Scan CODE instead of reading a file".toList,
    "  -q, --quiet        Only print diagnostics, not tokens".toList,
    "  -v, --verbose      Enable debug logging".toList,
    "  -h, --help         Print help".toList,
    "  -V, --version      Print version".toList]

/-- The line with the version. -/
def versionLine : Text :=
  "bugsy ".toList ++ Screen.version

/-- The filter of a verbose run that sets none. -/
def verboseFilter : LogFilter :=
  [{ target := "bugsy".toList, least := some .debug },
    { target := "bugsy_lexer".toList, least := some .debug }]

/-- The filter of a run: the one that is set if it can be understood. -/
def filterOf (setting : Option Text) (verbose : Bool) : LogFilter :=
  (setting.bind LogFilter.parse?).getD (if verbose then verboseFilter else LogFilter.quiet)

/-- Does what the options say. -/
def runOptions (storage : σ) (environment : Environment) (options : Options) :
    List Event × ExitStatus :=
  match options.code, options.files with
  | some code, _ => runCode code options.quiet
  | none, [] =>
    (Session.run storage environment.home environment.terminal environment.input, .success)
  | none, files => runFiles storage files options.quiet

/-- A whole run. -/
def run (storage : σ) (environment : Environment) : Outcome :=
  match Arguments.parse environment.arguments with
  | .error error => ⟨.quiet, [.errLine [.plain ("error: ".toList ++ error.message)]], .usage⟩
  | .ok .help => ⟨.quiet, helpLines.map fun line => .outLine [.plain line], .success⟩
  | .ok .version => ⟨.quiet, [.outLine [.plain versionLine]], .success⟩
  | .ok (.run options) =>
    let (events, status) := runOptions storage environment options
    ⟨filterOf environment.filter options.verbose, events, status⟩

end Program

end ScriptLexer
