import ScriptLexer.Text.Bytes

set_option autoImplicit false

/-! # Command line arguments

Arguments are taken in order. The request for help or for the version counts as soon as it is met, a
mistake does so too, and what stands later is not looked at. Options and file names may be mixed;
after `--` everything is a file name. -/

namespace ScriptLexer

/-- What to run. -/
structure Options where
  /-- Code to scan instead of files. -/
  code : Option Text
  files : List Text
  /-- Tokens are not shown. -/
  quiet : Bool
  /-- Debug records are shown. -/
  verbose : Bool

/-- What is asked for. -/
inductive Request where
  | help
  | version
  | run (options : Options)

/-- Why arguments cannot be understood. -/
inductive UsageError where
  | unknownOption (option : Text)
  | repeatedOption (option : Text)
  | missingCode
  | unexpectedValue (option : Text)
  | codeWithFiles
  | emptyFileName
deriving DecidableEq

/-- The wording of a usage error. -/
def UsageError.message : UsageError → Text
  | unknownOption option => "unknown option ".toList ++ option
  | repeatedOption option => "option given twice: ".toList ++ option
  | missingCode => "no code after --eval".toList
  | unexpectedValue option => "option takes no value: ".toList ++ option
  | codeWithFiles => "code and files cannot both be given".toList
  | emptyFileName => "a file name is empty".toList

/-- The options by what they ask for. -/
inductive Flag where
  | code | quiet | verbose | help | version
deriving DecidableEq

namespace Flag

/-- Every option. -/
def all : List Flag := [code, quiet, verbose, help, version]

/-- The letter of an option. -/
def letter : Flag → Char
  | code => 'e'
  | quiet => 'q'
  | verbose => 'v'
  | help => 'h'
  | version => 'V'

/-- The word of an option. -/
def word : Flag → Text
  | code => "eval".toList
  | quiet => "quiet".toList
  | verbose => "verbose".toList
  | help => "help".toList
  | version => "version".toList

/-- The option with the given letter. -/
def ofLetter? (c : Char) : Option Flag :=
  all.find? (·.letter = c)

/-- The option with the given word, which has to be whole. -/
def ofWord? (word : Text) : Option Flag :=
  all.find? (·.word = word)

end Flag

namespace Arguments

/-- Where the reading of arguments stands. -/
inductive Reading where
  /-- Options and file names may follow. -/
  | free (options : Options)
  /-- The next argument is the code. -/
  | codeExpected (options : Options)
  /-- Only file names follow. -/
  | filesOnly (options : Options)
  /-- Help or the version was asked for. -/
  | answered (request : Request)

/-! ## One argument -/

/-- The options with one more file. -/
def addFile (options : Options) (name : Text) : Except UsageError Options :=
  if name.isEmpty then .error .emptyFileName
  else .ok { options with files := options.files ++ [name] }

/-- The options with code, which may be given once. -/
def setCode (options : Options) (code : Text) : Except UsageError Reading :=
  if options.code.isSome then .error (.repeatedOption Flag.code.word)
  else .ok (.free { options with code := some code })

/-- Takes an option without a value. -/
def take (options : Options) : Flag → Except UsageError Reading
  | .code => .ok (.codeExpected options)
  | .help => .ok (.answered .help)
  | .version => .ok (.answered .version)
  | .quiet =>
    if options.quiet then .error (.repeatedOption Flag.quiet.word)
    else .ok (.free { options with quiet := true })
  | .verbose =>
    if options.verbose then .error (.repeatedOption Flag.verbose.word)
    else .ok (.free { options with verbose := true })

/-- Takes an option by its word; a value may follow an equals sign. -/
def takeWord (options : Options) (argument : Text) : Except UsageError Reading :=
  let word := argument.takeWhile (· ≠ '=')
  match Flag.ofWord? word, argument.dropWhile (· ≠ '=') with
  | none, _ => .error (.unknownOption argument)
  | some flag, [] => take options flag
  | some .code, _ :: value => setCode options value
  | some _, _ :: _ => .error (.unexpectedValue word)

/-- Takes options by their letters. What follows the letter of the code option is the code; one equals
    sign before it does not belong to it. -/
def takeLetters (options : Options) : Text → Except UsageError Reading
  | [] => .ok (.free options)
  | c :: rest =>
    match Flag.ofLetter? c with
    | none => .error (.unknownOption [c])
    | some .code =>
      match rest with
      | [] => .ok (.codeExpected options)
      | '=' :: value => setCode options value
      | value => setCode options value
    | some flag => do
      match ← take options flag with
      | .free options => takeLetters options rest
      | reading => .ok reading

/-- Whether an argument has the form of an option. A lone dash is a file name. -/
def isOption : Text → Bool
  | '-' :: _ :: _ => true
  | _ => false

/-- Takes one argument. -/
def step (reading : Reading) (argument : Text) : Except UsageError Reading :=
  match reading with
  | .answered _ => .ok reading
  | .filesOnly options => .filesOnly <$> addFile options argument
  | .codeExpected options =>
    if isOption argument then .error .missingCode else setCode options argument
  | .free options =>
    match argument with
    | ['-', '-'] => .ok (.filesOnly options)
    | '-' :: '-' :: word => takeWord options word
    | '-' :: c :: letters => takeLetters options (c :: letters)
    | name => .free <$> addFile options name

/-! ## All arguments -/

/-- What is asked for when no argument is left. -/
def finish : Reading → Except UsageError Request
  | .answered request => .ok request
  | .codeExpected _ => .error .missingCode
  | .free options | .filesOnly options =>
    if options.code.isSome ∧ ¬ options.files.isEmpty then .error .codeWithFiles
    else .ok (.run options)

/-- Reads the arguments of a run. -/
def parse (arguments : List Text) : Except UsageError Request :=
  arguments.foldlM step (.free ⟨none, [], false, false⟩) >>= finish

end Arguments

end ScriptLexer
