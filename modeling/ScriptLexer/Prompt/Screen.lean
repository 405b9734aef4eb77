import ScriptLexer.Prompt.Command
import ScriptLexer.Style

set_option autoImplicit false

/-! # What the prompt shows

The texts that frame a session: the banner, the prompt itself, the answers of commands, and the
goodbye. Each is a list of lines of segments. -/

namespace ScriptLexer

namespace Screen

/-- A line without anything on it. -/
def blank : List Segment := []

/-- The version of the program. -/
def version : Text := "0.1.0".toList

/-- The version of the toolchain that the program names beside its own. -/
def toolchainVersion : Text := "1.85".toList

/-- The lines of the name in large letters. -/
def logo : List Text :=
  ["   ___                      ".toList,
    "  / __\\_   _  __ _ ___ _   _ ".toList,
    " /__\\// | | |/ _` / __| | | |".toList,
    "/ \\/  \\ |_| | (_| \\__ \\ |_| |".toList,
    "\\_____/\\__,_|\\__, |___/\\__, |".toList,
    "             |___/     |___/ ".toList]

/-- What a session starts with. -/
def banner : List (List Segment) :=
  [blank] ++ logo.map (fun line => [.bold .brightCyan line]) ++
    [blank,
      [.plain "  ".toList, .bold .white "Bugsy Lexer".toList, .plain [' '], .dimmed ['v'],
        .plain [' '], .coloured .brightYellow version],
      [.plain "  ".toList, .dimmed "Type Bugsy code to see its tokens".toList],
      blank,
      [.plain "  ".toList, .dimmed "Type".toList, .plain [' '], .coloured .cyan ".help".toList,
        .plain [' '], .dimmed "for available commands".toList],
      blank]

/-- The prompt. -/
def prompt : List Segment :=
  [.bold .brightGreen "bugsy>".toList, .plain [' ']]

/-- The end of the input. -/
def endOfInput : List Segment :=
  [.dimmed "^D".toList]

/-- What a session ends with. -/
def goodbye : List (List Segment) :=
  [blank, [.coloured .brightCyan "Goodbye!".toList], blank]

/-- A line of help: what to type, and what it does. -/
def helpLine (colour : Colour) (keys summary : Text) : List Segment :=
  [.plain "  ".toList, .coloured colour (padEnd 16 keys), .plain [' '], .dimmed summary]

/-- The keys that do something while a line is edited. -/
def shortcuts : List (Text × Text) :=
  [("Ctrl+C".toList, "Cancel current input".toList),
    ("Ctrl+D".toList, "Exit REPL".toList),
    ("Ctrl+L".toList, "Clear screen".toList),
    ("Tab".toList, "Complete keywords".toList),
    ("↑/↓".toList, "Navigate history".toList)]

/-- The answer to the help command. -/
def help : List (List Segment) :=
  [blank, [.bold .white "REPL Commands:".toList], blank] ++
    Command.all.map (fun command => helpLine .cyan command.usage command.summary) ++
    [blank, [.bold .white "Keyboard Shortcuts:".toList], blank] ++
    shortcuts.map (fun (keys, summary) => helpLine .yellow keys summary) ++
    [blank]

/-- The answer to the version command. -/
def versions : List (List Segment) :=
  [blank,
    [.bold .brightCyan "Bugsy".toList, .plain ": ".toList, .coloured .yellow version],
    [.dimmed "Rust".toList, .plain (": ".toList ++ toolchainVersion)],
    blank]

/-- Clears the screen and goes to its upper left corner. -/
def clear : Text := "\x1b[2J\x1b[H".toList

end Screen

end ScriptLexer
