import ScriptLexer.Text.Alphanumeric
import ScriptLexer.Text.Blank

set_option autoImplicit false

/-! # Patterns

Which texts are patterns, that is regular expressions: alternatives, groups, repetition, bracketed
classes, escapes and flags. Characters beyond ASCII are plain characters here, without tables of their
properties. So unless the flag `u` is switched off a pattern cannot ignore case, look for the edge of a
word, or use a class that has a letter for its name; and once it is switched off, nothing may match
half a character.

Only whether a text is a pattern is decided (`isPattern`); nothing is matched. Each step takes the text
that is left, without the character that led to it, and gives back what follows. -/

namespace ScriptLexer

namespace Pattern

/-! ## Flags -/

/-- The flags that decide what may follow. -/
structure Flags where
  ignoreCase : Bool
  unicode : Bool
  ignoreBlank : Bool

namespace Flags

/-- The flags at the start of a pattern. -/
def initial : Flags := ⟨false, true, false⟩

/-- Switches a flag. The others only decide what is matched. -/
def switch (on : Bool) (flags : Flags) : Char → Flags
  | 'i' => { flags with ignoreCase := on }
  | 'u' => { flags with unicode := on }
  | 'x' => { flags with ignoreBlank := on }
  | _ => flags

/-- Switches the flags in a list on, and those after a minus sign off. -/
def change (flags : Flags) (list : Text) : Flags :=
  let on := list.takeWhile (· != '-')
  (list.drop on.length).foldl (switch false) (on.foldl (switch true) flags)

/-- Whether a text is a list of flags: none twice, at most one minus sign, and that not at the end. -/
def isList (list : Text) : Bool :=
  list.all (fun c => ['-', 'i', 'm', 's', 'U', 'u', 'R', 'x'].contains c && list.count c == 1) &&
    list.getLast? != some '-'

/-- Whether characters can be named, which would need their case if that is ignored. -/
def namesChars (flags : Flags) : Bool :=
  !(flags.ignoreCase && flags.unicode)

end Flags

/-! ## Escapes -/

/-- The value of a hexadecimal digit. -/
def hexDigit? (c : Char) : Option Nat :=
  if c.isDigit then some (c.toNat - '0'.toNat)
  else if 'a' ≤ c.toLower ∧ c.toLower ≤ 'f' then some (c.toLower.toNat - 'a'.toNat + 10)
  else none

/-- The character with a number of so many hexadecimal digits; `value` is that of the digits before. -/
def hexChar? (value : Nat) : Nat → Text → Option (Char × Text)
  | 0, rest => if value.isValidChar then some (Char.ofNat value, rest) else none
  | _ + 1, [] => none
  | count + 1, c :: rest => do hexChar? (16 * value + (← hexDigit? c)) count rest

/-- The control characters that have a letter of their own. -/
def controlChar? : Char → Option Char
  | 'a' => some '\x07'
  | 'f' => some '\x0c'
  | 'n' => some '\n'
  | 'r' => some '\r'
  | 't' => some '\t'
  | 'v' => some '\x0b'
  | _ => none

/-- The character that an escape stands for. Punctuation stands for itself. -/
def escapedChar? : Text → Option (Char × Text)
  | [] => none
  | 'x' :: rest => hexChar? 0 2 rest
  | 'u' :: rest => hexChar? 0 4 rest
  | 'U' :: rest => hexChar? 0 8 rest
  | c :: rest =>
    match controlChar? c with
    | some control => some (control, rest)
    | none =>
      if c.toNat < 128 ∧ ¬ c.isAlphanum ∧ c ≠ '<' ∧ c ≠ '>' then some (c, rest) else none

/-- The character that an escape stands for, or no character if it stands for a class. -/
def escapedItem? (flags : Flags) : Text → Option (Option Char × Text)
  | 'd' :: rest | 's' :: rest | 'w' :: rest => if flags.unicode then none else some (none, rest)
  | source => (escapedChar? source).map fun (c, rest) => (some c, rest)

/-- What follows an escape outside a class, where it may also stand for a place in the text. -/
def skipEscape? (flags : Flags) : Text → Option Text
  | 'A' :: rest | 'z' :: rest => some rest
  | 'b' :: rest | 'B' :: rest => if flags.unicode then none else some rest
  | source =>
    match escapedItem? flags source with
    | some (some _, rest) => if flags.namesChars then some rest else none
    | some (none, rest) => some rest
    | none => none

/-! ## Classes -/

/-- What follows the opening bracket of a class, a caret, and the characters that mean themselves in
    this place: hyphens, or one closing bracket. -/
def skipClassStart (source : Text) : Text :=
  let source := match source with
    | '^' :: rest => rest
    | _ => source
  match source with
  | ']' :: rest => rest
  | _ => source.dropWhile (· == '-')

/-- One item of a class: a character, or a class with a name. -/
def classItem? (flags : Flags) : Text → Option (Option Char × Text)
  | [] => none
  | '\\' :: rest => escapedItem? flags rest
  | c :: rest => if flags.unicode ∨ c.toNat < 128 then some (some c, rest) else none

/-- What follows an item of a class or a range of characters. A range runs upwards. -/
def skipRange? (flags : Flags) (source : Text) : Option Text := do
  let (first, rest) ← classItem? flags source
  match rest with
  | '-' :: ']' :: _ | '-' :: '-' :: _ => some rest
  | '-' :: stop => do
    let (last, rest) ← classItem? flags stop
    if (← first) ≤ (← last) then some rest else none
  | _ => some rest

/-- What follows a class, of which `depth` classes around the current one are open as well. There are
    at most `fuel` steps. -/
def skipClass? (flags : Flags) : Nat → Nat → Text → Option Text
  | 0, _, _ => none
  | _, _, [] => none
  | fuel + 1, depth, '[' :: rest => skipClass? flags fuel (depth + 1) (skipClassStart rest)
  | fuel + 1, depth, ']' :: rest =>
    match depth with
    | 0 => some rest
    | depth + 1 => skipClass? flags fuel depth rest
  | fuel + 1, depth, '&' :: '&' :: rest | fuel + 1, depth, '-' :: '-' :: rest
  | fuel + 1, depth, '~' :: '~' :: rest => skipClass? flags fuel depth rest
  | fuel + 1, depth, source => do skipClass? flags fuel depth (← skipRange? flags source)

/-- What follows a whole class. What is not in a class may be half a character. -/
def skipWholeClass? (flags : Flags) (source : Text) : Option Text :=
  if flags.namesChars ∧ (flags.unicode ∨ source.head? ≠ some '^') then
    skipClass? flags (source.length + 1) 0 (skipClassStart source)
  else none

/-! ## Groups -/

/-- What an opening parenthesis opens. -/
inductive Opening where
  | group
  | namedGroup (name : Text)
  | groupWithFlags (list : Text)
  /-- Flags for what follows, without a group. -/
  | flags (list : Text)

/-- Whether a text can be the name of a group. -/
def isGroupName : Text → Bool
  | [] => false
  | c :: rest => (c == '_' || isAlphanumeric c && !c.isDigit) &&
      rest.all fun c => ['_', '.', '[', ']'].contains c || isAlphanumeric c

/-- The name of a group. -/
def openNamed? (source : Text) : Option (Opening × Text) :=
  let name := source.takeWhile (· != '>')
  match source.drop name.length with
  | [] => none
  | _ :: rest => if isGroupName name then some (.namedGroup name, rest) else none

/-- What an opening parenthesis opens. Nothing can look around. -/
def opening? : Text → Option (Opening × Text)
  | '?' :: '!' :: _ | '?' :: '<' :: '!' :: _ => none
  | '?' :: 'P' :: '<' :: rest | '?' :: '<' :: rest => openNamed? rest
  | '?' :: rest =>
    let list := rest.takeWhile fun c => c != ':' && c != ')'
    match rest.drop list.length with
    | ':' :: rest => if Flags.isList list then some (.groupWithFlags list, rest) else none
    | ')' :: rest => if Flags.isList list ∧ list ≠ [] then some (.flags list, rest) else none
    | _ => none
  | source => some (.group, source)

/-! ## Whole patterns -/

/-- What has to be known of the part of a pattern that has been read. -/
structure Context where
  flags : Flags
  /-- The flags around each group that is open, the innermost first. -/
  outer : List Flags
  /-- The names of groups. -/
  names : List Text
  /-- Whether the last thing that was read can be repeated. -/
  repeatable : Bool

namespace Context

/-- The context at the start of a pattern. -/
def initial : Context := ⟨.initial, [], [], false⟩

/-- The context after something that can be repeated. -/
def readItem (context : Context) : Context :=
  { context with repeatable := true }

/-- The context after an opening parenthesis. -/
def enter (context : Context) : Opening → Option Context
  | .group =>
    some { context with outer := context.flags :: context.outer, repeatable := false }
  | .namedGroup name =>
    if context.names.contains name then none
    else some ⟨context.flags, context.flags :: context.outer, name :: context.names, false⟩
  | .groupWithFlags list =>
    some ⟨context.flags.change list, context.flags :: context.outer, context.names, false⟩
  | .flags list => some { context with flags := context.flags.change list, repeatable := false }

/-- The context after a closing parenthesis. -/
def leave (context : Context) : Option Context :=
  match context.outer with
  | [] => none
  | flags :: outer => some ⟨flags, outer, context.names, true⟩

end Context

/-- Whether a pattern goes on with a text. There are at most `fuel` steps. -/
def continues : Nat → Context → Text → Bool
  | _, context, [] => context.outer.isEmpty
  | 0, _, _ => false
  | fuel + 1, context, '(' :: rest =>
    match opening? rest with
    | some (opening, rest) => (context.enter opening).any (continues fuel · rest)
    | none => false
  | fuel + 1, context, ')' :: rest => context.leave.any (continues fuel · rest)
  | fuel + 1, context, '|' :: rest => continues fuel { context with repeatable := false } rest
  | fuel + 1, context, '?' :: '?' :: rest | fuel + 1, context, '*' :: '?' :: rest
  | fuel + 1, context, '+' :: '?' :: rest | fuel + 1, context, '?' :: rest
  | fuel + 1, context, '*' :: rest | fuel + 1, context, '+' :: rest =>
    context.repeatable && continues fuel context rest
  | _ + 1, _, '\x7b' :: _ => false
  | fuel + 1, context, '[' :: rest =>
    (skipWholeClass? context.flags rest).any (continues fuel context.readItem)
  | fuel + 1, context, '\\' :: rest =>
    (skipEscape? context.flags rest).any (continues fuel context.readItem)
  | fuel + 1, context, '^' :: rest | fuel + 1, context, '$' :: rest =>
    continues fuel context.readItem rest
  | fuel + 1, context, '.' :: rest =>
    context.flags.unicode && continues fuel context.readItem rest
  | fuel + 1, context, c :: rest =>
    if context.flags.ignoreBlank ∧ isBlank c then continues fuel context rest
    else if context.flags.ignoreBlank ∧ c = '#' then
      continues fuel context (rest.dropWhile (· != '\n'))
    else context.flags.namesChars && continues fuel context.readItem rest

end Pattern

/-- Whether a text is a pattern. Braces for counted repetition are not understood. -/
def isPattern (text : Text) : Bool :=
  Pattern.continues text.length .initial text

end ScriptLexer
