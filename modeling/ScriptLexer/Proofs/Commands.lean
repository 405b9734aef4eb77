import Mathlib.Data.List.Forall2
import ScriptLexer.Prompt.Completeness
import ScriptLexer.Prompt.Highlight
import ScriptLexer.Proofs.Trimming

set_option autoImplicit false

/-! # How commands are written

Between blanks stand a dot, one of the names of a command in letters of either case, and possibly an
argument behind more blanks (`IsWritten`). An input is read as a command exactly if it is written so,
and as the one command with the one argument that this leaves open
(`Invocation.parse?_eq_some_iff`). Lowering the letters of the name in full, and not only in ASCII,
makes no difference, as no name has a `k` (`IsLowering.mem_names_iff`).
Main statement: `parse?_iff_isWritten`. -/

namespace ScriptLexer

/-! ## Between blanks -/

/-- A text, and what is left of it without the blanks at its ends. -/
structure Trims (text core : Text) : Prop where
  split : ∃ front back, text = front ++ (core ++ back) ∧
    (∀ c ∈ front, isBlank c = true) ∧ ∀ c ∈ back, isBlank c = true
  start : ∀ c ∈ core.head?, isBlank c = false
  stop : ∀ c ∈ core.getLast?, isBlank c = false

section Trims

variable {text core : Text}

theorem trims_trim (text : Text) : Trims text (trim text) where
  split := by
    have hstart : text.takeWhile isBlank ++ trimStart text = text := List.takeWhile_append_dropWhile
    have hend : trim text ++ ((trimStart text).reverse.takeWhile isBlank).reverse =
        trimStart text := by
      rw [trim, trimEnd, ← List.reverse_append, List.takeWhile_append_dropWhile,
        List.reverse_reverse]
    refine ⟨text.takeWhile isBlank, ((trimStart text).reverse.takeWhile isBlank).reverse, ?_, ?_, ?_⟩
    · rw [hend, hstart]
    · intro c hc
      exact List.mem_takeWhile_imp hc
    · intro c hc
      exact List.mem_takeWhile_imp (List.mem_reverse.1 hc)
  start := by
    intro c hc
    exact head?_dropWhile_eq_false isBlank text c (head?_trim hc)
  stop := by
    intro c hc
    rw [trim, trimEnd, List.getLast?_reverse] at hc
    exact head?_dropWhile_eq_false isBlank _ c hc

/-- What is left is nothing but what trimming leaves. -/
theorem Trims.trim_eq (h : Trims text core) : trim text = core := by
  obtain ⟨⟨front, back, rfl, hfront, hback⟩, hstart, hstop⟩ := h
  rcases List.eq_nil_or_concat' core with rfl | ⟨init, last, hcore⟩
  · have hblank : ∀ c ∈ front ++ ([] ++ back), isBlank c = true := by
      rw [List.nil_append, List.forall_mem_append]
      exact ⟨hfront, hback⟩
    rw [trim, trimStart, List.dropWhile_eq_nil_iff.2 hblank]
    rfl
  · have hhead : ∀ c ∈ (core ++ back).head?, isBlank c = false := by
      intro c hc
      refine hstart c ?_
      rw [List.head?_append_of_ne_nil core (by simp [hcore])] at hc
      exact hc
    have hlast : ∀ c ∈ core.reverse.head?, isBlank c = false := by
      intro c hc
      rw [List.head?_reverse] at hc
      exact hstop c hc
    have hbackward : ∀ c ∈ back.reverse, isBlank c = true := fun c hc =>
      hback c (List.mem_reverse.1 hc)
    rw [trim, trimStart, dropWhile_append_of_stop hfront hhead, trimEnd, List.reverse_append,
      dropWhile_append_of_stop hbackward hlast, List.reverse_reverse]

theorem trims_iff : Trims text core ↔ trim text = core := by
  constructor
  · exact Trims.trim_eq
  · rintro rfl
    exact trims_trim text

/-- Nothing is left of blanks only. -/
theorem trim_eq_nil_iff : trim text = [] ↔ ∀ c ∈ text, isBlank c = true := by
  constructor
  · intro h
    obtain ⟨front, back, hsplit, hfront, hback⟩ := (trims_iff.2 h).split
    rw [hsplit, List.nil_append, List.forall_mem_append]
    exact ⟨hfront, hback⟩
  · intro h
    exact Trims.trim_eq ⟨⟨text, [], by simp, h, by simp⟩, by simp, by simp⟩

end Trims

/-! ## Names -/

/-- The same text but for the case of ASCII letters. -/
def EqualUpToCase (a b : Text) : Prop :=
  a.map Char.toLower = b.map Char.toLower

theorem names_lower (command : Command) {known : Text} (h : known ∈ command.names) :
    known.map Char.toLower = known ∧ ∀ c ∈ known, c.toNat < 128 ∧ c ≠ 'k' := by
  have hlower : ∀ known ∈ command.names, known.map Char.toLower = known := by
    cases command <;> decide
  have hascii : ∀ known ∈ command.names, ∀ c ∈ known, c.toNat < 128 ∧ c ≠ 'k' := by
    cases command <;> simp [Command.names]
  exact ⟨hlower known h, hascii known h⟩

theorem ofName?_eq_some_iff {name : Text} {command : Command} :
    Command.ofName? name = some command ↔ name ∈ command.names := by
  constructor
  · intro h
    simpa using List.find?_some h
  · intro h
    have hall : ∀ known ∈ command.names, Command.ofName? known = some command := by
      cases command <;> decide
    exact hall name h

/-- A name in letters of either case. -/
theorem exists_equalUpToCase_iff {name : Text} {command : Command} :
    (∃ known ∈ command.names, EqualUpToCase name known) ↔
      name.map Char.toLower ∈ command.names := by
  constructor
  · rintro ⟨known, hknown, hcase⟩
    rwa [hcase, (names_lower command hknown).1]
  · intro h
    exact ⟨_, h, (names_lower command h).1.symm⟩

/-! ## Lower-case forms -/

/-- The lower-case form of a character: the usual one for an ASCII character, a `k` for the Kelvin
    sign, and for any other a text that is not in ASCII throughout. -/
def LowersTo (c : Char) (form : Text) : Prop :=
  if c.toNat < 128 then form = [c.toLower]
  else if c = '\u212a' then form = ['k']
  else ∃ d ∈ form, 128 ≤ d.toNat

/-- A way of lowering texts character by character; the form of a character may also depend on the
    characters around it. -/
def IsLowering (lower : Text → Text) : Prop :=
  ∀ text, ∃ forms, List.Forall₂ LowersTo text forms ∧ lower text = forms.flatten

section Lowering

variable {text : Text} {forms : List Text}

theorem toLower_of_not_ascii {c : Char} (h : ¬ c.toNat < 128) : c.toLower = c := by
  have hupper : ¬ (c.val ≥ 'A'.val ∧ c.val ≤ 'Z'.val) := by
    rintro ⟨-, hle⟩
    have hnat : c.toNat ≤ 90 := hle
    omega
  exact dif_neg hupper

/-- Of an ASCII text without a `k` each character is the form of one ASCII character. -/
theorem flatten_forms (h : List.Forall₂ LowersTo text forms)
    (hforms : ∀ d ∈ forms.flatten, d.toNat < 128 ∧ d ≠ 'k') :
    forms.flatten = text.map Char.toLower := by
  induction h with
  | nil => rfl
  | @cons c form text forms hc htext ih =>
    rw [List.flatten_cons, List.forall_mem_append] at hforms
    obtain ⟨hform, hlater⟩ := hforms
    rw [LowersTo] at hc
    split at hc
    · rw [List.flatten_cons, hc, ih hlater, List.map_cons]
      rfl
    · split at hc
      · exact absurd rfl (hform 'k' (by rw [hc]; simp)).2
      · obtain ⟨d, hd, hlarge⟩ := hc
        exact absurd (hform d hd).1 (by omega)

theorem flatten_forms_of_ascii (h : List.Forall₂ LowersTo text forms)
    (htext : ∀ d ∈ text.map Char.toLower, d.toNat < 128) :
    forms.flatten = text.map Char.toLower := by
  induction h with
  | nil => rfl
  | @cons c form text forms hc hrest ih =>
    rw [List.map_cons, List.forall_mem_cons] at htext
    have hascii : c.toNat < 128 := by
      by_contra hlarge
      rw [toLower_of_not_ascii hlarge] at htext
      exact hlarge htext.1
    rw [LowersTo, if_pos hascii] at hc
    rw [List.flatten_cons, hc, ih htext.2, List.map_cons]
    rfl

/-- Names are found alike, whether letters beyond ASCII are lowered or not. -/
theorem IsLowering.mem_names_iff {lower : Text → Text} (h : IsLowering lower) (name : Text)
    (command : Command) :
    lower name ∈ command.names ↔ name.map Char.toLower ∈ command.names := by
  obtain ⟨forms, hforms, hlower⟩ := h name
  rw [hlower]
  constructor
  · intro hknown
    rwa [← flatten_forms hforms (names_lower command hknown).2]
  · intro hknown
    rwa [flatten_forms_of_ascii hforms fun d hd => ((names_lower command hknown).2 d hd).1]

end Lowering

/-! ## Reading a command -/

/-- The text up to the first blank, and if there is one what follows it. -/
def splitAtBlank : Text → Text × Option Text
  | [] => ([], none)
  | c :: rest =>
    if isBlank c then ([], some rest)
    else (c :: (splitAtBlank rest).1, (splitAtBlank rest).2)

/-- Reads a command as `Invocation.parse?` does, where lowering the letters of the name is left open. -/
def Invocation.parseLowered? (lower : Text → Text) (input : Text) : Option Invocation :=
  match trim input with
  | '.' :: rest =>
    let (name, after?) := splitAtBlank rest
    let argument := (after?.map trim).filter (!·.isEmpty)
    (Command.ofName? (lower name)).map fun command => ⟨command, argument⟩
  | _ => none

/-- How a command is written: a dot and a name of the command, and after a blank the argument; there
    is none where only blanks follow the name. -/
def IsWritten (input : Text) (invocation : Invocation) : Prop :=
  ∃ name tail, Trims input ('.' :: (name ++ tail)) ∧
    (∀ c ∈ name, isBlank c = false) ∧
    (∃ known ∈ invocation.command.names, EqualUpToCase name known) ∧
    (∀ c ∈ tail.head?, isBlank c = true) ∧
    match invocation.argument with
    | none => ∀ c ∈ tail, isBlank c = true
    | some argument => argument ≠ [] ∧ Trims tail argument

theorem splitAtBlank_eq (text : Text) :
    splitAtBlank text = (text.takeWhile (!isBlank ·), (text.dropWhile (!isBlank ·)).tail?) := by
  induction text with
  | nil => rfl
  | cons c text ih =>
    rw [splitAtBlank, List.takeWhile_cons, List.dropWhile_cons]
    cases isBlank c <;> simp [ih]

/-- The argument is found alike with the blank before it and without. -/
theorem filter_trim_tail? {tail : Text} (h : ∀ c ∈ tail.head?, isBlank c = true) :
    (tail.tail?.map trim).filter (!·.isEmpty) =
      if (trim tail).isEmpty then none else some (trim tail) := by
  cases tail with
  | nil => rfl
  | cons c tail =>
    have hc : trim (c :: tail) = trim tail := by
      rw [trim, trimStart, List.dropWhile_cons_of_pos (h c rfl), trim, trimStart]
    rw [hc, List.tail?_cons, Option.map_some]
    cases hempty : (trim tail).isEmpty with
    | true => simpa using hempty
    | false => simpa using hempty

theorem isBlank_of_mem_dropWhile (text : Text) :
    ∀ c ∈ (text.dropWhile (!isBlank ·)).head?, isBlank c = true := by
  intro c hc
  have hstop := head?_dropWhile_eq_false _ _ c hc
  simpa using hstop

namespace Invocation

theorem parseLowered?_eq {lower : Text → Text} (h : IsLowering lower) (input : Text) :
    parseLowered? lower input = parse? input := by
  have hname : ∀ name, Command.ofName? (lower name) = Command.ofName? (name.map Char.toLower) := by
    intro name
    apply Option.ext
    intro command
    rw [ofName?_eq_some_iff, ofName?_eq_some_iff, h.mem_names_iff]
  by_cases hdot : ∃ rest, trim input = '.' :: rest
  · obtain ⟨rest, htrim⟩ := hdot
    simp only [parseLowered?, parse?, htrim, splitAtBlank_eq, hname,
      filter_trim_tail? (isBlank_of_mem_dropWhile rest)]
  · have hread : parse? input = none := by
      rw [parse?]
      split
      · next rest htrim => exact absurd ⟨rest, htrim⟩ hdot
      · rfl
    rw [hread, parseLowered?]
    split
    · next rest htrim => exact absurd ⟨rest, htrim⟩ hdot
    · rfl

/-- What is written is read, and nothing else is. -/
theorem parse?_eq_some_iff {input : Text} {invocation : Invocation} :
    parse? input = some invocation ↔ IsWritten input invocation := by
  constructor
  · intro h
    rw [parse?] at h
    split at h
    · next rest htrim =>
      obtain ⟨command, hcommand, rfl⟩ := Option.map_eq_some_iff.1 h
      refine ⟨rest.takeWhile (!isBlank ·), rest.dropWhile (!isBlank ·), ?_, ?_, ?_,
        isBlank_of_mem_dropWhile rest, ?_⟩
      · rw [List.takeWhile_append_dropWhile]
        exact trims_iff.2 htrim
      · intro c hc
        simpa using List.mem_takeWhile_imp hc
      · exact exists_equalUpToCase_iff.2 (ofName?_eq_some_iff.1 hcommand)
      · by_cases hempty : trim (rest.dropWhile (!isBlank ·)) = []
        · simpa [hempty] using trim_eq_nil_iff.1 hempty
        · simpa [hempty] using trims_trim _
    · cases h
  · rintro ⟨name, tail, htrims, hname, hknown, htail, hargument⟩
    have hinside : ∀ c ∈ name, (!isBlank c) = true := by
      intro c hc
      rw [hname c hc]
      rfl
    have hstop : ∀ c ∈ tail.head?, (!isBlank c) = false := by
      intro c hc
      rw [htail c hc]
      rfl
    have hcommand := ofName?_eq_some_iff.2 (exists_equalUpToCase_iff.1 hknown)
    obtain ⟨command, argument⟩ := invocation
    simp only [parse?, htrims.trim_eq, takeWhile_append_of_stop hinside hstop,
      dropWhile_append_of_stop hinside hstop, hcommand, Option.map_some]
    cases argument with
    | none => simp [trim_eq_nil_iff.2 hargument]
    | some argument =>
      obtain ⟨hne, htrims⟩ := hargument
      simp [htrims.trim_eq, hne]

end Invocation

/-! ## Commands at the prompt -/

/-- What is read as a command starts with the dot that every part of the prompt looks for. -/
theorem startsWithDot_of_parse? {input : Text} {invocation : Invocation}
    (h : Invocation.parse? input = some invocation) : startsWithDot input = true := by
  cases hdot : startsWithDot input with
  | true => rfl
  | false =>
    rw [parse?_of_no_dot hdot] at h
    cases h

/-- **Commands are read exactly as they are written.** However letters beyond ASCII are lowered, an
    input is read as a command with an argument if and only if it is written as this command with this
    argument. Such an input never needs another line, and is shown in the one colour of commands. -/
theorem parse?_iff_isWritten (lower : Text → Text) (hlower : IsLowering lower) (input : Text) :
    Invocation.parseLowered? lower input = Invocation.parse? input ∧
      (∀ invocation, Invocation.parse? input = some invocation ↔ IsWritten input invocation) ∧
      ∀ invocation, Invocation.parse? input = some invocation →
        isIncomplete input = false ∧ highlight input = [.coloured .magenta input] := by
  refine ⟨Invocation.parseLowered?_eq hlower input, fun _ => Invocation.parse?_eq_some_iff, ?_⟩
  intro invocation h
  have hdot := startsWithDot_of_parse? h
  constructor
  · rw [isIncomplete, if_pos hdot]
  · rw [highlight, if_pos hdot]

/-- Lowers the letters of ASCII and the Kelvin sign. -/
def lowerPlainly (text : Text) : Text :=
  text.map fun c => if c = '\u212a' then 'k' else c.toLower

theorem isLowering_lowerPlainly : IsLowering lowerPlainly := by
  intro text
  refine ⟨(lowerPlainly text).map fun c => [c], ?_, ?_⟩
  · rw [lowerPlainly, List.map_map, List.forall₂_map_right_iff, List.forall₂_same]
    intro c _
    rw [LowersTo]
    split
    · next hascii =>
      have hkelvin : c ≠ '\u212a' := by
        rintro rfl
        exact absurd hascii (by decide)
      rw [Function.comp_apply, if_neg hkelvin]
    · next hlarge =>
      split
      · next hkelvin => rw [Function.comp_apply, if_pos hkelvin]
      · next hkelvin =>
        refine ⟨c, ?_, Nat.not_lt.1 hlarge⟩
        rw [Function.comp_apply, if_neg hkelvin, toLower_of_not_ascii hlarge]
        exact List.mem_singleton_self c
  · rw [← List.flatMap_def, List.flatMap_singleton']

/-- Between blanks of two kinds, with the name in capitals and a blank inside the argument. -/
theorem parse?_iff_isWritten_load :
    IsLowering lowerPlainly ∧
      Invocation.parseLowered? lowerPlainly "\u3000.LOAD  a b ".toList =
        some ⟨.load, some "a b".toList⟩ ∧
      IsWritten "\u3000.LOAD  a b ".toList ⟨.load, some "a b".toList⟩ ∧
      isIncomplete "\u3000.LOAD  a b ".toList = false ∧
      highlight "\u3000.LOAD  a b ".toList = [.coloured .magenta "\u3000.LOAD  a b ".toList] := by
  have hread : Invocation.parse? "\u3000.LOAD  a b ".toList = some ⟨.load, some "a b".toList⟩ := by
    decide
  obtain ⟨hagree, hwritten, hcommand⟩ :=
    parse?_iff_isWritten lowerPlainly isLowering_lowerPlainly "\u3000.LOAD  a b ".toList
  exact ⟨isLowering_lowerPlainly, hagree.trans hread, (hwritten _).1 hread, hcommand _ hread⟩

end ScriptLexer
