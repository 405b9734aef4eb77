import ScriptLexer.Prompt.Completeness
import ScriptLexer.Proofs.Modes

set_option autoImplicit false

/-! # Brackets that are still to be closed

The brackets among the tokens of a source are those that stand in its code (`bracketWord`). Reading
them with a stack tells three kinds of word apart: the well-nested ones, those that more brackets can
complete, which leave brackets open (`Leaves`), and those with a closing bracket in the wrong place,
which nothing mends (`Mismatched`). A source is taken to be unbalanced in the second case only.
Main statement: `isBalanced_tokenize`. -/

namespace ScriptLexer

/-! ## What the statement speaks of -/

/-- The bracket that a character is. -/
def BracketMark.ofChar? : Char → Option BracketMark
  | '(' => some (.opening .paren)
  | ')' => some (.closing .paren)
  | '{' => some (.opening .brace)
  | '}' => some (.closing .brace)
  | _ => none

/-- The bracket that a character of code is. -/
def bracketAt? (found : Nat × Char) : Option BracketMark :=
  BracketMark.ofChar? found.2

/-- The brackets of a source outside its strings and comments. -/
def bracketWord (source : Text) : List BracketMark :=
  (codeOf source).filterMap bracketAt?

/-- Brackets of which each one that opens is closed by one of its kind, and none stands alone. -/
inductive WellNested : List BracketMark → Prop where
  | nil : WellNested []
  | pair {inner later : List BracketMark} (bracket : Bracket) (hinner : WellNested inner)
    (hlater : WellNested later) :
    WellNested (.opening bracket :: (inner ++ .closing bracket :: later))

/-- A bracket is closed where none is open, or where the innermost open one is of the other kind. -/
def Mismatched (word : List BracketMark) : Prop :=
  ∃ before inner bracket later, word = before ++ (inner ++ .closing bracket :: later) ∧
    WellNested inner ∧
    (before = [] ∨ ∃ outer other, before = outer ++ [.opening other] ∧ other ≠ bracket)

/-! ## Reading with a stack -/

/-- The brackets that are open after some more of them, the innermost first; there is no answer where
    a closing bracket does not match. -/
def pendingAfter : List Bracket → List BracketMark → Option (List Bracket)
  | pending, [] => some pending
  | pending, .opening bracket :: rest => pendingAfter (bracket :: pending) rest
  | [], .closing _ :: _ => none
  | innermost :: outer, .closing bracket :: rest =>
    if innermost = bracket then pendingAfter outer rest else none

section Stack

variable {pending left : List Bracket} {bracket : Bracket} {word earlier inner : List BracketMark}

theorem isSettled_eq (pending : List Bracket) (word : List BracketMark) :
    isSettled pending word = (pendingAfter pending word).all List.isEmpty := by
  fun_induction pendingAfter pending word with
  | case1 pending => rfl
  | case2 pending bracket rest ih => exact ih
  | case3 => rfl
  | case4 innermost outer rest ih => simpa [isSettled] using ih
  | case5 innermost outer bracket rest hne => simp [isSettled, hne]

theorem pendingAfter_append (pending : List Bracket) (a b : List BracketMark) :
    pendingAfter pending (a ++ b) = (pendingAfter pending a).bind fun left => pendingAfter left b := by
  fun_induction pendingAfter pending a with
  | case1 pending => rfl
  | case2 pending bracket rest ih => exact ih
  | case3 => rfl
  | case4 innermost outer rest ih => simpa [pendingAfter] using ih
  | case5 innermost outer bracket rest hne => simp [pendingAfter, hne]

/-! ### Well-nested words -/

/-- A well-nested word leaves the stack as it is. -/
theorem WellNested.pendingAfter (h : WellNested word) (pending : List Bracket) :
    pendingAfter pending word = some pending := by
  induction h generalizing pending with
  | nil => rfl
  | @pair inner later bracket hinner hlater ihinner ihlater =>
    simp [ScriptLexer.pendingAfter, pendingAfter_append, ihinner, ihlater]

theorem WellNested.append {a b : List BracketMark} (ha : WellNested a) (hb : WellNested b) :
    WellNested (a ++ b) := by
  induction ha with
  | nil => exact hb
  | pair bracket hinner hlater ihinner ihlater =>
    rw [List.cons_append, List.append_assoc, List.cons_append]
    exact .pair bracket hinner ihlater

/-! ### Words that leave brackets open -/

/-- Words that leave the given brackets open, the innermost first: each of these has opened, and after
    it every bracket was closed again but for those further in. -/
inductive Leaves : List Bracket → List BracketMark → Prop where
  | nested {word : List BracketMark} (h : WellNested word) : Leaves [] word
  | opening {pending : List Bracket} {before inner : List BracketMark}
    (hbefore : Leaves pending before) (bracket : Bracket) (hinner : WellNested inner) :
    Leaves (bracket :: pending) (before ++ .opening bracket :: inner)

namespace Leaves

theorem append_nested (h : Leaves pending word) (hinner : WellNested inner) :
    Leaves pending (word ++ inner) := by
  cases h with
  | nested hword => exact .nested (hword.append hinner)
  | opening hbefore bracket hword =>
    rw [List.append_assoc, List.cons_append]
    exact .opening hbefore bracket (hword.append hinner)

/-- Closing the innermost bracket makes a pair of it. -/
theorem close (h : Leaves (bracket :: pending) word) :
    Leaves pending (word ++ [.closing bracket]) := by
  cases h with
  | opening hbefore _ hinner =>
    rw [List.append_assoc, List.cons_append]
    exact hbefore.append_nested (.pair bracket hinner .nil)

/-- What the stack holds in the end is what the word leaves open. -/
theorem of_pendingAfter (h : Leaves pending earlier) (hrun : pendingAfter pending word = some left) :
    Leaves left (earlier ++ word) := by
  fun_induction pendingAfter pending word generalizing earlier with
  | case1 pending =>
    cases hrun
    rwa [List.append_nil]
  | case2 pending bracket rest ih =>
    have hopen : Leaves (bracket :: pending) (earlier ++ [.opening bracket]) :=
      .opening h bracket .nil
    simpa using ih hopen hrun
  | case3 => cases hrun
  | case4 innermost outer rest ih => simpa using ih h.close hrun
  | case5 => cases hrun

/-- Where the stack gives no answer a bracket is closed in the wrong place. -/
theorem mismatched (h : Leaves pending earlier) (hrun : pendingAfter pending word = none) :
    Mismatched (earlier ++ word) := by
  fun_induction pendingAfter pending word generalizing earlier with
  | case1 => cases hrun
  | case2 pending bracket rest ih =>
    have hopen : Leaves (bracket :: pending) (earlier ++ [.opening bracket]) :=
      .opening h bracket .nil
    simpa using ih hopen hrun
  | case3 bracket rest =>
    cases h with
    | nested hearlier => exact ⟨[], earlier, bracket, rest, rfl, hearlier, .inl rfl⟩
  | case4 innermost outer rest ih => simpa using ih h.close hrun
  | case5 innermost outer bracket rest hne =>
    cases h with
    | @opening _ before inner hbefore _ hinner =>
      exact ⟨before ++ [.opening innermost], inner, bracket, rest, by simp, hinner,
        .inr ⟨before, innermost, rfl, hne⟩⟩

theorem pendingAfter (h : Leaves pending word) : pendingAfter [] word = some pending := by
  induction h with
  | nested hword => exact hword.pendingAfter []
  | opening hbefore bracket hinner ih =>
    simp [pendingAfter_append, ih, ScriptLexer.pendingAfter, hinner.pendingAfter]

end Leaves

/-! ### Three kinds of word -/

theorem pendingAfter_eq_some_iff : pendingAfter [] word = some left ↔ Leaves left word :=
  ⟨fun h => Leaves.of_pendingAfter (.nested .nil) h, Leaves.pendingAfter⟩

theorem wellNested_iff : WellNested word ↔ pendingAfter [] word = some [] := by
  rw [pendingAfter_eq_some_iff]
  constructor
  · exact .nested
  · rintro ⟨h⟩
    exact h

theorem mismatched_iff : Mismatched word ↔ pendingAfter [] word = none := by
  constructor
  · rintro ⟨before, inner, bracket, later, rfl, hinner, hbefore⟩
    rw [pendingAfter_append]
    rcases hbefore with rfl | ⟨outer, other, rfl, hne⟩
    · simp [pendingAfter, pendingAfter_append, hinner.pendingAfter]
    · cases houter : pendingAfter [] outer <;>
        simp [pendingAfter, pendingAfter_append, houter, hinner.pendingAfter, hne]
  · exact Leaves.mismatched (.nested .nil)

/-- The brackets that close what is open. -/
def closers (pending : List Bracket) : List BracketMark :=
  pending.map .closing

theorem pendingAfter_closers (pending : List Bracket) :
    pendingAfter pending (closers pending) = some [] := by
  induction pending with
  | nil => rfl
  | cons bracket pending ih => simpa [closers, pendingAfter] using ih

theorem wellNested_append_closers (h : pendingAfter [] word = some pending) :
    WellNested (word ++ closers pending) := by
  rw [wellNested_iff, pendingAfter_append, h, Option.bind_some, pendingAfter_closers]

/-- What is mismatched cannot be completed, and all else can. -/
theorem not_mismatched_iff : ¬ Mismatched word ↔ ∃ more, WellNested (word ++ more) := by
  rw [mismatched_iff, ← ne_eq, Option.ne_none_iff_exists']
  constructor
  · rintro ⟨pending, h⟩
    exact ⟨closers pending, wellNested_append_closers h⟩
  · rintro ⟨more, h⟩
    rw [wellNested_iff, pendingAfter_append] at h
    obtain ⟨pending, hpending, -⟩ := Option.bind_eq_some_iff.1 h
    exact ⟨pending, hpending⟩

theorem isSettled_eq_false_iff :
    isSettled [] word = false ↔ ¬ WellNested word ∧ ∃ more, WellNested (word ++ more) := by
  rw [isSettled_eq, ← not_mismatched_iff, mismatched_iff, wellNested_iff]
  cases pendingAfter [] word with
  | none => simp
  | some pending => cases pending <;> simp

theorem Mismatched.append (h : Mismatched word) (more : List BracketMark) :
    Mismatched (word ++ more) := by
  rw [mismatched_iff] at h ⊢
  rw [pendingAfter_append, h, Option.bind_none]

theorem Mismatched.isSettled (h : Mismatched word) : isSettled [] word = true := by
  rw [isSettled_eq, mismatched_iff.1 h, Option.all_none]

end Stack

/-! ## Brackets among the tokens -/

/-- The bracket that a piece is. -/
def Piece.bracketMark? (piece : Piece) : Option BracketMark :=
  piece.word?.bind fun word => word.1.bracketMark?

theorem exists_symbol_of_bracket {c : Char} {mark : BracketMark}
    (h : BracketMark.ofChar? c = some mark) : c ≠ '/' ∧ c ≠ '.' ∧ ∃ s, Symbol.ofChar? c = some s := by
  unfold BracketMark.ofChar? at h
  split at h <;> first | contradiction | exact ⟨by decide, by decide, _, rfl⟩

theorem overlooks_bracketAt? : Overlooks bracketAt? := by
  intro offset c h
  rw [bracketAt?, Option.eq_none_iff_forall_ne_some]
  intro mark hmark
  obtain ⟨hslash, hpoint, s, hs⟩ := exists_symbol_of_bracket hmark
  obtain ⟨hspace, hquote, hdigit, hletter⟩ := Piece.unnamed_of_ofChar? hs
  simp only [List.mem_cons, List.not_mem_nil, or_false] at h
  tauto

theorem shown_bracketAt? {piece : Piece} (h : piece.WellFormed) (offset : Nat) :
    piece.shown bracketAt? offset = piece.bracketMark?.toList := by
  cases h with
  | lexical h =>
    cases h with
    | symbol s => cases s <;> rfl
    | _ => rfl
  | @unexpected c hc =>
    have hnone : bracketAt? (offset, c) = none := by
      rw [bracketAt?, Option.eq_none_iff_forall_ne_some]
      intro mark hmark
      obtain ⟨-, -, s, hs⟩ := exists_symbol_of_bracket hmark
      rw [hc.no_symbol] at hs
      cases hs
    rw [Piece.shown, hnone]
    rfl
  | openString => rfl

section Source

variable (source : Text)

theorem bracketWord_eq : bracketWord source = (pieces source).filterMap Piece.bracketMark? :=
  calc bracketWord source
      = (placed source).flatMap fun item => item.piece.shown bracketAt? item.position.offset :=
        filterMap_codeOf overlooks_bracketAt? source
    _ = (placed source).flatMap fun item => item.piece.bracketMark?.toList := by
        refine List.flatMap_congr fun item hitem => ?_
        obtain ⟨-, -, -, -, hwell⟩ := exists_of_mem_placed hitem
        exact shown_bracketAt? hwell item.position.offset
    _ = ((placed source).map Placed.piece).filterMap Piece.bracketMark? := by
        rw [List.filterMap_map, List.filterMap_eq_flatMap_toList]
        rfl
    _ = (pieces source).filterMap Piece.bracketMark? := by
        rw [placed, map_piece_placedFrom]

/-- The brackets of the code are those among the tokens. -/
theorem bracketWord_eq_words :
    bracketWord source =
      ((tokenize source).proper.map Token.word).filterMap fun word => word.1.bracketMark? := by
  rw [words_tokenize, List.filterMap_filterMap, bracketWord_eq]
  rfl

theorem filterMap_bracketMark? :
    (tokenize source).tokens.filterMap (fun token => token.kind.bracketMark?) =
      bracketWord source := by
  rw [tokenize_tokens_eq_proper, List.filterMap_append, bracketWord_eq_words, List.filterMap_map]
  exact List.append_nil _

theorem isBalanced_eq : isBalanced (tokenize source).tokens = isSettled [] (bracketWord source) := by
  rw [isBalanced, filterMap_bracketMark?]

/-- **Unbalanced means: not closed yet, but still to be closed.** A source is taken to be unbalanced
    exactly if its brackets are not well nested and more brackets would make them so. Once a bracket
    is closed in the wrong place, no source that goes on from there is. -/
theorem isBalanced_tokenize :
    (isBalanced (tokenize source).tokens = false ↔
      ¬ WellNested (bracketWord source) ∧ ∃ more, WellNested (bracketWord source ++ more)) ∧
    (Mismatched (bracketWord source) → ∀ longer, bracketWord source <+: bracketWord longer →
      isBalanced (tokenize longer).tokens = true) := by
  constructor
  · rw [isBalanced_eq]
    exact isSettled_eq_false_iff
  · rintro hword longer ⟨more, hmore⟩
    rw [isBalanced_eq, ← hmore]
    exact (hword.append more).isSettled

end Source

/-- A brace does not close a parenthesis, nor does a parenthesis in a string. -/
theorem isBalanced_brace_in_paren :
    Mismatched (bracketWord ['(', '}']) ∧
      bracketWord ['(', '}'] <+: bracketWord ['(', '"', ')', '"', '}', '{'] ∧
      isBalanced (tokenize ['(', '"', ')', '"', '}', '{']).tokens = true ∧
      isBalanced (tokenize ['(', '"', ')', '"', '{']).tokens = false := by
  have hword : Mismatched (bracketWord ['(', '}']) :=
    ⟨[.opening .paren], [], .brace, [], rfl, .nil, .inr ⟨[], .paren, rfl, by decide⟩⟩
  have hlonger : bracketWord ['(', '}'] <+: bracketWord ['(', '"', ')', '"', '}', '{'] :=
    ⟨[.opening .brace], rfl⟩
  have hmore : WellNested (bracketWord ['(', '"', ')', '"', '{'] ++ closers [.brace, .paren]) :=
    wellNested_append_closers rfl
  have hopen : ¬ WellNested (bracketWord ['(', '"', ')', '"', '{']) := by
    rw [wellNested_iff]
    decide
  exact ⟨hword, hlonger, (isBalanced_tokenize _).2 hword _ hlonger,
    (isBalanced_tokenize _).1.2 ⟨hopen, _, hmore⟩⟩

end ScriptLexer
