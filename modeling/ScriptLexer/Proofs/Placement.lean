import ScriptLexer.Proofs.Grammar
import ScriptLexer.Scan

set_option autoImplicit false

/-! # Pieces in their places

A scan is a walk over the pieces of a source. Its tokens and its diagnostics are two views of one
list, the pieces with the places at which they start (`placed`), and whoever receives the
diagnostics gets them one by one in the order of that list (`scanInto_receiver`). So a statement about
a scan is a statement about placed pieces. -/

namespace ScriptLexer

/-- A piece and the place at which it starts. -/
structure Placed where
  position : Position
  piece : Piece

namespace Placed

/-- The token that a placed piece makes. -/
def token? (placed : Placed) : Option Token :=
  match placed.piece with
  | .token kind lexeme => some (placed.position.token kind lexeme)
  | _ => none

/-- What is reported of a placed piece. -/
def diagnostic? (placed : Placed) : Option Diagnostic :=
  match placed.piece with
  | .fault fault text => some (placed.position.diagnostic fault text)
  | _ => none

end Placed

/-- Pieces one after another, the first of them at the given place. -/
def placedFrom (position : Position) : List Piece → List Placed
  | [] => []
  | piece :: later => ⟨position, piece⟩ :: placedFrom (position.advance piece.text) later

/-- The pieces of a source in their places. -/
def placed (source : Text) : List Placed :=
  placedFrom .start (pieces source)

/-- The token at the end of a source. -/
def endToken (source : Text) : Token :=
  (Position.start.advance source).token .endOfInput []

@[simp]
theorem placedFrom_nil (position : Position) : placedFrom position [] = [] := rfl

@[simp]
theorem placedFrom_cons (position : Position) (piece : Piece) (later : List Piece) :
    placedFrom position (piece :: later) =
      ⟨position, piece⟩ :: placedFrom (position.advance piece.text) later := rfl

theorem placedFrom_append (position : Position) (a b : List Piece) :
    placedFrom position (a ++ b) =
      placedFrom position a ++ placedFrom (position.advance (a.flatMap Piece.text)) b := by
  induction a generalizing position with
  | nil => rfl
  | cons piece later ih => simp [ih, Position.advance_append]

theorem mem_placedFrom {position : Position} {ps : List Piece} {item : Placed}
    (h : item ∈ placedFrom position ps) :
    ∃ done later, ps = done ++ item.piece :: later ∧
      item.position = position.advance (done.flatMap Piece.text) := by
  induction ps generalizing position with
  | nil => simp at h
  | cons piece ps ih =>
    rw [placedFrom_cons] at h
    rcases List.mem_cons.1 h with rfl | h
    · exact ⟨[], ps, rfl, rfl⟩
    · obtain ⟨done, later, rfl, hposition⟩ := ih h
      refine ⟨piece :: done, later, rfl, ?_⟩
      rw [hposition, List.flatMap_cons, Position.advance_append]

/-! ## What does not depend on places -/

/-- A token without its place and its line. -/
def Token.word (token : Token) : Kind × Text :=
  (token.kind, token.lexeme)

/-- The token that a piece makes, without its place. -/
def Piece.word? : Piece → Option (Kind × Text)
  | .token kind lexeme => some (kind, lexeme)
  | _ => none

/-- What is wrong with a piece. -/
def Piece.fault? : Piece → Option Fault
  | .fault reason _ => some reason
  | _ => none

theorem words_placedFrom (position : Position) (ps : List Piece) :
    ((placedFrom position ps).filterMap Placed.token?).map Token.word =
      ps.filterMap Piece.word? := by
  induction ps generalizing position with
  | nil => rfl
  | cons piece later ih =>
    cases piece with
    | token kind lexeme => exact congrArg ((kind, lexeme) :: ·) (ih _)
    | _ => exact ih _

theorem faults_placedFrom (position : Position) (ps : List Piece) :
    ((placedFrom position ps).filterMap Placed.diagnostic?).map Diagnostic.fault =
      ps.filterMap Piece.fault? := by
  induction ps generalizing position with
  | nil => rfl
  | cons piece later ih =>
    cases piece with
    | fault fault text => exact congrArg (fault :: ·) (ih _)
    | _ => exact ih _

/-! ## A scan of placed pieces -/

section Receiver

variable {σ : Type} (report : σ → Diagnostic → σ)

/-- One step goes to the place after the piece and adds what the piece makes. -/
theorem step_eq (progress : Progress σ) (piece : Piece) :
    progress.step report piece =
      { position := progress.position.advance piece.text
        tokens := (Placed.mk progress.position piece).token?.toList ++ progress.tokens
        reported :=
          progress.reported + (Placed.mk progress.position piece).diagnostic?.toList.length
        receiver :=
          (Placed.mk progress.position piece).diagnostic?.toList.foldl report
            progress.receiver } := by
  cases piece <;> rfl

/-- Several steps add what the placed pieces make, in their order. -/
theorem foldl_step (ps : List Piece) (progress : Progress σ) :
    ps.foldl (Progress.step report) progress =
      { position := progress.position.advance (ps.flatMap Piece.text)
        tokens :=
          ((placedFrom progress.position ps).filterMap Placed.token?).reverse ++ progress.tokens
        reported :=
          progress.reported +
            ((placedFrom progress.position ps).filterMap Placed.diagnostic?).length
        receiver :=
          ((placedFrom progress.position ps).filterMap Placed.diagnostic?).foldl report
            progress.receiver } := by
  induction ps generalizing progress with
  | nil => simp
  | cons piece later ih =>
    rw [List.foldl_cons, ih, step_eq]
    simp only [placedFrom_cons, List.flatMap_cons, Position.advance_append, List.filterMap_cons]
    cases (Placed.mk progress.position piece).token? <;>
      cases (Placed.mk progress.position piece).diagnostic? <;>
      simp [Nat.add_assoc, Nat.add_comm 1]

variable (receiver : σ) (source : Text)

/-- The tokens do not depend on who receives the diagnostics. -/
theorem scanInto_tokens :
    (scanInto report receiver source).tokens =
      (placed source).filterMap Placed.token? ++ [endToken source] := by
  simp [scanInto, foldl_step, placed, endToken, flatMap_text_pieces]

/-- Every diagnostic is handed over once, in order. -/
theorem scanInto_receiver :
    (scanInto report receiver source).receiver =
      ((placed source).filterMap Placed.diagnostic?).foldl report receiver := by
  simp [scanInto, foldl_step, placed]

/-- As many diagnostics are counted as are handed over. -/
theorem scanInto_reported :
    (scanInto report receiver source).reported =
      ((placed source).filterMap Placed.diagnostic?).length := by
  simp [scanInto, foldl_step, placed]

/-- The lines are counted up to the end of the source. -/
theorem scanInto_lines :
    (scanInto report receiver source).lines = (endToken source).line := by
  simp [scanInto, foldl_step, endToken, flatMap_text_pieces, Position.token]

end Receiver

/-! ## A scan from a place on -/

/-- The tokens of a source that starts at the given place. -/
def tokensFrom (position : Position) (source : Text) : List Token :=
  (placedFrom position (pieces source)).filterMap Placed.token? ++
    [(position.advance source).token .endOfInput []]

/-- The diagnostics of a source that starts at the given place. -/
def diagnosticsFrom (position : Position) (source : Text) : List Diagnostic :=
  (placedFrom position (pieces source)).filterMap Placed.diagnostic?

theorem tokenize_tokens (source : Text) : (tokenize source).tokens = tokensFrom .start source :=
  scanInto_tokens _ _ source

/-- A list that receives diagnostics ends with all of them. -/
theorem foldl_collect (found diagnostics : List Diagnostic) :
    diagnostics.foldl (fun found diagnostic => found ++ [diagnostic]) found =
      found ++ diagnostics := by
  induction diagnostics generalizing found with
  | nil => simp
  | cons diagnostic later ih => simp [ih]

theorem tokenize_diagnostics (source : Text) :
    (tokenize source).diagnostics = diagnosticsFrom .start source := by
  -- `tokenize` is the scan whose receiver is the list of all that it was handed
  rw [tokenize, scanInto_receiver, foldl_collect, List.nil_append]
  rfl

@[simp]
theorem tokensFrom_nil (position : Position) :
    tokensFrom position [] = [position.token .endOfInput []] := by
  simp [tokensFrom]

@[simp]
theorem diagnosticsFrom_nil (position : Position) : diagnosticsFrom position [] = [] := by
  simp [diagnosticsFrom]

variable {position : Position} {source rest : Text} {ps : List Piece}

theorem eq_append_of_pieces (h : pieces source = ps ++ pieces rest) :
    source = ps.flatMap Piece.text ++ rest := by
  rw [← flatMap_text_pieces source, h, List.flatMap_append, flatMap_text_pieces]

/-- The tokens of the first pieces, and after them those of what is left. -/
theorem tokensFrom_append (h : pieces source = ps ++ pieces rest) :
    tokensFrom position source =
      (placedFrom position ps).filterMap Placed.token? ++
        tokensFrom (position.advance (ps.flatMap Piece.text)) rest := by
  have hsource := eq_append_of_pieces h
  rw [tokensFrom, tokensFrom, h, placedFrom_append, List.filterMap_append, List.append_assoc,
    ← Position.advance_append, ← hsource]

theorem diagnosticsFrom_append (h : pieces source = ps ++ pieces rest) :
    diagnosticsFrom position source =
      (placedFrom position ps).filterMap Placed.diagnostic? ++
        diagnosticsFrom (position.advance (ps.flatMap Piece.text)) rest := by
  rw [diagnosticsFrom, diagnosticsFrom, h, placedFrom_append, List.filterMap_append]

/-! ## The tokens before the end -/

/-- The tokens before the end of the input. -/
def Scan.proper (scan : Scan) : List Token :=
  scan.tokens.filter (!·.isEnd)

/-- A token of the source is not the one that marks its end. -/
theorem isEnd_eq_false_of_mem {position : Position} {ps : List Piece} (h : WellPlaced ps)
    {token : Token} (ht : token ∈ (placedFrom position ps).filterMap Placed.token?) :
    token.isEnd = false := by
  obtain ⟨⟨place, piece⟩, hmem, htoken⟩ := List.mem_filterMap.1 ht
  obtain ⟨done, later, rfl, -⟩ := mem_placedFrom hmem
  obtain ⟨hwell, -⟩ := WellPlaced.of_append h
  cases piece with
  | token kind lexeme =>
    obtain rfl := Option.some.inj htoken
    -- no word of the grammar is of the kind that marks the end
    cases hwell with
    | lexical h => cases h <;> rfl
  | _ => cases htoken

theorem proper_tokenize (source : Text) :
    (tokenize source).proper = (placed source).filterMap Placed.token? := by
  have hproper : ∀ token ∈ (placed source).filterMap Placed.token?, (!token.isEnd) = true :=
    fun token ht => by rw [isEnd_eq_false_of_mem (wellPlaced_pieces source) ht]; rfl
  rw [Scan.proper, tokenize_tokens, tokensFrom, List.filter_append]
  exact (congrArg₂ _ (List.filter_eq_self.2 hproper) rfl).trans (List.append_nil _)

theorem words_tokenize (source : Text) :
    (tokenize source).proper.map Token.word = (pieces source).filterMap Piece.word? := by
  rw [proper_tokenize, placed, words_placedFrom]

theorem faults_tokenize (source : Text) :
    (tokenize source).diagnostics.map Diagnostic.fault = (pieces source).filterMap Piece.fault? := by
  rw [tokenize_diagnostics, diagnosticsFrom, faults_placedFrom]

theorem tokenize_tokens_eq_proper (source : Text) :
    (tokenize source).tokens = (tokenize source).proper ++ [endToken source] := by
  rw [proper_tokenize, tokenize_tokens]
  rfl

theorem getLast?_tokenize (source : Text) :
    (tokenize source).tokens.getLast? = some (endToken source) := by
  rw [tokenize_tokens_eq_proper, List.getLast?_concat]

theorem endToken_eq (source : Text) :
    endToken source =
      ⟨.endOfInput, [], 1 + newlines source, ⟨byteLength source, byteLength source⟩⟩ := by
  simp [endToken, Position.token, Position.span, Position.advance, Position.start]

end ScriptLexer
