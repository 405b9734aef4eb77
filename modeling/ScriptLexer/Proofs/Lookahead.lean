import ScriptLexer.Proofs.InputLines
import ScriptLexer.Proofs.Placement

set_option autoImplicit false

/-! # How far a scan looks ahead

Two bytes after a piece decide whether it ends there, and the second is looked at only if the first is
a point (`Piece.EndsBefore.of_sameStart`). So two sources that start with the same bytes have the same
tokens up to two bytes before the place where they part, and the same unexpected characters up to that
place, wherever it is, also inside a character. The two scans are compared piece by piece: as long as
anything is left that the common bytes settle, the next piece is the same in both
(`exists_commonPiece`).
Main statement: `tokenize_sameStart`. -/

namespace ScriptLexer

/-! ## Sources that start with the same bytes -/

/-- Whether the first bytes of two texts are the same. -/
def SameStart (n : Nat) (s t : Text) : Prop :=
  (utf8 s).take n = (utf8 t).take n

theorem length_utf8 (text : Text) : (utf8 text).length = byteLength text := by
  induction text with
  | nil => rfl
  | cons c text ih =>
    rw [utf8, List.flatMap_cons, List.length_append, String.length_utf8EncodeChar, byteLength_cons,
      ← ih, utf8]

theorem utf8_cons (c : Char) (text : Text) :
    utf8 (c :: text) = String.utf8EncodeChar c ++ utf8 text := rfl

/-- The bytes of a character at the start of a text are of no other character. -/
theorem eq_of_utf8_cons {c d : Char} {text : Text} {bytes : List UInt8}
    (h : utf8 (d :: text) = String.utf8EncodeChar c ++ bytes) : d = c := by
  have hencode : (d :: text).utf8Encode =
      (String.utf8EncodeChar c).toByteArray ++ bytes.toByteArray := by
    rw [List.utf8Encode, ← utf8, h, List.toByteArray_append]
  have hd : (d :: text).utf8Encode.utf8DecodeChar? 0 = some d :=
    List.utf8DecodeChar?_utf8Encode_cons
  rw [hencode, ByteArray.utf8DecodeChar?_utf8EncodeChar_append] at hd
  exact (Option.some.inj hd).symm

namespace SameStart

variable {m n : Nat} {s t : Text} {c : Char}

theorem symm (h : SameStart n s t) : SameStart n t s :=
  Eq.symm h

theorem mono (h : SameStart n s t) (hm : m ≤ n) : SameStart m s t := by
  have htake := congrArg (List.take m) h
  rwa [List.take_take, List.take_take, Nat.min_eq_left hm] at htake

/-- A character of which all bytes are in the common start is in both texts. -/
theorem of_cons (h : SameStart n (c :: s) t) (hn : c.utf8Size ≤ n) :
    ∃ t', t = c :: t' ∧ SameStart (n - c.utf8Size) s t' := by
  have htake : ∀ text : Text, (utf8 (c :: text)).take n =
      String.utf8EncodeChar c ++ (utf8 text).take (n - c.utf8Size) := by
    intro text
    rw [utf8_cons, List.take_append, String.length_utf8EncodeChar,
      List.take_of_length_le (by rwa [String.length_utf8EncodeChar])]
  rw [SameStart, htake] at h
  cases t with
  | nil =>
    have hnil := (List.append_eq_nil_iff.1 (h.trans List.take_nil)).1
    exact absurd hnil String.utf8EncodeChar_ne_nil
  | cons d t =>
    have hbytes : utf8 (d :: t) = String.utf8EncodeChar c ++
        ((utf8 s).take (n - c.utf8Size) ++ (utf8 (d :: t)).drop n) := by
      rw [← List.append_assoc, h, List.take_append_drop]
    obtain rfl : d = c := eq_of_utf8_cons hbytes
    rw [htake] at h
    exact ⟨t, rfl, List.append_cancel_left h⟩

theorem of_append {text : Text} (h : SameStart n (text ++ s) t) (hn : byteLength text ≤ n) :
    ∃ t', t = text ++ t' ∧ SameStart (n - byteLength text) s t' := by
  induction text generalizing n t with
  | nil => exact ⟨t, rfl, h⟩
  | cons c text ih =>
    rw [byteLength_cons] at hn
    obtain ⟨t', rfl, hlater⟩ := of_cons h (by omega)
    obtain ⟨t'', rfl, hrest⟩ := ih hlater (by omega)
    exact ⟨t'', rfl, by rwa [byteLength_cons, Nat.sub_add_eq]⟩

theorem mem_head? (h : SameStart 1 s t) (hc : c.utf8Size = 1) (hmem : c ∈ t.head?) :
    c ∈ s.head? := by
  obtain ⟨t', rfl⟩ := List.head?_eq_some_iff.1 hmem
  obtain ⟨s', rfl, -⟩ := of_cons h.symm hc.le
  rfl

end SameStart

/-! ## Where a piece ends -/

theorem utf8Size_of_digit {c : Char} (h : IsDigit c) : c.utf8Size = 1 := by
  have hle : c.val ≤ 57 := h.2
  have hsmall : (57 : UInt32) ≤ 127 := by decide
  exact Char.utf8Size_eq_one_iff.2 (UInt32.le_trans hle hsmall)

theorem utf8Size_of_letter {c : Char} (h : IsLetter c) : c.utf8Size = 1 := by
  rw [Char.utf8Size_eq_one_iff]
  rcases h with ⟨-, h⟩ | ⟨-, h⟩ | rfl
  · exact UInt32.le_trans h (by decide)
  · exact UInt32.le_trans h (by decide)
  · decide

section EndsBefore

variable {piece : Piece} {rest rest' : Text}

/-- A piece that ends before one text ends before any other that starts in the same way: with the
    same byte, and with the same two if the first is a point. -/
theorem Piece.EndsBefore.of_sameStart (h : piece.EndsBefore rest) (hne : rest ≠ [])
    (hsame : SameStart 1 rest rest') (hpoint : SameStart 2 rest rest' ∨ '.' ∉ rest.head?) :
    piece.EndsBefore rest' := by
  cases piece with
  | separator c => trivial
  | comment text =>
    obtain ⟨d, more, rfl⟩ := List.exists_cons_of_ne_nil hne
    obtain rfl : d = '\n' := h d rfl
    obtain ⟨more', rfl, -⟩ := hsame.of_cons (by decide)
    simp [EndsBefore]
  | token kind lexeme =>
    have hname : (∀ c ∈ rest.head?, ¬ (IsLetter c ∨ IsDigit c)) →
        ∀ c ∈ rest'.head?, ¬ (IsLetter c ∨ IsDigit c) := by
      intro hstop c hc hword
      exact hstop c (hsame.mem_head? (hword.elim utf8Size_of_letter utf8Size_of_digit) hc) hword
    cases kind with
    | symbol s =>
      exact ⟨fun hs hslash => h.1 hs (hsame.mem_head? (by decide) hslash),
        fun hs hequal => h.2 hs (hsame.mem_head? (by decide) hequal)⟩
    | number value =>
      refine ⟨fun c hc hdigit => h.1 c (hsame.mem_head? (utf8Size_of_digit hdigit) hc) hdigit, ?_⟩
      rintro hlexeme c more rfl hdigit
      -- only a point makes the second byte count
      rcases hpoint with htwo | hnone
      · have hlength : byteLength ['.', c] = 2 := by
          simp [utf8Size_of_digit hdigit, show '.'.utf8Size = 1 from rfl]
        have hcut : SameStart 2 (['.', c] ++ more) rest := htwo.symm
        obtain ⟨more', rfl, -⟩ := hcut.of_append hlength.le
        exact h.2 hlexeme c more' rfl hdigit
      · exact hnone (hsame.mem_head? (by decide) rfl)
    | identifier => exact hname h
    | keyword k => exact hname h
    | string value => trivial
    | endOfInput => trivial
  | fault fault text =>
    cases fault with
    | unterminatedString => exact absurd h hne
    | unexpectedCharacter c => trivial
    | invalidNumber number => trivial

end EndsBefore

/-! ## Settled pieces -/

/-- How many bytes from its start on show a piece as it is: a token needs two bytes after it, and an
    unexpected character none. -/
def Piece.reach? : Piece → Option Nat
  | token _ lexeme => some (byteLength lexeme + 2)
  | fault (.unexpectedCharacter _) text => some (byteLength text)
  | _ => none

/-- Whether the bytes up to an offset show a placed piece as it is. -/
def Placed.settledBy (stop : Nat) (placed : Placed) : Bool :=
  placed.piece.reach?.any fun reach => placed.position.offset + reach ≤ stop

theorem Piece.WellFormed.byteLength_le_reach {piece : Piece} {reach : Nat} (h : piece.WellFormed)
    (hreach : piece.reach? = some reach) :
    0 < byteLength piece.text ∧ byteLength piece.text ≤ reach := by
  refine ⟨Nat.pos_of_ne_zero fun hz => h.text_ne_nil (byteLength_eq_zero_iff.1 hz), ?_⟩
  cases piece with
  | token kind lexeme =>
    cases hreach
    exact Nat.le_add_right _ 2
  | fault fault text =>
    cases fault with
    | unexpectedCharacter c =>
      cases hreach
      exact le_rfl
    | _ => cases hreach
  | _ => cases hreach

/-- A piece that the common start settles ends in the same place in the other source. -/
theorem Piece.EndsBefore.of_settled {piece : Piece} {reach n : Nat} {rest rest' : Text}
    (h : piece.EndsBefore rest) (hreach : piece.reach? = some reach) (hle : reach ≤ n)
    (hlength : n ≤ byteLength piece.text + byteLength rest)
    (hsame : SameStart (n - byteLength piece.text) rest rest') : piece.EndsBefore rest' := by
  cases piece with
  | token kind lexeme =>
    cases hreach
    rw [text] at hlength hsame
    have hne : rest ≠ [] := by
      rintro rfl
      rw [byteLength_nil] at hlength
      omega
    exact h.of_sameStart hne (hsame.mono (by omega)) (.inl (hsame.mono (by omega)))
  | fault fault text =>
    cases fault with
    | unexpectedCharacter c => trivial
    | _ => cases hreach
  | _ => cases hreach

/-- What a single byte settles is an unexpected character, and no point. -/
theorem Piece.WellFormed.point_not_mem {piece : Piece} (h : piece.WellFormed)
    (hreach : piece.reach? = some 1) (rest : Text) : '.' ∉ (piece.text ++ rest).head? := by
  cases h with
  | lexical h =>
    -- the reach of a token is more than one
    cases h <;> simp [reach?] at hreach
  | @unexpected c h =>
    intro hc
    obtain rfl : c = '.' := by simpa [text] using hc
    exact absurd h.no_symbol (by decide)
  | openString => cases hreach

/-- A piece that two sources start with and that lies in their first bytes. -/
def CommonPiece (n : Nat) (s t : Text) : Prop :=
  ∃ (piece : Piece) (s' t' : Text), s = piece.text ++ s' ∧ t = piece.text ++ t' ∧
    piece.WellFormed ∧ piece.EndsBefore s' ∧ piece.EndsBefore t' ∧ byteLength piece.text ≤ n

theorem CommonPiece.symm {n : Nat} {s t : Text} (h : CommonPiece n s t) : CommonPiece n t s := by
  obtain ⟨piece, s', t', hs, ht, hwell, hends, hendt, hle⟩ := h
  exact ⟨piece, t', s', ht, hs, hwell, hendt, hends, hle⟩

section CommonPiece

variable {n reach : Nat} {piece first : Piece} {rest between after t : Text}

/-- A settled piece at the start of one source is at the start of the other. -/
theorem CommonPiece.of_settled (hwell : piece.WellFormed) (hend : piece.EndsBefore rest)
    (hreach : piece.reach? = some reach) (hle : reach ≤ n)
    (hlength : n ≤ byteLength (piece.text ++ rest)) (hsame : SameStart n (piece.text ++ rest) t) :
    CommonPiece n (piece.text ++ rest) t := by
  have hsize : byteLength piece.text ≤ n := (hwell.byteLength_le_reach hreach).2.trans hle
  obtain ⟨t', rfl, hrest⟩ := hsame.of_append hsize
  rw [byteLength_append] at hlength
  have hend' := hend.of_settled hreach hle hlength hrest
  exact ⟨piece, rest, t', rfl, rfl, hwell, hend, hend', hsize⟩

/-- Where a later piece is settled, so is the end of the first. -/
theorem CommonPiece.of_settled_later (hfirst : first.WellFormed) (hend : first.EndsBefore rest)
    (hrest : rest = between ++ (piece.text ++ after)) (hwell : piece.WellFormed)
    (hreach : piece.reach? = some reach)
    (hle : byteLength first.text + byteLength between + reach ≤ n)
    (hsame : SameStart n (first.text ++ rest) t) : CommonPiece n (first.text ++ rest) t := by
  obtain ⟨hpos, hsize⟩ := hwell.byteLength_le_reach hreach
  have hne : rest ≠ [] := by simp [hrest, hwell.text_ne_nil]
  obtain ⟨t', rfl, hlater⟩ := hsame.of_append (by omega)
  have hpoint : SameStart 2 rest t' ∨ '.' ∉ rest.head? := by
    by_cases htwo : byteLength first.text + 2 ≤ n
    · exact .inl (hlater.mono (by omega))
    · -- only one byte is left, and it is the settled piece
      obtain rfl : reach = 1 := by omega
      obtain rfl : between = [] := byteLength_eq_zero_iff.1 (by omega)
      rw [hrest]
      exact .inr (hwell.point_not_mem hreach after)
  have hend' := hend.of_sameStart hne (hlater.mono (by omega)) hpoint
  exact ⟨first, rest, t', rfl, rfl, hfirst, hend, hend', by omega⟩

end CommonPiece

/-- If the common bytes settle anything, they settle where the first piece ends. -/
theorem exists_commonPiece {n : Nat} {s t : Text} (hsame : SameStart n s t)
    (hs : n ≤ byteLength s) {position : Position} {item : Placed}
    (hitem : item ∈ placedFrom position (pieces s))
    (hsettled : item.settledBy (position.offset + n) = true) : CommonPiece n s t := by
  obtain ⟨done, later, hpieces, hposition⟩ := mem_placedFrom hitem
  obtain ⟨reach, hreach, hle⟩ := (Option.any_eq_true _ _).1 hsettled
  have hplaced := wellPlaced_pieces s
  have hsource := flatMap_text_pieces s
  have hwell : item.piece.WellFormed := hplaced.wellFormed item.piece (by simp [hpieces])
  rw [hpieces] at hplaced hsource
  rw [hposition] at hle
  simp only [Position.advance, decide_eq_true_eq, Nat.add_assoc, Nat.add_le_add_iff_left] at hle
  cases done with
  | nil =>
    obtain ⟨-, hend, -⟩ := hplaced
    rw [List.nil_append, List.flatMap_cons] at hsource
    rw [List.flatMap_nil, byteLength_nil, Nat.zero_add] at hle
    rw [← hsource] at hs hsame ⊢
    exact .of_settled hwell hend hreach hle hs hsame
  | cons first done =>
    rw [List.cons_append] at hplaced hsource
    obtain ⟨hfirst, hend, -⟩ := hplaced
    rw [List.flatMap_cons] at hsource
    rw [List.flatMap_cons, byteLength_append] at hle
    have hrest : (done ++ item.piece :: later).flatMap Piece.text =
        done.flatMap Piece.text ++ (item.piece.text ++ later.flatMap Piece.text) := by simp
    rw [← hsource] at hsame ⊢
    exact .of_settled_later hfirst hend hrest hwell hreach hle hsame

/-- What the common bytes settle of one source they settle of the other. -/
theorem filter_settledBy_eq {n : Nat} {s t : Text} (hsame : SameStart n s t)
    (hs : n ≤ byteLength s) (ht : n ≤ byteLength t) (position : Position) :
    (placedFrom position (pieces s)).filter (Placed.settledBy (position.offset + n)) =
      (placedFrom position (pieces t)).filter (Placed.settledBy (position.offset + n)) := by
  by_cases hcommon : CommonPiece n s t
  · -- the first piece is the same, and the rest start with the same bytes
    obtain ⟨piece, s', t', rfl, rfl, hwell, hends, hendt, hle⟩ := hcommon
    obtain ⟨t'', ht'', hrest⟩ := hsame.of_append hle
    obtain rfl : t' = t'' := List.append_cancel_left ht''
    have hshorter : s'.length < (piece.text ++ s').length := by
      have hpos := List.length_pos_iff.2 hwell.text_ne_nil
      rw [List.length_append]
      omega
    rw [byteLength_append] at hs ht
    have hoffset : (position.advance piece.text).offset + (n - byteLength piece.text) =
        position.offset + n := by
      show position.offset + byteLength piece.text + (n - byteLength piece.text) = _
      omega
    have hlater := filter_settledBy_eq hrest (by omega) (by omega) (position.advance piece.text)
    rw [hoffset] at hlater
    rw [pieces_append hwell hends, pieces_append hwell hendt, placedFrom_cons, placedFrom_cons,
      List.filter_cons, List.filter_cons, hlater]
  · have hempty : ∀ {s t : Text}, SameStart n s t → n ≤ byteLength s → ¬ CommonPiece n s t →
        (placedFrom position (pieces s)).filter (Placed.settledBy (position.offset + n)) = [] := by
      intro s t hsame hs hcommon
      rw [List.filter_eq_nil_iff]
      intro item hitem hsettled
      exact hcommon (exists_commonPiece hsame hs hitem hsettled)
    rw [hempty hsame hs hcommon, hempty hsame.symm ht fun h => hcommon h.symm]
termination_by s.length

/-! ## Settled tokens and diagnostics -/

/-- Whether a fault is a character that starts no token. -/
def Fault.isUnexpected : Fault → Bool
  | unexpectedCharacter _ => true
  | _ => false

/-- The tokens that the bytes up to an offset settle. -/
def Scan.settledTokens (stop : Nat) (scan : Scan) : List Token :=
  scan.proper.filter fun token => token.span.stop + 2 ≤ stop

/-- The unexpected characters that the bytes up to an offset settle. -/
def Scan.settledDiagnostics (stop : Nat) (scan : Scan) : List Diagnostic :=
  scan.diagnostics.filter fun diagnostic =>
    diagnostic.fault.isUnexpected && diagnostic.span.stop ≤ stop

/-- Filtering what a view shows is filtering what is looked at. -/
theorem filter_filterMap_eq {α β : Type} {view : α → Option β} {p : β → Bool} {q : α → Bool}
    (h : ∀ x, ∀ y ∈ view x, p y = q x) (xs : List α) :
    (xs.filterMap view).filter p = (xs.filter q).filterMap view := by
  rw [List.filter_filterMap, List.filterMap_filter]
  congr 1
  funext x
  cases hx : view x with
  | none => simp
  | some y => rw [Option.filter_some, h x y hx]

theorem settledTokens_tokenize (stop : Nat) (source : Text) :
    (tokenize source).settledTokens stop =
      ((placed source).filter (Placed.settledBy stop)).filterMap Placed.token? := by
  rw [Scan.settledTokens, proper_tokenize]
  apply filter_filterMap_eq
  rintro ⟨position, piece⟩ token htoken
  cases piece with
  | token kind lexeme =>
    cases htoken
    simp [Placed.settledBy, Piece.reach?, Position.token, Position.span, Position.advance,
      Nat.add_assoc]
  | _ => cases htoken

theorem settledDiagnostics_tokenize (stop : Nat) (source : Text) :
    (tokenize source).settledDiagnostics stop =
      ((placed source).filter (Placed.settledBy stop)).filterMap Placed.diagnostic? := by
  rw [Scan.settledDiagnostics, tokenize_diagnostics, diagnosticsFrom]
  apply filter_filterMap_eq
  rintro ⟨position, piece⟩ diagnostic hdiagnostic
  cases piece with
  | fault fault text =>
    cases hdiagnostic
    cases fault <;> rfl
  | _ => cases hdiagnostic

theorem filter_placed_eq {n : Nat} {s t : Text} (hsame : SameStart n s t)
    (hs : n ≤ byteLength s) (ht : n ≤ byteLength t) :
    (placed s).filter (Placed.settledBy n) = (placed t).filter (Placed.settledBy n) := by
  have h := filter_settledBy_eq hsame hs ht .start
  rwa [Position.start, Nat.zero_add] at h

/-- **A scan looks two bytes ahead.** Sources that agree on their first bytes have the same tokens up
    to two bytes before the end of these and the same unexpected characters up to their end. So what
    is added to a source leaves alone every token that ends two bytes or more before. -/
theorem tokenize_sameStart (s t : Text) (n : Nat) (hs : n ≤ byteLength s) (ht : n ≤ byteLength t)
    (hsame : (utf8 s).take n = (utf8 t).take n) :
    (tokenize s).settledTokens n = (tokenize t).settledTokens n ∧
      (tokenize s).settledDiagnostics n = (tokenize t).settledDiagnostics n ∧
      ∀ more : Text, (tokenize (s ++ more)).settledTokens (byteLength s) =
        (tokenize s).settledTokens (byteLength s) := by
  have hfilter := filter_placed_eq hsame hs ht
  refine ⟨?_, ?_, ?_⟩
  · rw [settledTokens_tokenize, settledTokens_tokenize, hfilter]
  · rw [settledDiagnostics_tokenize, settledDiagnostics_tokenize, hfilter]
  · intro more
    have hmore : SameStart (byteLength s) (s ++ more) s := by
      rw [SameStart, utf8, List.flatMap_append, ← utf8, ← utf8, ← length_utf8, List.take_left,
        List.take_length]
    rw [settledTokens_tokenize, settledTokens_tokenize,
      filter_placed_eq hmore (by rw [byteLength_append]; omega) le_rfl]

theorem tokenize_word_at_accent :
    tokenize ['a', ' ', '@', 'é'] =
      { tokens := [⟨.identifier, ['a'], 1, ⟨0, 1⟩⟩, ⟨.endOfInput, [], 1, ⟨5, 5⟩⟩]
        diagnostics := [⟨1, ⟨2, 3⟩, .unexpectedCharacter '@'⟩,
          ⟨1, ⟨3, 5⟩, .unexpectedCharacter 'é'⟩] } := by
  have hpieces : pieces ['a', ' ', '@', 'é'] = [.token .identifier ['a'], .separator ' ',
      .fault (.unexpectedCharacter '@') ['@'], .fault (.unexpectedCharacter 'é') ['é']] := by
    rw [pieces_cons, show Piece.next 'a' [' ', '@', 'é'] =
        (.token .identifier ['a'], [' ', '@', 'é']) from rfl,
      pieces_cons, show Piece.next ' ' ['@', 'é'] = (.separator ' ', ['@', 'é']) from rfl,
      pieces_cons, show Piece.next '@' ['é'] =
        (.fault (.unexpectedCharacter '@') ['@'], ['é']) from rfl,
      pieces_cons, show Piece.next 'é' [] =
        (.fault (.unexpectedCharacter 'é') ['é'], []) from rfl, pieces_nil]
  rw [tokenize, scanInto, hpieces]
  rfl

/-- Two sources that part inside a character after a word and an unexpected character. -/
theorem tokenize_sameStart_inside :
    (utf8 ['a', ' ', '@', 'é']).take 4 = (utf8 ['a', ' ', '@', 'è', '+']).take 4 ∧
      (tokenize ['a', ' ', '@', 'è', '+']).settledTokens 4 =
        [⟨.identifier, ['a'], 1, ⟨0, 1⟩⟩] ∧
      (tokenize ['a', ' ', '@', 'è', '+']).settledDiagnostics 4 =
        [⟨1, ⟨2, 3⟩, .unexpectedCharacter '@'⟩] ∧
      (tokenize (['a', ' ', '@', 'é'] ++ ['='])).settledTokens 5 =
        [⟨.identifier, ['a'], 1, ⟨0, 1⟩⟩] := by
  have hsame : (utf8 ['a', ' ', '@', 'é']).take 4 = (utf8 ['a', ' ', '@', 'è', '+']).take 4 := by
    decide
  obtain ⟨htokens, hdiagnostics, hmore⟩ :=
    tokenize_sameStart ['a', ' ', '@', 'é'] ['a', ' ', '@', 'è', '+'] 4
      (by decide) (by decide) hsame
  have happend := hmore ['=']
  rw [tokenize_word_at_accent] at htokens hdiagnostics happend
  exact ⟨hsame, htokens.symm, hdiagnostics.symm, happend⟩

end ScriptLexer
