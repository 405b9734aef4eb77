import ScriptLexer.Proofs.Lookahead

set_option autoImplicit false

/-! # Reading a source by its bytes

A source can be read at any byte offset, also inside a character (`byteAt?`). A loop that steps from
byte to byte stops before the first one that is not of a class (`stretchEnd`); the loop that looks for
a quote counts the line feeds that it steps over (`quoteAhead`).

The classes that matter tell characters below 128 apart and take all others for the same (`Bytewise`),
and a byte of a longer character is never below 128. So such a stretch of bytes is a stretch of
characters: it ends between two characters (`stretchEnd_append`, `quoteAhead_append`). -/

namespace ScriptLexer

/-! ## Bytes as characters -/

/-- The bytes of a text, each as the character that has its number. -/
def asBytes (text : Text) : Text :=
  (utf8 text).map Char.ofUInt8

/-- The byte at an offset. -/
def byteAt? (source : Text) (offset : Nat) : Option Char :=
  (asBytes source)[offset]?

@[simp]
theorem asBytes_nil : asBytes [] = [] := rfl

@[simp]
theorem asBytes_append (a b : Text) : asBytes (a ++ b) = asBytes a ++ asBytes b := by
  simp [asBytes, utf8]

theorem asBytes_cons (c : Char) (text : Text) : asBytes (c :: text) = asBytes [c] ++ asBytes text :=
  asBytes_append [c] text

@[simp]
theorem length_asBytes (text : Text) : (asBytes text).length = byteLength text := by
  rw [asBytes, List.length_map, length_utf8]

theorem byteAt?_append (before rest : Text) (offset : Nat) :
    byteAt? (before ++ rest) (byteLength before + offset) = byteAt? rest offset := by
  rw [byteAt?, byteAt?, asBytes_append, ← length_asBytes before,
    List.getElem?_append_right (Nat.le_add_right _ _), Nat.add_sub_cancel_left]

theorem lt_of_byteAt? {source : Text} {offset : Nat} {byte : Char}
    (h : byteAt? source offset = some byte) : offset < byteLength source := by
  obtain ⟨hlt, -⟩ := List.getElem?_eq_some_iff.1 h
  rwa [length_asBytes] at hlt

/-- A byte of a character below 128 is that character, and the bytes of all others are not below. -/
theorem mem_asBytes_singleton {c byte : Char} (h : byte ∈ asBytes [c]) :
    (c.toNat < 128 ∧ byte = c) ∨ (128 ≤ c.toNat ∧ 128 ≤ byte.toNat) := by
  obtain ⟨b, hb, rfl⟩ := List.mem_map.1 h
  rw [utf8, List.flatMap_singleton] at hb
  rcases mem_utf8EncodeChar hb with ⟨hlt, rfl⟩ | ⟨hle, hbyte⟩
  · refine .inl ⟨hlt, Char.toNat_inj.1 ?_⟩
    show c.toNat % 256 = c.toNat
    omega
  · exact .inr ⟨hle, hbyte⟩

theorem utf8Size_eq_one_iff_lt {c : Char} : c.utf8Size = 1 ↔ c.toNat < 128 := by
  rw [Char.utf8Size_eq_one_iff, Nat.lt_succ_iff]
  rfl

theorem asBytes_ascii {c : Char} (h : c.toNat < 128) (text : Text) :
    asBytes (c :: text) = c :: asBytes text := by
  have hlength : (asBytes [c]).length = 1 := by
    rw [length_asBytes, byteLength_cons, utf8Size_eq_one_iff_lt.2 h, byteLength_nil]
  obtain ⟨byte, hbyte⟩ := List.length_eq_one_iff.1 hlength
  rcases mem_asBytes_singleton (hbyte ▸ List.mem_singleton_self byte) with ⟨-, rfl⟩ | ⟨hle, -⟩
  · rw [asBytes_cons, hbyte, List.singleton_append]
  · omega

theorem byteAt?_succ {c : Char} (h : c.toNat < 128) (text : Text) (offset : Nat) :
    byteAt? (c :: text) (offset + 1) = byteAt? text offset := by
  rw [byteAt?, asBytes_ascii h]
  rfl

/-- A text starts with a byte of its first character. -/
theorem exists_byteAt?_zero (c : Char) (rest : Text) :
    ∃ byte ∈ asBytes [c], byteAt? (c :: rest) 0 = some byte := by
  have hpos : 0 < (asBytes [c]).length := by
    rw [length_asBytes, byteLength_cons]
    exact Nat.add_pos_left (Char.utf8Size_pos c) _
  obtain ⟨byte, bytes, hbytes⟩ := List.exists_cons_of_length_pos hpos
  refine ⟨byte, hbytes ▸ List.mem_cons_self, ?_⟩
  rw [byteAt?, asBytes_cons, hbytes]
  rfl

/-- The first byte of a text is a given character below 128 exactly if its first character is. -/
theorem byteAt?_zero_eq_some_iff {mark : Char} (hmark : mark.toNat < 128) {text : Text} :
    byteAt? text 0 = some mark ↔ text.head? = some mark := by
  cases text with
  | nil => simp [byteAt?]
  | cons c rest =>
    obtain ⟨byte, hmem, hbyte⟩ := exists_byteAt?_zero c rest
    rw [hbyte, List.head?_cons, Option.some_inj, Option.some_inj]
    rcases mem_asBytes_singleton hmem with ⟨-, rfl⟩ | ⟨hc, hb⟩
    · rfl
    · constructor
      · rintro rfl
        omega
      · rintro rfl
        omega

/-! ## Classes of bytes -/

/-- A class of characters to which each byte of a character belongs if the character does. -/
def Bytewise (p : Char → Bool) : Prop :=
  ∀ c, ∀ byte ∈ asBytes [c], p byte = p c

theorem Bytewise.of_eq {p : Char → Bool} (value : Bool)
    (h : ∀ c : Char, 128 ≤ c.toNat → p c = value) : Bytewise p := by
  intro c byte hbyte
  rcases mem_asBytes_singleton hbyte with ⟨-, rfl⟩ | ⟨hc, hb⟩
  · rfl
  · rw [h c hc, h byte hb]

theorem bytewise_ne {mark : Char} (hmark : mark.toNat < 128) : Bytewise fun c => c ≠ mark := by
  refine .of_eq true ?_
  intro c hc
  rw [decide_eq_true_iff]
  rintro rfl
  omega

theorem not_isDigit_of_le {c : Char} (h : 128 ≤ c.toNat) : ¬ IsDigit c := by
  intro hdigit
  have hlt := utf8Size_eq_one_iff_lt.1 (utf8Size_of_digit hdigit)
  omega

theorem not_isLetter_of_le {c : Char} (h : 128 ≤ c.toNat) : ¬ IsLetter c := by
  intro hletter
  have hlt := utf8Size_eq_one_iff_lt.1 (utf8Size_of_letter hletter)
  omega

/-- Nothing starts with a character of more than one byte. -/
theorem opensNothing_of_le {c : Char} (h : 128 ≤ c.toNat) : OpensNothing c where
  not_space := by
    rintro (rfl | rfl | rfl | rfl) <;> exact absurd h (by decide)
  ne_quote := by
    rintro rfl
    exact absurd h (by decide)
  not_digit := not_isDigit_of_le h
  not_letter := not_isLetter_of_le h
  no_symbol := by
    unfold Symbol.ofChar?
    split <;> first | rfl | exact absurd h (by decide)

theorem bytewise_isDigit : Bytewise Char.isDigit := by
  refine .of_eq false ?_
  intro c hc
  exact isDigit_eq_false_iff.2 (not_isDigit_of_le hc)

theorem bytewise_isWordChar : Bytewise isWordChar := by
  refine .of_eq false ?_
  intro c hc
  rw [isWordChar_eq_false_iff, not_or]
  exact ⟨not_isLetter_of_le hc, not_isDigit_of_le hc⟩

section Stretch

variable {p : Char → Bool}

/-- The bytes of a class at the start of a text are those of its characters of the class. -/
theorem Bytewise.takeWhile_asBytes (h : Bytewise p) (text : Text) :
    (asBytes text).takeWhile p = asBytes (text.takeWhile p) := by
  induction text with
  | nil => rfl
  | cons c text ih =>
    by_cases hc : p c = true
    · have hbytes : ∀ byte ∈ asBytes [c], p byte = true := by
        intro byte hbyte
        rw [h c byte hbyte, hc]
      rw [List.takeWhile_cons_of_pos hc, asBytes_cons, asBytes_cons c (text.takeWhile p), ← ih,
        List.takeWhile_append_of_pos hbytes]
    · obtain ⟨byte, hmem, hbyte⟩ := exists_byteAt?_zero c text
      rw [byteAt?, ← List.head?_eq_getElem?] at hbyte
      obtain ⟨bytes, hbytes⟩ := List.head?_eq_some_iff.1 hbyte
      have hfirst : ¬ p byte = true := by
        rwa [h c byte hmem]
      rw [List.takeWhile_cons_of_neg hc, hbytes, List.takeWhile_cons_of_neg hfirst, asBytes_nil]

theorem Bytewise.any_byteAt?_zero (h : Bytewise p) (text : Text) :
    (byteAt? text 0).any p = text.head?.any p := by
  cases text with
  | nil => rfl
  | cons c rest =>
    obtain ⟨byte, hmem, hbyte⟩ := exists_byteAt?_zero c rest
    rw [hbyte, List.head?_cons, Option.any_some, Option.any_some, h c byte hmem]

end Stretch

/-- The bytes of a text have the line feeds of the text. -/
theorem newlines_asBytes (text : Text) : newlines (asBytes text) = newlines text := by
  induction text with
  | nil => rfl
  | cons c text ih =>
    rw [asBytes_cons, newlines_append, ih]
    by_cases hc : c = '\n'
    · subst hc
      simp [newlines, asBytes_ascii, Nat.add_comm]
    · have hbytes : '\n' ∉ asBytes [c] := by
        intro hmem
        rcases mem_asBytes_singleton hmem with ⟨-, h⟩ | ⟨-, h⟩
        · exact hc h.symm
        · exact absurd h (by decide)
      rw [newlines_of_not_mem hbytes, newlines, newlines, List.count_cons_of_ne hc, Nat.zero_add]

/-! ## Loops over bytes -/

/-- The offset at which a stretch of bytes of a class ends. -/
def stretchEnd (p : Char → Bool) (source : Text) (offset : Nat) : Nat :=
  match h : byteAt? source offset with
  | none => offset
  | some byte => if p byte then stretchEnd p source (offset + 1) else offset
termination_by byteLength source - offset
decreasing_by
  have hlt := lt_of_byteAt? h
  omega

/-- The offset of the next quote, or the end of the source if there is none. Each line feed on the way
    is counted. -/
def quoteAhead (source : Text) (offset line : Nat) : Nat × Nat :=
  match h : byteAt? source offset with
  | none => (offset, line)
  | some byte =>
    if byte = '"' then (offset, line)
    else if byte = '\n' then quoteAhead source (offset + 1) (line + 1)
    else quoteAhead source (offset + 1) line
termination_by byteLength source - offset
decreasing_by
  all_goals
    have hlt := lt_of_byteAt? h
    omega

theorem drop_of_byteAt? {source : Text} {offset : Nat} {byte : Char}
    (h : byteAt? source offset = some byte) :
    (asBytes source).drop offset = byte :: (asBytes source).drop (offset + 1) := by
  obtain ⟨hlt, hbyte⟩ := List.getElem?_eq_some_iff.1 h
  rw [List.drop_eq_getElem_cons hlt, hbyte]

theorem drop_of_byteAt?_eq_none {source : Text} {offset : Nat} (h : byteAt? source offset = none) :
    (asBytes source).drop offset = [] :=
  List.drop_eq_nil_of_le (List.getElem?_eq_none_iff.1 h)

theorem stretchEnd_eq (p : Char → Bool) (source : Text) (offset : Nat) :
    stretchEnd p source offset =
      offset + (((asBytes source).drop offset).takeWhile p).length := by
  fun_induction stretchEnd p source offset with
  | case1 offset h => simp [drop_of_byteAt?_eq_none h]
  | case2 offset byte h hp ih =>
    rw [ih, drop_of_byteAt? h, List.takeWhile_cons_of_pos hp, List.length_cons]
    omega
  | case3 offset byte h hp => simp [drop_of_byteAt? h, hp]

theorem quoteAhead_eq (source : Text) (offset line : Nat) :
    quoteAhead source offset line =
      (offset + (((asBytes source).drop offset).takeWhile (· ≠ '"')).length,
        line + newlines (((asBytes source).drop offset).takeWhile (· ≠ '"'))) := by
  fun_induction quoteAhead source offset line with
  | case1 offset line h => simp [drop_of_byteAt?_eq_none h]
  | case2 offset line h => simp [drop_of_byteAt? h]
  | case3 offset line h hquote ih =>
    rw [ih, drop_of_byteAt? h, List.takeWhile_cons_of_pos (by decide)]
    simp only [newlines, List.length_cons, List.count_cons_self, Prod.mk.injEq]
    omega
  | case4 offset line byte h hquote hline ih =>
    rw [ih, drop_of_byteAt? h, List.takeWhile_cons_of_pos (by simpa using hquote)]
    simp only [newlines, List.length_cons, List.count_cons_of_ne hline, Prod.mk.injEq, and_true]
    omega

theorem drop_asBytes (before rest : Text) :
    (asBytes (before ++ rest)).drop (byteLength before) = asBytes rest := by
  rw [asBytes_append, ← length_asBytes before, List.drop_left]

/-- A stretch of bytes is a stretch of characters. -/
theorem stretchEnd_append {p : Char → Bool} (hp : Bytewise p) (before rest : Text) :
    stretchEnd p (before ++ rest) (byteLength before) =
      byteLength before + byteLength (rest.takeWhile p) := by
  rw [stretchEnd_eq, drop_asBytes, hp.takeWhile_asBytes, length_asBytes]

/-- The loop that looks for a quote goes over the characters before it, and over their line feeds. -/
theorem quoteAhead_append (before rest : Text) (line : Nat) :
    quoteAhead (before ++ rest) (byteLength before) line =
      (byteLength before + byteLength (rest.takeWhile (· ≠ '"')),
        line + newlines (rest.takeWhile (· ≠ '"'))) := by
  rw [quoteAhead_eq, drop_asBytes, (bytewise_ne (by decide)).takeWhile_asBytes, length_asBytes,
    newlines_asBytes]

end ScriptLexer
