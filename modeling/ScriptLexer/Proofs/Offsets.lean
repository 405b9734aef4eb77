import ScriptLexer.Prompt.Highlight
import ScriptLexer.Proofs.CursorWord

set_option autoImplicit false

/-! # Searching and cutting by bytes

A place in a text can be looked for, reckoned with and cut at as a byte offset: the first occurrence
of a text (`findText?`), the last one of a character (`findLast?`), the text between two offsets
(`sliceAt`). A cut fails past the end of a text and inside a character
(`splitAtByte?_eq_none_iff`), and a slice fails too if it would end before it starts. What is found is
always between two characters, where a cut is made. -/

namespace ScriptLexer

/-! ## Where no cut is made -/

/-- An offset inside a character of a text. -/
def IsInside (text : Text) (offset : Nat) : Prop :=
  ∃ before c after, text = before ++ c :: after ∧
    byteLength before < offset ∧ offset < byteLength before + c.utf8Size

theorem IsInside.cons {text : Text} {offset : Nat} (c : Char)
    (h : IsInside text (offset - c.utf8Size)) : IsInside (c :: text) offset := by
  obtain ⟨before, d, after, rfl, hstart, hstop⟩ := h
  refine ⟨c :: before, d, after, rfl, ?_, ?_⟩ <;> rw [byteLength_cons] <;> omega

theorem splitAtByte?_eq_none_iff {text : Text} {offset : Nat} :
    splitAtByte? text offset = none ↔ byteLength text < offset ∨ IsInside text offset := by
  constructor
  · intro h
    induction text generalizing offset with
    | nil =>
      rw [splitAtByte?] at h
      split at h
      · cases h
      · next hne => exact .inl (Nat.pos_of_ne_zero hne)
    | cons c text ih =>
      rw [splitAtByte?] at h
      split at h
      · cases h
      · next hne =>
        split at h
        · next hle =>
          rcases ih (Option.map_eq_none_iff.1 h) with hlt | hinside
          · refine .inl ?_
            rw [byteLength_cons]
            omega
          · exact .inr (hinside.cons c)
        · next hlt =>
          refine .inr ⟨[], c, text, rfl, Nat.pos_of_ne_zero hne, ?_⟩
          rw [byteLength_nil]
          omega
  · rintro (hlt | ⟨before, c, after, rfl, hstart, hstop⟩)
    · rw [Option.eq_none_iff_forall_ne_some]
      rintro ⟨before, after⟩ hsplit
      obtain ⟨rfl, hlength⟩ := splitAtByte?_eq_some hsplit
      rw [byteLength_append] at hlt
      omega
    · rw [← Nat.add_sub_cancel' hstart.le]
      exact splitAtByte?_inside (by omega) (by omega)

/-! ## Slices -/

/-- The text from one byte offset up to another. -/
def sliceAt (text : Text) (start stop : Nat) : Except BadOffset Text := do
  let (upTo, _) ← cutAt text stop
  let (_, slice) ← cutAt upTo start
  return slice

theorem sliceAt_append (before slice after : Text) :
    sliceAt (before ++ (slice ++ after)) (byteLength before) (byteLength (before ++ slice)) =
      .ok slice := by
  rw [sliceAt, ← List.append_assoc, cutAt_append]
  show (cutAt (before ++ slice) (byteLength before) >>= _) = _
  rw [cutAt_append]
  rfl

/-! ## Searching -/

/-- The byte offset of the first occurrence of a pattern. -/
def findText? (pattern : Text) : Text → Option Nat
  | [] => if pattern.isEmpty then some 0 else none
  | c :: rest =>
    if pattern.isPrefixOf (c :: rest) then some 0
    else (findText? pattern rest).map (c.utf8Size + ·)

/-- The byte offset of the last occurrence of a character. -/
def findLast? (mark : Char) : Text → Option Nat
  | [] => none
  | c :: rest =>
    match findLast? mark rest with
    | some place => some (c.utf8Size + place)
    | none => if c = mark then some 0 else none

/-- A single character is first found where the characters before it end. -/
theorem findText?_singleton (mark : Char) (text : Text) :
    findText? [mark] text =
      if mark ∈ text then some (byteLength (text.takeWhile (· ≠ mark))) else none := by
  induction text with
  | nil => rfl
  | cons c text ih =>
    rw [findText?, ih]
    by_cases h : c = mark
    · simp [h]
    · have hne : mark ≠ c := Ne.symm h
      by_cases hmem : mark ∈ text <;> simp [h, hne, hmem]

/-- Two slashes are first found where a gap is split. -/
theorem findText?_slashes (gap : Text) :
    findText? ['/', '/'] gap =
      if (splitAtSlashes gap).2 = [] then none else some (byteLength (splitAtSlashes gap).1) := by
  induction gap with
  | nil => rfl
  | cons c gap ih =>
    rw [findText?, ih, splitAtSlashes]
    by_cases h : c = '/' ∧ gap.head? = some '/'
    · obtain ⟨rfl, hnext⟩ := h
      obtain ⟨rest, rfl⟩ := List.head?_eq_some_iff.1 hnext
      simp
    · have hprefix : ['/', '/'].isPrefixOf (c :: gap) = false := by
        rw [← Bool.not_eq_true, List.isPrefixOf_iff_prefix]
        rintro ⟨rest, hrest⟩
        obtain ⟨rfl, rfl⟩ := List.cons.inj hrest
        exact h ⟨rfl, rfl⟩
      rw [if_neg h, hprefix]
      by_cases hrest : (splitAtSlashes gap).2 = [] <;> simp [hrest]

theorem findLast?_of_not_mem {mark : Char} {text : Text} (h : mark ∉ text) :
    findLast? mark text = none := by
  induction text with
  | nil => rfl
  | cons c text ih =>
    rw [List.mem_cons, not_or] at h
    rw [findLast?, ih h.2]
    exact if_neg (Ne.symm h.1)

/-- Nothing is found behind the last occurrence. -/
theorem findLast?_append {mark : Char} (before : Text) {after : Text} (h : mark ∉ after) :
    findLast? mark (before ++ mark :: after) = some (byteLength before) := by
  induction before with
  | nil =>
    rw [List.nil_append, findLast?, findLast?_of_not_mem h]
    exact if_pos rfl
  | cons c before ih =>
    rw [List.cons_append, findLast?, ih]
    rfl

end ScriptLexer
