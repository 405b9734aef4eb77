set_option autoImplicit false

/-! # Text measured in UTF-8 bytes

Scripts, output lines and paths are sequences of characters, while every offset, span and column
counts the bytes of their UTF-8 form. This module holds the byte length of a text and the cut at a
byte offset. A cut exists exactly at the offsets between two characters
(`splitAtByte?_eq_some_iff`), so "past the end" and "inside a character" are one failure. -/

namespace ScriptLexer

/-- A text is the sequence of its characters. -/
abbrev Text := List Char

/-- The number of bytes of the UTF-8 form of a text. -/
def byteLength : Text → Nat
  | [] => 0
  | c :: text => c.utf8Size + byteLength text

@[simp]
theorem byteLength_nil : byteLength [] = 0 := rfl

@[simp]
theorem byteLength_cons (c : Char) (text : Text) :
    byteLength (c :: text) = c.utf8Size + byteLength text := rfl

@[simp]
theorem byteLength_append (a b : Text) : byteLength (a ++ b) = byteLength a + byteLength b := by
  induction a with
  | nil => simp
  | cons c a ih => simp [ih, Nat.add_assoc]

/-- A text of no bytes has no characters. -/
theorem byteLength_eq_zero_iff {text : Text} : byteLength text = 0 ↔ text = [] := by
  cases text with
  | nil => simp
  | cons c text =>
    have := Char.utf8Size_pos c
    simp only [byteLength_cons, reduceCtorEq, iff_false]
    omega

/-! ## Cutting at a byte offset -/

/-- The parts of a text before and after a byte offset; there are none when the offset lies past the
    end or inside a character. -/
def splitAtByte? : Text → Nat → Option (Text × Text)
  | [], offset => if offset = 0 then some ([], []) else none
  | c :: text, offset =>
    if offset = 0 then some ([], c :: text)
    else if c.utf8Size ≤ offset then
      (splitAtByte? text (offset - c.utf8Size)).map fun parts => (c :: parts.1, parts.2)
    else none

/-- The part before a cut has as many bytes as the offset says, and nothing is lost. -/
theorem splitAtByte?_eq_some {text before after : Text} {offset : Nat}
    (h : splitAtByte? text offset = some (before, after)) :
    text = before ++ after ∧ byteLength before = offset := by
  induction text generalizing offset before with
  | nil =>
    simp only [splitAtByte?] at h
    split at h
    · simp_all
    · simp at h
  | cons c text ih =>
    simp only [splitAtByte?] at h
    split at h
    · simp_all
    · split at h
      · simp only [Option.map_eq_some_iff, Prod.mk.injEq, Prod.exists] at h
        obtain ⟨a, b, hab, rfl, rfl⟩ := h
        obtain ⟨rfl, hlen⟩ := ih hab
        simp only [List.cons_append, byteLength_cons, true_and]
        omega
      · simp at h

/-- Every decomposition of a text is found at the byte length of its first part. -/
theorem splitAtByte?_append (before after : Text) :
    splitAtByte? (before ++ after) (byteLength before) = some (before, after) := by
  induction before with
  | nil => cases after <;> simp [splitAtByte?]
  | cons c before ih =>
    have := Char.utf8Size_pos c
    simp only [List.cons_append, splitAtByte?, byteLength_cons]
    rw [if_neg (by omega), if_pos (by omega), Nat.add_sub_cancel_left, ih]
    rfl

/-- A cut exists exactly at the byte lengths of the leading parts of a text. -/
theorem splitAtByte?_eq_some_iff {text before after : Text} {offset : Nat} :
    splitAtByte? text offset = some (before, after) ↔
      text = before ++ after ∧ byteLength before = offset :=
  ⟨splitAtByte?_eq_some, fun ⟨ht, ho⟩ => ht ▸ ho ▸ splitAtByte?_append before after⟩

/-- The part of a text from one byte offset up to another. -/
def slice? (text : Text) (start stop : Nat) : Option Text := do
  let (_, rest) ← splitAtByte? text start
  let (part, _) ← splitAtByte? rest (stop - start)
  return part

/-- A slice is what stands between two parts of a text. -/
theorem slice?_append (before part after : Text) :
    slice? (before ++ (part ++ after)) (byteLength before) (byteLength before + byteLength part) =
      some part := by
  simp [slice?, splitAtByte?_append]

end ScriptLexer
