import ScriptLexer.Prompt.Entry

set_option autoImplicit false

/-! # Input lines of bytes

Standard input is cut into lines as bytes, and only then is each line read as text. For an input
that is UTF-8 this makes no difference (`inputOfBytes_utf8`): the byte of a line feed is in no other
character, so the cuts are those of the text. -/

namespace ScriptLexer

/-! ## Bytes as a list -/

theorem toList_loop (bytes : ByteArray) (i : Nat) (done : List UInt8) :
    ByteArray.toList.loop bytes i done = done.reverse ++ bytes.data.toList.drop i := by
  fun_induction ByteArray.toList.loop bytes i done with
  | case1 i done hlt ih =>
    have hlen : i < bytes.data.toList.length := by
      simpa using hlt
    have hget : bytes.get! i = bytes.data.toList[i] := by
      cases bytes
      exact getElem!_pos _ i hlt
    rw [ih, List.drop_eq_getElem_cons hlen, hget]
    simp
  | case2 i done hge =>
    have hdrop : bytes.data.toList.drop i = [] := List.drop_eq_nil_of_le (by simpa using hge)
    rw [hdrop, List.append_nil]

theorem toList_eq_data (bytes : ByteArray) : bytes.toList = bytes.data.toList :=
  toList_loop bytes 0 []

/-! ## UTF-8 -/

/-- The bytes of a text. -/
def utf8 (text : Text) : List UInt8 :=
  text.flatMap String.utf8EncodeChar

theorem toList_toUTF8 (text : Text) : (String.ofList text).toUTF8.toList = utf8 text := by
  rw [toList_eq_data, String.toUTF8_eq_toByteArray, String.toByteArray_ofList, List.utf8Encode,
    List.toList_data_toByteArray]
  rfl

/-- The bytes of a text are read as the text. -/
theorem textOfBytes_utf8 (text : Text) : textOfBytes ⟨(utf8 text).toArray⟩ = .ok text := by
  have hbytes : (⟨(utf8 text).toArray⟩ : ByteArray) = text.utf8Encode := by
    rw [List.utf8Encode, ← utf8]
    exact ByteArray.ext (Array.toList_inj.1 List.toList_data_toByteArray.symm)
  have hstring : String.fromUTF8? ⟨(utf8 text).toArray⟩ = some (String.ofList text) := by
    rw [hbytes, String.fromUTF8?, dif_pos ByteArray.isValidUTF8_utf8Encode]
    rfl
  rw [textOfBytes, hstring]
  exact congrArg Except.ok String.toList_ofList

theorem utf8EncodeChar_newline : String.utf8EncodeChar '\n' = ['\n'.toUInt8] := rfl

/-- A character below 128 is one byte, which has its number; every byte of any other character is 128
    or more. -/
theorem mem_utf8EncodeChar {c : Char} {byte : UInt8} (h : byte ∈ String.utf8EncodeChar c) :
    (c.toNat < 128 ∧ byte = c.toUInt8) ∨ (128 ≤ c.toNat ∧ 128 ≤ byte.toNat) := by
  have hnat : c.toNat = c.val.toNat := rfl
  have high : ∀ n, 128 ≤ n % 256 → 128 ≤ (UInt8.ofNat n).toNat := by
    intro n hn
    rwa [UInt8.toNat_ofNat']
  revert h
  fun_cases String.utf8EncodeChar c with
  | case1 v hv =>
    intro h
    exact .inl ⟨by omega, List.mem_singleton.1 h⟩
  | case2 v | case3 v | case4 v =>
    simp only [List.mem_cons, List.not_mem_nil, or_false]
    intro h
    refine .inr ⟨by omega, ?_⟩
    rcases h with rfl | rfl | rfl | rfl <;> exact high _ (by omega)

/-- The byte of a line feed is in no other character. -/
theorem newline_not_mem_utf8EncodeChar {c : Char} (h : c ≠ '\n') :
    '\n'.toUInt8 ∉ String.utf8EncodeChar c := by
  intro hmem
  rcases mem_utf8EncodeChar hmem with ⟨hlt, hbyte⟩ | ⟨-, hbyte⟩
  · have hnat : 10 = c.toNat % 256 := congrArg UInt8.toNat hbyte
    exact h (Char.toNat_inj.1 (show c.toNat = 10 by omega))
  · exact absurd hbyte (by decide)

/-! ## Cutting after a mark -/

section SplitAfter

variable {α : Type} [DecidableEq α] {mark : α}

theorem splitAfter_append_mark {xs : List α} (h : mark ∉ xs) (rest : List α) :
    splitAfter mark (xs ++ mark :: rest) = (xs ++ [mark]) :: splitAfter mark rest := by
  induction xs with
  | nil => simp [splitAfter]
  | cons x xs ih =>
    obtain ⟨hx, hxs⟩ := List.ne_and_not_mem_of_not_mem_cons h
    rw [List.cons_append, splitAfter, if_neg (Ne.symm hx), ih hxs]
    rfl

theorem splitAfter_of_not_mem {xs : List α} (h : mark ∉ xs) (hne : xs ≠ []) :
    splitAfter mark xs = [xs] := by
  induction xs with
  | nil => exact absurd rfl hne
  | cons x xs ih =>
    obtain ⟨hx, hxs⟩ := List.ne_and_not_mem_of_not_mem_cons h
    rw [splitAfter, if_neg (Ne.symm hx)]
    by_cases hnil : xs = []
    · subst hnil
      rfl
    · rw [ih hxs hnil]

end SplitAfter

theorem newline_not_mem_utf8 {text : Text} (h : '\n' ∉ text) : '\n'.toUInt8 ∉ utf8 text := by
  intro hmem
  obtain ⟨c, hc, hbyte⟩ := List.mem_flatMap.1 hmem
  exact newline_not_mem_utf8EncodeChar (fun he => h (he ▸ hc)) hbyte

theorem utf8_ne_nil {text : Text} (h : text ≠ []) : utf8 text ≠ [] := by
  obtain ⟨c, rest, rfl⟩ := List.exists_cons_of_ne_nil h
  rw [utf8, List.flatMap_cons]
  exact List.append_ne_nil_of_left_ne_nil String.utf8EncodeChar_ne_nil _

/-- Induction on the lines of a text. -/
@[elab_as_elim]
theorem lineInduction {motive : Text → Prop} (last : ∀ line, '\n' ∉ line → motive line)
    (line : ∀ line rest, '\n' ∉ line → motive rest → motive (line ++ '\n' :: rest)) (text : Text) :
    motive text := by
  by_cases hmem : '\n' ∈ text
  · obtain ⟨first, rest, htext, hfirst⟩ := List.eq_append_cons_of_mem hmem
    have hlt : rest.length < text.length := by
      simp only [htext, List.length_append, List.length_cons]
      omega
    rw [htext]
    exact line first rest hfirst (lineInduction last line rest)
  · exact last text hmem
termination_by text.length

/-- The lines of the bytes of a text are the bytes of its lines. -/
theorem splitAfter_utf8 (text : Text) :
    splitAfter '\n'.toUInt8 (utf8 text) = (splitAfter '\n' text).map utf8 := by
  induction text using lineInduction with
  | last line hline =>
    by_cases hnil : line = []
    · subst hnil
      rfl
    · rw [splitAfter_of_not_mem (newline_not_mem_utf8 hline) (utf8_ne_nil hnil),
        splitAfter_of_not_mem hline hnil]
      rfl
  | line line rest hline ih =>
    have hbytes : utf8 (line ++ '\n' :: rest) = utf8 line ++ '\n'.toUInt8 :: utf8 rest := by
      simp [utf8, utf8EncodeChar_newline]
    have hend : utf8 (line ++ ['\n']) = utf8 line ++ ['\n'.toUInt8] := by
      simp [utf8, utf8EncodeChar_newline]
    rw [hbytes, splitAfter_append_mark (newline_not_mem_utf8 hline), splitAfter_append_mark hline,
      List.map_cons, hend, ih]

/-- The input lines of bytes that are UTF-8 are those of the text. -/
theorem inputOfBytes_utf8 (text : Text) :
    inputOfBytes (String.ofList text).toUTF8 = inputOfText text := by
  rw [inputOfBytes, toList_toUTF8, splitAfter_utf8, List.map_map, inputOfText]
  apply List.map_congr_left
  intro line _
  simp only [Function.comp_apply, InputLine.ofBytes, textOfBytes_utf8]

end ScriptLexer
