import Mathlib.Data.List.DropRight
import ScriptLexer.Prompt.Command
import ScriptLexer.Proofs.Grammar

set_option autoImplicit false

/-! # Blanks around an entry

What is entered is trimmed before it is read as a command, and the dot of a command is looked for after
leading blanks. Trimming once more changes nothing (`trim_trim`), the first character that is not
blank stays the first (`head?_trim`), and so only an entry that starts with a dot can be a command
(`parse?_of_no_dot`). -/

namespace ScriptLexer

variable {text : Text}

/-! ## Trimming -/

theorem trimStart_eq_self (h : ∀ c ∈ text.head?, isBlank c = false) : trimStart text = text := by
  cases text with
  | nil => rfl
  | cons c text => rw [trimStart, List.dropWhile_cons_of_neg (by simpa using h c rfl)]

theorem trimEnd_prefix (text : Text) : trimEnd text <+: text :=
  List.rdropWhile_prefix isBlank text

/-- A text that is not blank starts as it does when trimmed. -/
theorem head?_trim {c : Char} (h : c ∈ (trim text).head?) : c ∈ (trimStart text).head? := by
  obtain ⟨rest, hrest⟩ := trimEnd_prefix (trimStart text)
  rw [← hrest, List.head?_append]
  rw [Option.mem_def] at h ⊢
  rw [← trim, h, Option.some_or]

theorem trim_trim (text : Text) : trim (trim text) = trim text := by
  have hhead : ∀ c ∈ (trim text).head?, isBlank c = false := by
    intro c hc
    exact head?_dropWhile_eq_false isBlank text c (head?_trim hc)
  rw [trim, trimStart_eq_self hhead]
  exact List.rdropWhile_idempotent isBlank (trimStart text)

theorem trimEnd_append {front back : Text} (h : trimEnd back ≠ []) :
    trimEnd (front ++ back) = front ++ trimEnd back := by
  have hdrop : back.reverse.dropWhile isBlank ≠ [] := by simpa [trimEnd] using h
  rw [trimEnd, List.reverse_append, List.dropWhile_append, if_neg (by simpa using hdrop),
    List.reverse_append, List.reverse_reverse, trimEnd]

theorem trimEnd_of_trim (h : trim text = text) : trimEnd text = text := by
  rw [← h]
  exact List.rdropWhile_idempotent isBlank (trimStart text)

/-- What is trimmed does not end in a blank. -/
theorem getLast?_of_trim (h : trim text = text) : ∀ c ∈ text.getLast?, isBlank c = false := by
  intro c hc
  rw [← trimEnd_of_trim h, trimEnd, List.getLast?_reverse] at hc
  exact head?_dropWhile_eq_false isBlank _ c hc

/-! ## Dots and commands -/

/-- Blanks at the end do not change how an entry starts. -/
theorem startsWithDot_append_blank {blank : Text} (h : ∀ c ∈ blank, isBlank c = true) :
    startsWithDot (text ++ blank) = startsWithDot text := by
  have hblank : blank.dropWhile isBlank = [] := List.dropWhile_eq_nil_iff.2 h
  rw [startsWithDot, startsWithDot, trimStart, trimStart, List.dropWhile_append, hblank]
  cases text.dropWhile isBlank <;> rfl

theorem parse?_trim (entry : Text) : Invocation.parse? (trim entry) = Invocation.parse? entry := by
  rw [Invocation.parse?, trim_trim, Invocation.parse?]

theorem parse?_of_blank (h : trim text = []) : Invocation.parse? text = none := by
  rw [Invocation.parse?, h]

theorem parse?_of_no_dot (h : startsWithDot text = false) : Invocation.parse? text = none := by
  rw [Invocation.parse?]
  split
  · next rest htrim =>
    have hhead : '.' ∈ (trimStart text).head? := head?_trim (by rw [htrim]; rfl)
    rw [startsWithDot, Option.mem_def.1 hhead] at h
    cases h
  · rfl

end ScriptLexer
