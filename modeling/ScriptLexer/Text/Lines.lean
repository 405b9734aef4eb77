import ScriptLexer.Text.Bytes

set_option autoImplicit false

/-! # Lines of a text

A line ends at a line feed. Line numbers count line feeds, and standard input arrives line by line,
each line with the line feed that ends it (`splitAfter`). -/

namespace ScriptLexer

/-- The number of line feeds in a text. -/
def newlines (text : Text) : Nat :=
  text.count '\n'

@[simp]
theorem newlines_nil : newlines [] = 0 := rfl

@[simp]
theorem newlines_append (a b : Text) : newlines (a ++ b) = newlines a + newlines b := by
  simp [newlines]

theorem newlines_of_not_mem {text : Text} (h : '\n' ∉ text) : newlines text = 0 :=
  List.count_eq_zero.2 h

variable {α : Type} [DecidableEq α]

/-- Cuts a list after every occurrence of a mark. The last part may lack the mark, and an empty list
    has no parts. -/
def splitAfter (mark : α) : List α → List (List α)
  | [] => []
  | x :: rest =>
    if x = mark then [x] :: splitAfter mark rest
    else match splitAfter mark rest with
      | [] => [[x]]
      | part :: parts => (x :: part) :: parts

/-- Putting the parts back together gives the list. -/
theorem flatten_splitAfter (mark : α) (xs : List α) : (splitAfter mark xs).flatten = xs := by
  induction xs with
  | nil => rfl
  | cons x rest ih =>
    simp only [splitAfter]
    split
    · simp [ih]
    · split
      · next h => simp_all
      · next part parts h => rw [h] at ih; simpa using ih

end ScriptLexer
