/-!
# Pieces of a text

A text is cut at every occurrence of a separator. Pieces may be empty, there is always at
least one, and joining them with the separator gives the text back.
-/

namespace Sentential.Text

/-- The pieces of a text between the occurrences of `sep`. -/
def pieces (sep : Char) : List Char → List (List Char)
  | [] => [[]]
  | c :: cs =>
    if c = sep then [] :: pieces sep cs
    else
      match pieces sep cs with
      | piece :: rest => (c :: piece) :: rest
      | [] => [[c]]

theorem pieces_ne_nil (sep : Char) (cs : List Char) : pieces sep cs ≠ [] := by
  cases cs with
  | nil => simp [pieces]
  | cons c cs =>
    simp only [pieces]
    split
    · simp
    · split <;> simp

/-- Joining the pieces gives the text back. -/
theorem intercalate_pieces (sep : Char) (cs : List Char) : [sep].intercalate (pieces sep cs) = cs := by
  induction cs with
  | nil => rfl
  | cons c cs ih =>
    simp only [pieces]
    split
    · rename_i h
      obtain ⟨p, rest, hp⟩ := List.exists_cons_of_ne_nil (pieces_ne_nil sep cs)
      rw [hp] at ih ⊢
      simp [List.intercalate, List.intersperse] at ih ⊢
      exact ⟨h.symm, ih⟩
    · split
      · rename_i p rest hp
        rw [hp] at ih
        cases rest with
        | nil => simpa [List.intercalate] using ih
        | cons q rest => simpa [List.intercalate, List.intersperse] using ih
      · rename_i hp
        exact absurd hp (pieces_ne_nil sep cs)

end Sentential.Text
