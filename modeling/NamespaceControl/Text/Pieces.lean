/-!
# Pieces between separators

A sequence cut at every occurrence of a separator. There is always one piece more than there are
separators, so the empty sequence has one empty piece, and joining the pieces gives the sequence
back (`intercalate_pieces`).
-/

namespace NamespaceControl.Text

/-- The pieces of a sequence between the occurrences of `sep`. -/
def pieces {α : Type} [DecidableEq α] (sep : α) : List α → List (List α)
  | [] => [[]]
  | x :: rest =>
    if x = sep then [] :: pieces sep rest
    else match pieces sep rest with
      | [] => [[x]]
      | piece :: more => (x :: piece) :: more

variable {α : Type} [DecidableEq α] {sep : α}

/-- There is at least one piece. -/
theorem pieces_ne_nil (sep : α) (text : List α) : pieces sep text ≠ [] := by
  cases text with
  | nil => simp [pieces]
  | cons x rest =>
    rw [pieces]
    split
    · simp
    · split <;> simp

/-- A separator ends the piece before it. -/
theorem pieces_sep_cons (rest : List α) : pieces sep (sep :: rest) = [] :: pieces sep rest := by
  simp [pieces]

/-- Any other element belongs to the first piece. -/
theorem pieces_cons_of_ne {x : α} (h : x ≠ sep) {rest piece : List α} {more : List (List α)}
    (hrest : pieces sep rest = piece :: more) :
    pieces sep (x :: rest) = (x :: piece) :: more := by
  simp [pieces, h, hrest]

/-- The pieces joined by the separator are the sequence again. -/
theorem intercalate_pieces (text : List α) : [sep].intercalate (pieces sep text) = text := by
  induction text with
  | nil => rfl
  | cons x rest ih =>
    obtain ⟨piece, more, hrest⟩ := List.exists_cons_of_ne_nil (pieces_ne_nil sep rest)
    by_cases hx : x = sep
    · subst hx
      rw [pieces_sep_cons, hrest]
      rw [hrest] at ih
      simpa [List.intercalate] using ih
    · rw [pieces_cons_of_ne hx hrest]
      rw [hrest] at ih
      cases more with
      | nil => simpa [List.intercalate] using ih
      | cons next others => simpa [List.intercalate] using ih

/-- No piece holds the separator. -/
theorem not_mem_of_mem_pieces {text piece : List α} (h : piece ∈ pieces sep text) :
    sep ∉ piece := by
  induction text generalizing piece with
  | nil => simp_all [pieces]
  | cons x rest ih =>
    obtain ⟨first, more, hrest⟩ := List.exists_cons_of_ne_nil (pieces_ne_nil sep rest)
    by_cases hx : x = sep
    · subst hx
      rw [pieces_sep_cons] at h
      rcases List.mem_cons.mp h with rfl | h
      · simp
      · exact ih h
    · rw [pieces_cons_of_ne hx hrest] at h
      rcases List.mem_cons.mp h with rfl | h
      · have hfirst : sep ∉ first := ih (by rw [hrest]; exact List.mem_cons_self)
        simp [Ne.symm hx, hfirst]
      · exact ih (by rw [hrest]; exact List.mem_cons_of_mem _ h)

end NamespaceControl.Text
