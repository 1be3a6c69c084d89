/-! Cutting a list at its separators. The pieces between separators, put together again with the
separators, are the list; there is always one piece more than there are separators. -/

namespace LiveHighlight

variable {α : Type}

/-- The pieces between the elements that satisfy `stop`, empty ones included. -/
def pieces (stop : α → Bool) : List α → List (List α)
  | [] => [[]]
  | a :: as =>
    if stop a then [] :: pieces stop as
    else
      match pieces stop as with
      | [] => [[a]]
      | piece :: rest => (a :: piece) :: rest

theorem pieces_ne_nil (stop : α → Bool) (as : List α) : pieces stop as ≠ [] := by
  cases as with
  | nil => simp [pieces]
  | cons a as =>
    simp only [pieces]
    split
    · simp
    · split <;> simp

theorem length_pieces (stop : α → Bool) (as : List α) :
    (pieces stop as).length = as.countP stop + 1 := by
  induction as with
  | nil => simp [pieces]
  | cons a as ih =>
    simp only [pieces]
    split
    · next h => simp [h, ih]
    · next h =>
      split
      · next hnil => exact absurd hnil (pieces_ne_nil stop as)
      · next hcons =>
        rw [hcons] at ih
        simpa [h] using ih

/-- A separator ends a piece whatever stands around it. -/
theorem pieces_append_cons (stop : α → Bool) (as bs : List α) (a : α) (h : stop a = true) :
    pieces stop (as ++ a :: bs) = pieces stop as ++ pieces stop bs := by
  induction as with
  | nil => simp [pieces, h]
  | cons x as ih =>
    simp only [List.cons_append, pieces, ih]
    split
    · rfl
    · cases hp : pieces stop as with
      | nil => exact absurd hp (pieces_ne_nil stop as)
      | cons piece rest => rfl

end LiveHighlight
