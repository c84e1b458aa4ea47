import EntitySchema.Text.Blank

/-! # Cutting a text in two

A text is cut at the first occurrence of a mark: what stands before it, and what stands after it if
the mark occurs. Splitting at every occurrence is the standard `List.splitOn`. -/

namespace EntitySchema.Text

/-- The text before the first `mark`, and the text after it when there is one. -/
def cutAt (mark : Char) : Text → Text × Option Text
  | [] => ([], none)
  | c :: rest =>
    if c = mark then ([], some rest)
    else
      let (before, after) := cutAt mark rest
      (c :: before, after)

/-- The text before the first arrow `->`, and the text after it when there is one. -/
def cutAtArrow : Text → Text × Option Text
  | [] => ([], none)
  | '-' :: '>' :: rest => ([], some rest)
  | c :: rest =>
    let (before, after) := cutAtArrow rest
    (c :: before, after)

@[simp] theorem cutAt_nil (mark : Char) : cutAt mark [] = ([], none) := rfl

@[simp] theorem cutAt_self (mark : Char) (rest : Text) :
    cutAt mark (mark :: rest) = ([], some rest) := by
  simp [cutAt]

theorem cutAt_of_ne {mark c : Char} (h : c ≠ mark) (rest : Text) :
    cutAt mark (c :: rest) = (c :: (cutAt mark rest).1, (cutAt mark rest).2) := by
  simp [cutAt, h]

@[simp] theorem cutAtArrow_nil : cutAtArrow [] = ([], none) := rfl

@[simp] theorem cutAtArrow_arrow (rest : Text) :
    cutAtArrow ('-' :: '>' :: rest) = ([], some rest) := rfl

end EntitySchema.Text
