/-!
# Elided text

A text too long for its place loses characters, and `...` stands where they were: at the end of a
heading, in the middle of a file name. Lengths count characters, not bytes.
-/

namespace Menus.Text

/-- What stands for omitted characters. -/
def ellipsis : List Char := ['.', '.', '.']

/-- Keeps the text if it has at most `limit` characters, and otherwise as much of its beginning as
leaves room for the ellipsis. -/
def elideEnd (limit : Nat) (text : List Char) : List Char :=
  if text.length ≤ limit then text else text.take (limit - ellipsis.length) ++ ellipsis

/-- Keeps the text if it has at most `limit` characters, and otherwise the beginning and the end
that leave room for the ellipsis between them. When the room is odd the beginning gets the larger
half. -/
def elideMiddle (limit : Nat) (text : List Char) : List Char :=
  if text.length ≤ limit then text
  else
    let room := limit - ellipsis.length
    let head := (room + 1) / 2
    let tail := room - head
    text.take head ++ ellipsis ++ text.drop (text.length - tail)

/-- Wherever the ellipsis itself fits, so does the elided text. -/
theorem length_elideEnd_le (limit : Nat) (text : List Char) (roomy : 3 ≤ limit) :
    (elideEnd limit text).length ≤ limit := by
  unfold elideEnd
  split
  · assumption
  · simp only [List.length_append, List.length_take, ellipsis, List.length_cons, List.length_nil]
    omega

/-- A text longer than the limit takes exactly the room it has. -/
theorem length_elideMiddle (limit : Nat) (text : List Char) (roomy : 3 ≤ limit)
    (long : limit < text.length) : (elideMiddle limit text).length = limit := by
  have notShort : ¬ text.length ≤ limit := by omega
  simp only [elideMiddle, notShort, if_false, List.length_append, List.length_take,
    List.length_drop, ellipsis, List.length_cons, List.length_nil]
  omega

end Menus.Text
