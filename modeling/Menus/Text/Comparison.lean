/-!
# Comparing text

Keywords, accelerator hints, families of layouts and the sort order of formats ignore the case of
ASCII letters and of no others: `É` and `é` stay two characters. A hint belongs to a label when it
occurs in it as a contiguous piece.
-/

namespace Menus.Text

/-- The text with its ASCII capitals written small. -/
def foldCase (text : String) : List Char :=
  text.toList.map Char.toLower

/-- The texts agree when the case of ASCII letters is ignored. -/
def sameIgnoringCase (first second : String) : Bool :=
  foldCase first == foldCase second

/-- One text comes before another: the first difference decides, and of a text and a longer one that
goes on the shorter comes first. -/
def precedes : List Char → List Char → Bool
  | _, [] => false
  | [], _ :: _ => true
  | c :: first, d :: second =>
    if c = d then precedes first second else decide (c.toNat < d.toNat)

/-- The piece stands somewhere in the text, in one run. -/
def occursIn (piece : List Char) : List Char → Bool
  | [] => piece.isEmpty
  | c :: rest => piece.isPrefixOf (c :: rest) || occursIn piece rest

/-- The empty piece occurs in every text. -/
theorem occursIn_nil (text : List Char) : occursIn [] text = true := by
  cases text <;> simp [occursIn]

end Menus.Text
