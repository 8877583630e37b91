/-!
# Styled text

Terminal styles are written as control sequences around a text. A text that resets the style in its
middle would leave what follows it plain, so the style is put back behind each reset.
-/

namespace Menus

/-- The styles that output uses. -/
inductive Style where
  | bold
  | dimmed
  | cyan
  | yellow
  | green
  | boldYellow
  | boldCyan
deriving DecidableEq, Repr

namespace Style

/-- The sequence that switches a style on. -/
def code : Style → List Char
  | bold => "\x1b[1m".toList
  | dimmed => "\x1b[2m".toList
  | cyan => "\x1b[36m".toList
  | yellow => "\x1b[33m".toList
  | green => "\x1b[32m".toList
  | boldYellow => "\x1b[1;33m".toList
  | boldCyan => "\x1b[1;36m".toList

/-- The sequence that switches all styles off. -/
def reset : List Char := "\x1b[0m".toList

/-- The text with the style put back behind each reset. -/
def resume (style : Style) : List Char → List Char
  | '\x1b' :: '[' :: '0' :: 'm' :: rest => reset ++ style.code ++ resume style rest
  | c :: rest => c :: resume style rest
  | [] => []

/-- The text in a style, if styles are wanted. -/
def paint (style : Style) (wanted : Bool) (text : String) : String :=
  if wanted then String.ofList (style.code ++ style.resume text.toList ++ reset) else text

/-- The text in a style, followed by the blanks that fill it up to a width. The blanks are styled
too. -/
def paintPadded (style : Style) (wanted : Bool) (width : Nat) (text : String) : String :=
  let shown := if wanted then style.resume text.toList else text.toList
  let padded := shown ++ List.replicate (width - shown.length) ' '
  String.ofList (if wanted then style.code ++ padded ++ reset else padded)

/-- Without styles a text is printed as it is. -/
@[simp] theorem paint_false (style : Style) (text : String) : style.paint false text = text := rfl

end Style

end Menus
