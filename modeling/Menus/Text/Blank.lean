/-!
# Blank characters

Words of a definition text and of a command string are separated by blanks: the characters of
the Unicode property `White_Space`. The zero-width space, the byte order mark and the
information separators U+001C to U+001F are not among them, so each of those can stand in a word.
-/

namespace Menus.Text

/-- The characters of the Unicode property `White_Space`. -/
def isBlank (c : Char) : Bool :=
  let code := c.toNat
  (0x09 ≤ code && code ≤ 0x0D) || code == 0x20 || code == 0x85 || code == 0xA0 ||
    code == 0x1680 || (0x2000 ≤ code && code ≤ 0x200A) || code == 0x2028 || code == 0x2029 ||
    code == 0x202F || code == 0x205F || code == 0x3000

/-- Every blank of ASCII is in the set, so no text that separates words by plain spaces, tabs or
line ends is read as one word. -/
theorem isBlank_of_isWhitespace (c : Char) (ascii : c.isWhitespace = true) : isBlank c = true := by
  simp only [Char.isWhitespace, Bool.or_eq_true, decide_eq_true_eq] at ascii
  rcases ascii with ((rfl | rfl) | rfl) | rfl <;> decide

/-- The text without its leading blanks. -/
def trimStart (text : List Char) : List Char :=
  text.dropWhile isBlank

/-- The text without its trailing blanks. -/
def trimEnd (text : List Char) : List Char :=
  (text.reverse.dropWhile isBlank).reverse

/-- The text without the blanks at its ends. -/
def trim (text : List Char) : List Char :=
  trimEnd (trimStart text)

/-- The characters before the first blank. -/
def firstWord (text : List Char) : List Char :=
  text.takeWhile fun c => !isBlank c

/-- What follows the first word and the blanks after it. -/
def afterFirstWord (text : List Char) : List Char :=
  trimStart (text.dropWhile fun c => !isBlank c)

end Menus.Text
