import Menus.Text.Digits
import Menus.Toml.Value

/-!
# Words of a TOML document

Values written without quotes or brackets: truth values, integers in four bases, other numbers, and
dates and times. Underscores may stand between digits, and one space between a date and a time. A
word that is none of these is refused as a whole.

Whether a word has the form of a number is one question, which number it is another: a word can have
the form without being any number.
-/

namespace Menus.Toml

/-- The words between separators. -/
def wordsBetween (separator : Char) : List Char → List (List Char)
  | [] => [[]]
  | c :: rest =>
    if c = separator then [] :: wordsBetween separator rest
    else
      match wordsBetween separator rest with
      | [] => [[c]]
      | first :: others => (c :: first) :: others

/-- The digits of a base, underscores left out. Each underscore stands between two digits. -/
def digits? (base : Nat) (word : List Char) : Option (List Char) :=
  let groups := wordsBetween '_' word
  if groups.all fun group => !group.isEmpty && group.all (Text.isDigitOf base) then
    some groups.flatten
  else none

/-- Decimal digits of a whole number: a zero leads only where it stands alone. -/
def wholeDigits? (word : List Char) : Option (List Char) :=
  (digits? 10 word).filter fun digits => digits.length == 1 || digits.head? != some '0'

/-- A sign, which may be missing, and what follows it. -/
def splitSign (word : List Char) : Bool × List Char :=
  match word with
  | '+' :: rest => (false, rest)
  | '-' :: rest => (true, rest)
  | _ => (false, word)

/-- The integers that are kept: those of 128 bits, signed or not. -/
def integerFits (value : Int) : Bool :=
  decide (-Int.ofNat (Nat.pow 2 127) ≤ value) && decide (value < Int.ofNat (Nat.pow 2 128))

/-- An integer. Only decimal ones have a sign. -/
def integer? (word : List Char) : Option Int :=
  let unsigned (base : Nat) (rest : List Char) : Option Int :=
    (digits? base rest).map fun digits => Int.ofNat (Text.numberOf base digits)
  match word with
  | '0' :: 'x' :: rest => unsigned 16 rest
  | '0' :: 'o' :: rest => unsigned 8 rest
  | '0' :: 'b' :: rest => unsigned 2 rest
  | _ =>
    let (negative, rest) := splitSign word
    (wholeDigits? rest).map fun digits =>
      let size := Int.ofNat (Text.numberOf 10 digits)
      if negative then -size else size

/-- The word looks like an integer with underscores: digits in front of the first one, and
hexadecimal digits around each. Nothing further is asked of what is between two underscores, except
that a point or an exponent would make another number of it, and that no space stands in it. -/
def looksGrouped (word : List Char) : Bool :=
  let aroundUnderscores (groups : List (List Char)) : Bool :=
    groups.tail.all (fun group => group.head?.any (Text.isDigitOf 16)) &&
      groups.dropLast.all (fun group => group.getLast?.any (Text.isDigitOf 16))
  match wordsBetween '_' (splitSign word).2 with
  | [] => false
  | first :: others =>
    !others.isEmpty && first.all Char.isDigit && first.head?.any (· ≠ '0') &&
      aroundUnderscores (first :: others) &&
      word.all fun c => c ≠ '.' && c ≠ 'e' && c ≠ 'E' && c ≠ ' '

/-- The word has the form of an integer. The mark of a base needs no digits for that. -/
def looksLikeInteger (word : List Char) : Bool :=
  (integer? word).isSome || looksGrouped word ||
    word = ['0', 'x'] || word = ['0', 'o'] || word = ['0', 'b']

/-- The number `digits · 10 ^ exponent` exceeds every double: half a step beyond the largest one it
would already be rounded up. -/
def overflows (digits : List Char) (exponent : Int) : Bool :=
  let significant := digits.dropWhile (· = '0')
  let magnitude := Int.ofNat significant.length + exponent
  if significant.isEmpty || magnitude < 300 then false
  else if magnitude > 320 then true
  else
    let value := Text.numberOf 10 significant
    let edge := Nat.pow 2 1024 - Nat.pow 2 970
    if 0 ≤ exponent then decide (edge ≤ value * Nat.pow 10 exponent.toNat)
    else decide (edge * Nat.pow 10 (-exponent).toNat ≤ value)

/-- The exponent behind its mark. -/
def exponent? (word : List Char) : Option Int :=
  let (negative, rest) := splitSign word
  (digits? 10 rest).map fun digits =>
    let size := Int.ofNat (Text.numberOf 10 digits)
    if negative then -size else size

/-- A number with a fraction, an exponent or both, or one of the words for what is beyond or beside
all numbers. -/
def float? (word : List Char) : Option Value :=
  let rest := (splitSign word).2
  if rest = "inf".toList ∨ rest = "nan".toList then some .float
  else
    let mantissa := rest.takeWhile fun c => c ≠ 'e' && c ≠ 'E'
    let exponent :=
      match rest.drop mantissa.length with
      | [] => some none
      | _ :: written => (exponent? written).map some
    let whole := mantissa.takeWhile (· ≠ '.')
    let fraction :=
      match mantissa.drop whole.length with
      | [] => some none
      | _ :: written => (digits? 10 written).map some
    match wholeDigits? whole, fraction, exponent with
    | some digits, some fraction, some exponent =>
      if fraction.isNone && exponent.isNone then none
      else if overflows (digits ++ fraction.getD [])
          (exponent.getD 0 - Int.ofNat (fraction.getD []).length) then some .unreadable
      else some .float
    | _, _, _ => none

/-- A number of exactly `count` decimal digits. -/
def fixed? (count : Nat) (word : List Char) : Option Nat :=
  if word.length = count ∧ word.all Char.isDigit then some (Text.numberOf 10 word) else none

/-- The days of a month of a year. -/
def daysIn (year month : Nat) : Nat :=
  if month = 2 then
    if year % 4 = 0 ∧ (year % 100 ≠ 0 ∨ year % 400 = 0) then 29 else 28
  else if month = 4 ∨ month = 6 ∨ month = 9 ∨ month = 11 then 30
  else 31

/-- The word is a day of the calendar. -/
def isDate (word : List Char) : Bool :=
  match wordsBetween '-' word with
  | [year, month, day] =>
    match fixed? 4 year, fixed? 2 month, fixed? 2 day with
    | some year, some month, some day =>
      decide (1 ≤ month ∧ month ≤ 12 ∧ 1 ≤ day ∧ day ≤ daysIn year month)
    | _, _, _ => false
  | _ => false

/-- Hours and minutes of a day. -/
def isHourMinute (hour minute : List Char) : Bool :=
  match fixed? 2 hour, fixed? 2 minute with
  | some hour, some minute => decide (hour ≤ 23 ∧ minute ≤ 59)
  | _, _ => false

/-- Seconds, which may be leap seconds and may have a fraction. -/
def isSecond (word : List Char) : Bool :=
  let whole := word.takeWhile (· ≠ '.')
  let fraction := word.drop whole.length
  (match fixed? 2 whole with
    | some second => decide (second ≤ 60)
    | none => false) &&
  (fraction.isEmpty || (decide (1 < fraction.length) && (fraction.drop 1).all Char.isDigit))

/-- The word is a time of day. Seconds may be left out. -/
def isTime (word : List Char) : Bool :=
  match wordsBetween ':' word with
  | [hour, minute] => isHourMinute hour minute
  | [hour, minute, second] => isHourMinute hour minute && isSecond second
  | _ => false

/-- The word is a time of day, possibly with an offset from universal time. -/
def isTimeWithOffset (word : List Char) : Bool :=
  let time := word.takeWhile fun c => c.isDigit || c = ':' || c = '.'
  isTime time &&
    match word.drop time.length with
    | [] => true
    | ['Z'] | ['z'] => true
    | sign :: offset =>
      (sign = '+' || sign = '-') &&
        match wordsBetween ':' offset with
        | [hour, minute] => isHourMinute hour minute
        | _ => false

/-- The word is a date, a time, or a date with a time. -/
def isMoment (word : List Char) : Bool :=
  isDate word || isTime word ||
    (isDate (word.take 10) &&
      match word.drop 10 with
      | mark :: time => (mark = 'T' || mark = 't' || mark = ' ') && isTimeWithOffset time
      | [] => false)

/-- The integer a word denotes, if it is one that is kept. -/
def readInteger (word : List Char) : Value :=
  match (integer? word).filter integerFits with
  | some value => .integer value
  | none => .unreadable

/-- The value a word denotes. -/
def scalar? (word : List Char) : Option Value :=
  if word = "true".toList then some (.boolean true)
  else if word = "false".toList then some (.boolean false)
  else if looksLikeInteger word then some (readInteger word)
  else if isMoment word then some .moment
  else float? word

end Menus.Toml
