import Menus.Toml.Assembly
import Menus.Toml.Quoted
import Menus.Toml.Scalar

/-!
# Reading TOML documents

A document is read in the form of TOML 1.1: tables in braces may extend over several lines and end
in a comma, and seconds may be left out of times. Every reader here takes a text and returns what it
has read and what follows, or nothing when the text does not start with such a part.

A value without quotes or brackets is all of the text that can belong to it, blanks between its
words included, and is then judged as one.

Bracketed values nest up to eighty levels, and a dotted key has up to eighty parts; a document that
goes further is refused. Besides, the readers count down from the length of the document, which no
number of items can exceed.
-/

namespace Menus.Toml

/-- The text behind blanks, line ends and comments. -/
def skipTrivia : List Char → List Char
  | [] => []
  | c :: rest =>
    if isLineBlank c || c == '\n' then skipTrivia rest
    else if c = '#' then skipTrivia (rest.dropWhile fun c => !isControl c)
    else if c = '\r' ∧ rest.head? = some '\n' then skipTrivia rest
    else c :: rest
termination_by text => text.length
decreasing_by
  · exact Nat.lt_succ_self _
  · exact Nat.lt_succ_of_le (List.dropWhile_sublist (l := rest) fun c => !isControl c).length_le
  · exact Nat.lt_succ_self _

/-- The text of the next line, if nothing but blanks and a comment is left of this one. -/
def nextLine? (text : List Char) : Option (List Char) :=
  let text := skipBlanks text
  let text :=
    match text with
    | '#' :: comment => comment.dropWhile fun c => !isControl c
    | _ => text
  if text.isEmpty then some [] else afterLineEnd? text

/-- The characters of a key without quotes. -/
def isKeyChar (c : Char) : Bool := c.isAlphanum || c == '_' || c == '-'

/-- One part of a key. A quoted one stands on one line. -/
def keyPart? (text : List Char) : Option (String × List Char) :=
  match text with
  | '"' :: rest =>
    (oneLine? '"' true rest).map fun (key, rest) => (String.ofList key, rest)
  | '\'' :: rest =>
    (oneLine? '\'' false rest).map fun (key, rest) => (String.ofList key, rest)
  | _ =>
    let key := text.takeWhile isKeyChar
    if key.isEmpty then none else some (String.ofList key, text.drop key.length)

/-- The most levels of brackets around a value, and the most parts of a key. -/
def depthLimit : Nat := 80

/-- The parts of a dotted key, the last one apart, and what follows the blanks behind it. There are
at most as many parts as the given number. -/
def key? : Nat → List Char → Option ((List String × String) × List Char)
  | 0, _ => none
  | parts + 1, text =>
    match keyPart? text with
    | none => none
    | some (part, rest) =>
      match skipBlanks rest with
      | '.' :: more =>
        (key? parts (skipBlanks more)).map fun ((path, last), rest) => ((part :: path, last), rest)
      | rest => some (([], part), rest)

/-- The characters of the words of values without quotes or brackets. -/
def isScalarChar (c : Char) : Bool :=
  !isLineBlank c && !"\r\n=,[]\x7b\x7d#".toList.contains c

/-- The words ahead on a line with the blanks between and behind them. A quote ends them where a
word would begin; `afterBlank` tells whether one would begin here. -/
def wordsAhead (afterBlank : Bool) : List Char → List Char
  | [] => []
  | c :: rest =>
    if isLineBlank c then c :: wordsAhead true rest
    else if isScalarChar c && !(afterBlank && (c == '"' || c == '\'')) then
      c :: wordsAhead false rest
    else []

/-- The text of a value without quotes or brackets: all words ahead, with the blanks between them
but not those behind the last one. -/
def scalarAhead (text : List Char) : List Char :=
  ((wordsAhead false text).reverse.dropWhile isLineBlank).reverse

/-- A value without quotes or brackets. -/
def bare? (text : List Char) : Option (Value × List Char) :=
  let shown := scalarAhead text
  (scalar? shown).map fun value => (value, text.drop shown.length)

mutual

/-- A value with at most `levels` levels of brackets. -/
def value? : Nat → Nat → List Char → Option (Value × List Char)
  | 0, _, _ => none
  | fuel + 1, levels, text =>
    match levels, text with
    | levels + 1, '[' :: rest =>
      (items? fuel levels rest).map fun (items, rest) => (.list items, rest)
    | levels + 1, '\x7b' :: rest =>
      (fields? fuel levels [] rest).map fun (parts, rest) => (.table (fieldsOf parts), rest)
    | _, '"' :: _ => (quoted? text).map fun (shown, rest) => (.text shown, rest)
    | _, '\'' :: _ => (quoted? text).map fun (shown, rest) => (.text shown, rest)
    | _, _ => bare? text

/-- The items of a list up to its closing bracket. -/
def items? : Nat → Nat → List Char → Option (List Value × List Char)
  | 0, _, _ => none
  | fuel + 1, levels, text =>
    match skipTrivia text with
    | ']' :: rest => some ([], rest)
    | text =>
      match value? fuel levels text with
      | none => none
      | some (item, rest) =>
        match skipTrivia rest with
        | ',' :: rest => (items? fuel levels rest).map fun (items, rest) => (item :: items, rest)
        | ']' :: rest => some ([item], rest)
        | _ => none

/-- The fields of a table in braces, up to its closing brace. Lines may end around all parts of a
field, but not inside its key. -/
def fields? : Nat → Nat → Parts → List Char → Option (Parts × List Char)
  | 0, _, _, _ => none
  | fuel + 1, levels, parts, text =>
    match skipTrivia text with
    | '\x7d' :: rest => some (parts, rest)
    | text =>
      match key? depthLimit text with
      | none => none
      | some ((path, key), rest) =>
        match skipTrivia rest with
        | '=' :: rest =>
          match value? fuel levels (skipTrivia rest) with
          | none => none
          | some (value, rest) =>
            match Parts.insert? key (.closed value) path parts, skipTrivia rest with
            | some parts, ',' :: rest => fields? fuel levels parts rest
            | some parts, '\x7d' :: rest => some (parts, rest)
            | _, _ => none
        | _ => none

end

/-- The lines of a document, put together with what is known already; `table` is the header of the
table that takes the keys. -/
def lines? : Nat → Parts → List String → List Char → Option Parts
  | 0, _, _, _ => none
  | fuel + 1, parts, table, text =>
    match nextLine? text with
    | some [] => some parts
    | some rest => lines? fuel parts table rest
    | none =>
      match skipBlanks text with
      | '[' :: '[' :: rest =>
        match key? depthLimit (skipBlanks rest) with
        | some ((path, key), ']' :: ']' :: rest) =>
          match Parts.under? (Parts.beginElement? key) path parts, nextLine? rest with
          | some parts, some rest => lines? fuel parts (path ++ [key]) rest
          | _, _ => none
        | _ => none
      | '[' :: rest =>
        match key? depthLimit (skipBlanks rest) with
        | some ((path, key), ']' :: rest) =>
          match Parts.under? (Parts.beginTable? key) path parts, nextLine? rest with
          | some parts, some rest => lines? fuel parts (path ++ [key]) rest
          | _, _ => none
        | _ => none
      | text =>
        match key? depthLimit text with
        | some ((path, key), '=' :: rest) =>
          match value? fuel depthLimit (skipBlanks rest) with
          | none => none
          | some (value, rest) =>
            match Parts.under? (Parts.insert? key (.closed value) path) table parts,
              nextLine? rest with
            | some parts, some rest => lines? fuel parts table rest
            | _, _ => none
        | _ => none

/-- The table a document denotes. A byte order mark at its start does not count. -/
def read? (text : String) : Option Fields :=
  let content :=
    match text.toList with
    | '\ufeff' :: rest => rest
    | all => all
  (lines? (content.length + 2) [] [] content).map fieldsOf

end Menus.Toml
