import Menus.Entry
import Menus.Token
import Menus.Text.Comparison

/-!
# Keywords and productions

A word is a keyword only where the production being read says so. Each production has a name, which
diagnostics show, and a table of spellings. A quoted token is no keyword in any production, and the
case of ASCII letters does not matter.
-/

namespace Menus

/-- What a keyword announces. -/
inductive Keyword where
  /-- Another definition file, to be read in place. -/
  | inclusion
  /-- A block of menus. -/
  | menuset
  /-- A block of toolbars, which holds no menus. -/
  | toolbarset
  /-- One toolbar. -/
  | toolbar
  /-- The menubar. -/
  | menubar
  /-- A named menu. -/
  | menu
  /-- A command. -/
  | item (optional : Bool)
  /-- A reference to a named menu. -/
  | submenu (optional : Bool)
  /-- A line between groups. -/
  | separator
  /-- A generated list. -/
  | generated (generator : Generator)
  /-- The end of what the production reads. -/
  | close
deriving DecidableEq, Repr

/-- A production: its name and the spellings of its keywords. -/
structure Production where
  name : String
  keywords : List (String × Keyword)
deriving Repr

namespace Production

/-- The keyword a word spells here. -/
def find? (production : Production) (word : String) : Option Keyword :=
  (production.keywords.find? fun pair => Text.sameIgnoringCase pair.1 word).map Prod.snd

/-- The keyword a token is here. -/
def keyword? (production : Production) (token : Token) : Option Keyword :=
  if token.isQuoted then none else production.find? token.text

/-- A token that is no keyword here can be the argument of one. -/
def takesArgument (production : Production) (token : Token) : Bool :=
  (production.keyword? token).isNone

/-- The body of a menu. -/
def menuBody : Production where
  name := "menu"
  keywords := [
    ("bookmarks", .generated .bookmarks),
    ("branches", .generated .branches),
    ("charstyles", .generated (.insets "charstyle")),
    ("custom", .generated (.insets "custom")),
    ("documents", .generated .documents),
    ("elements", .generated (.insets "element")),
    ("end", .close),
    ("exportformats", .generated (.formats .exporting)),
    ("floatinsert", .generated .floats),
    ("floatlistinsert", .generated .floatLists),
    ("importformats", .generated (.formats .importing)),
    ("item", .item false),
    ("lastfiles", .generated .lastFiles),
    ("optitem", .item true),
    ("optsubmenu", .submenu true),
    ("pasterecent", .generated .pasteRecent),
    ("separator", .separator),
    ("submenu", .submenu false),
    ("toc", .generated .contents),
    ("toolbars", .generated .toolbars),
    ("updateformats", .generated (.formats .updating)),
    ("viewformats", .generated (.formats .viewing))]

/-- A block of menus. -/
def menuset : Production where
  name := "menuset"
  keywords := [("end", .close), ("menu", .menu), ("menubar", .menubar)]

/-- A definition text that stands alone. -/
def definition : Production where
  name := "definition"
  keywords := [("menuset", .menuset)]

/-- A definition file. -/
def file : Production where
  name := "ui file"
  keywords := [("include", .inclusion), ("menuset", .menuset), ("toolbarset", .toolbarset)]

/-- A block of toolbars. -/
def toolbarset : Production where
  name := "toolbarset"
  keywords := [("end", .close), ("toolbar", .toolbar)]

/-- A toolbar. -/
def toolbar : Production where
  name := "toolbar"
  keywords := [("end", .close)]

end Production

end Menus
