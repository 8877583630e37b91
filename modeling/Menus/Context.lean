import Menus.Menu

/-!
# The context of an expansion

What the application reports when a menu is about to be shown: its history, its open documents, its
formats, toolbars and clipboard, the status of every command, and the document the menu is shown
for. An expansion reads a context and never changes one. The status of a command is a function of
its request, so nothing that is proved of expansions depends on how an application keeps it.
-/

namespace Menus

/-- A valid bookmark. -/
structure Bookmark where
  slot : Nat
  path : String
deriving DecidableEq, Repr

/-- A document in the ring of open documents. -/
structure OpenDocument where
  path : String
  /-- Nothing in the document waits to be saved. -/
  clean : Bool := true
deriving DecidableEq, Repr

/-- A file format. -/
structure Format where
  name : String
  prettyName : String
  /-- The accelerator hint; empty for none. -/
  shortcut : String := ""
  /-- A dummy is never listed. -/
  dummy : Bool := false
  /-- Only a format of documents is offered for viewing, updating and exporting. -/
  forDocuments : Bool := true
deriving DecidableEq, Repr

/-- A type of floats, with the names of one float and of their list. -/
structure FloatType where
  kind : String
  name : String
  listName : String
deriving DecidableEq, Repr

/-- An inset layout of some family. -/
structure InsetLayout where
  name : String
  family : String
deriving DecidableEq, Repr

/-- A toolbar. -/
structure Toolbar where
  name : String
  prettyName : String
  /-- The toolbar shows and hides itself. -/
  auto : Bool := false
  visible : Bool := false
deriving DecidableEq, Repr

/-- A line of a table of contents. A smaller depth is closer to the top; depths are signed 32-bit
numbers and otherwise arbitrary. -/
structure Heading where
  depth : Int
  text : String
  request : Request
deriving DecidableEq, Repr

/-- A list of the contents: the headings, or the floats of one type. -/
structure ContentsList where
  kind : String
  items : List Heading
deriving DecidableEq, Repr

/-- The document a menu is shown for. -/
structure Document where
  contents : List ContentsList := []
  floatTypes : List FloatType := []
  insetLayouts : List InsetLayout := []
  branches : List String := []
  /-- The formats the document can be written in; with the flag, those that can also be viewed. -/
  exportable : Bool → List Format := fun _ => []
  /-- For a part of a larger document, the request that leads there. -/
  master : Option Request := none

/-- Everything an expansion asks the application. -/
structure Context where
  statusOf : Request → Status
  home : String := ""
  lastFiles : List String := []
  bookmarks : List Bookmark := []
  documents : List OpenDocument := []
  importable : List Format := []
  toolbars : List Toolbar := []
  selections : List String := []
  document : Option Document := none

end Menus
