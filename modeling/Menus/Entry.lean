import Menus.Request
import Menus.Status

/-!
# Menus and their entries

A menu is an ordered, named list of entries. The same type serves twice. In a template an entry has
the status of a command nobody has asked about, a submenu refers to its menu by name only, and a
`generated` entry stands for a list that depends on the context. In an expanded menu every entry is
a command, a separator or a submenu with its menu attached.

A label is display text, optionally followed by `|` and an accelerator hint; a second `|` ends the
hint. Both views of a label are functions of it, so nothing is stored twice.
-/

namespace Menus

/-- What a list of formats is offered for. -/
inductive FormatUse where
  | viewing
  | updating
  | exporting
  | importing
deriving DecidableEq, Repr

/-- The lists that are generated from the context. -/
inductive Generator where
  /-- Recently opened files. -/
  | lastFiles
  /-- The ring of open documents. -/
  | documents
  /-- Valid bookmarks. -/
  | bookmarks
  /-- The contents of the current document. -/
  | contents
  /-- The formats of one use. -/
  | formats (purpose : FormatUse)
  /-- The inset layouts of one family. -/
  | insets (family : String)
  /-- A list of floats for each float type. -/
  | floatLists
  /-- A float of each type. -/
  | floats
  /-- The clipboard history. -/
  | pasteRecent
  /-- Switches that show or hide a toolbar. -/
  | toolbars
  /-- The branches of the document. -/
  | branches
deriving DecidableEq, Repr

/-- What an entry stands for; `μ` is the type of menus a submenu opens. -/
inductive Kind (μ : Type) where
  /-- Runs an action. -/
  | command (request : Request)
  /-- Opens the menu called `name`. A template attaches no child. -/
  | submenu (name : String) (child : Option μ)
  /-- A line between groups of entries. -/
  | separator
  /-- Replaced by generated commands when the menu is expanded. -/
  | generated (generator : Generator)

/-- One line of a menu; `μ` is the type of menus a submenu opens. An optional entry is dropped where
it could not be used. -/
structure Entry (μ : Type) where
  kind : Kind μ
  label : String := ""
  optional : Bool := false
  status : Status := {}

/-- A named list of entries in display order. The menubar has the empty name. -/
structure Menu where
  name : String
  entries : List (Entry Menu) := []

instance : Inhabited Menu := ⟨⟨"", []⟩⟩

namespace Entry

/-- A template line that runs a command. -/
def command (label : String) (request : Request) : Entry Menu :=
  { kind := .command request, label }

/-- A template line that opens the menu called `name`. -/
def submenu (label name : String) : Entry Menu :=
  { kind := .submenu name none, label }

/-- A line between groups. It has no label. -/
def separator : Entry Menu := { kind := .separator }

/-- A command that is known to run. -/
def enabledCommand (label : String) (request : Request) : Entry Menu :=
  { command label request with status := .enabled }

/-- A line that does nothing and cannot be chosen, shown where a list has no content. -/
def placeholder (label : String) : Entry Menu :=
  { command label .noAction with status := .disabled }

/-- An expanded submenu; its name is the name of its child, its status given by the caller. -/
def opened (label : String) (child : Menu) (status : Status) : Entry Menu :=
  { kind := .submenu child.name (some child), label, status }

/-- The label up to its first bar. -/
def text (entry : Entry Menu) : String :=
  String.ofList (entry.label.toList.takeWhile (· ≠ '|'))

/-- The accelerator hint: what stands between the first bar and the second, or the end. It is
empty when the label has no bar. -/
def shortcut (entry : Entry Menu) : String :=
  String.ofList (((entry.label.toList.dropWhile (· ≠ '|')).drop 1).takeWhile (· ≠ '|'))

/-- The request of a command. -/
def request? (entry : Entry Menu) : Option Request :=
  match entry.kind with
  | .command request => some request
  | _ => none

/-- The name of the menu a submenu opens. -/
def target? (entry : Entry Menu) : Option String :=
  match entry.kind with
  | .submenu name _ => some name
  | _ => none

/-- The menu attached to a submenu. -/
def child? (entry : Entry Menu) : Option Menu :=
  match entry.kind with
  | .submenu _ child => child
  | _ => none

/-- Attaches a menu to a submenu; other entries stay as they are. -/
def withChild (entry : Entry Menu) (child : Menu) : Entry Menu :=
  match entry.kind with
  | .submenu name _ => { entry with kind := .submenu name (some child) }
  | _ => entry

/-- The entry runs an action. -/
def isCommand (entry : Entry Menu) : Bool := entry.request?.isSome

/-- The entry opens a menu. -/
def isSubmenu (entry : Entry Menu) : Bool := entry.target?.isSome

/-- The entry divides groups. -/
def isSeparator (entry : Entry Menu) : Bool :=
  match entry.kind with
  | .separator => true
  | _ => false

/-- The entry stands for a generated list. -/
def isGenerated (entry : Entry Menu) : Bool :=
  match entry.kind with
  | .generated _ => true
  | _ => false

end Entry

end Menus
