import Menus.Entry
import Menus.Rendering.Style

/-!
# Menus as trees of lines

An expanded menu is printed as a tree. `Menu.rows` lays the entries out, each with the rails that
lead to it: for every submenu around it, whether that submenu is the last of its menu. A row is then
written on its own, so what is shown of an entry and where it stands are independent. Texts are copied
as they are: an entry takes one line unless a text of it has a line end.
-/

namespace Menus

/-- What the printed tree shows. -/
structure DisplayOptions where
  /-- The key binding of each command. -/
  bindings : Bool := false
  /-- The request of each command. -/
  commands : Bool := false
  /-- How many levels of submenus are opened; no limit when missing. -/
  depth : Option Nat := none
  /-- Styles of a terminal. -/
  styled : Bool := false

/-- An entry laid out in a tree. -/
structure Row where
  /-- For each submenu around the entry, outermost first: it is the last of its menu. -/
  rails : List Bool
  /-- The entry is the last of its menu. -/
  last : Bool
  entry : Entry Menu

/-- A submenu with the given rails is opened. -/
def opensAt (limit : Option Nat) (rails : List Bool) : Bool :=
  match limit with
  | none => true
  | some limit => decide (rails.length < limit)

mutual

/-- The entries of a menu and of the submenus opened below it, in display order. -/
def Menu.rows (limit : Option Nat) (rails : List Bool) : Menu → List Row
  | ⟨_, entries⟩ => rowsOf limit rails entries

/-- The rows of a run of entries that ends its menu. -/
def rowsOf (limit : Option Nat) (rails : List Bool) : List (Entry Menu) → List Row
  | [] => []
  | ⟨.submenu name (some child), label, optional, status⟩ :: rest =>
    ⟨rails, rest.isEmpty, ⟨.submenu name (some child), label, optional, status⟩⟩ ::
      ((if opensAt limit rails then child.rows limit (rails ++ [rest.isEmpty]) else []) ++
        rowsOf limit rails rest)
  | entry :: rest => ⟨rails, rest.isEmpty, entry⟩ :: rowsOf limit rails rest

end

namespace Row

/-- What is drawn in front of an entry. -/
def drawing (row : Row) : String :=
  String.join (row.rails.map fun last => if last then "   " else "│  ") ++
    if row.last then "└─" else "├─"

/-- An entry in words: its state, its label, its hint, and a mark if it opens a menu. -/
def caption (entry : Entry Menu) : String :=
  let state :=
    match entry.status.checked with
    | some true => "[x] "
    | some false => "[ ] "
    | none => ""
  let hint := if entry.shortcut.isEmpty then "" else s!" ({entry.shortcut})"
  state ++ entry.text ++ hint ++ if entry.isSubmenu then " ▸" else ""

/-- The first key sequence bound to an entry, or nothing. -/
def binding (bindingsOf : Request → List String) (entry : Entry Menu) : String :=
  match entry.request? with
  | some request => ((bindingsOf request).head?).getD ""
  | none => ""

/-- What is shown of an entry. A submenu stands out, and what cannot be used recedes. -/
def content (bindingsOf : Request → List String) (options : DisplayOptions)
    (entry : Entry Menu) : String :=
  if entry.isSeparator then Style.dimmed.paint options.styled "────────"
  else
    let caption :=
      if entry.isSubmenu then Style.bold.paint options.styled (caption entry)
      else if entry.status.isEnabled then caption entry
      else Style.dimmed.paint options.styled (caption entry)
    let command :=
      match options.commands, entry.request? with
      | true, some request => Style.cyan.paint options.styled s!"  {request.display}"
      | _, _ => ""
    let keys := binding bindingsOf entry
    let bound :=
      if options.bindings && !keys.isEmpty then Style.yellow.paint options.styled s!"  [{keys}]"
      else ""
    caption ++ command ++ bound

/-- The line of a row, with its line end. -/
def line (bindingsOf : Request → List String) (options : DisplayOptions) (row : Row) : String :=
  row.drawing ++ content bindingsOf options row.entry ++ "\n"

end Row

/-- The printed tree of a menu. -/
def Menu.render (bindingsOf : Request → List String) (options : DisplayOptions) (menu : Menu) :
    String :=
  String.join ((menu.rows options.depth []).map (Row.line bindingsOf options))

end Menus
