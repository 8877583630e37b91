import Menus.Json
import Menus.Rendering.Tree

/-!
# Menus as records

The machine-readable form of an expanded menu: a record for each entry. Fields that say nothing are
left out, except whether the entry is enabled.
-/

namespace Menus

/-- An entry as a record. -/
structure EntryView where
  kind : String
  label : String
  shortcut : String
  command : Option String
  binding : String
  enabled : Bool
  checked : Option Bool
  entries : List EntryView := []

/-- The word for what an entry is. -/
def Entry.kindWord (entry : Entry Menu) : String :=
  if entry.isSeparator then "separator" else if entry.isSubmenu then "submenu" else "command"

/-- The record of an entry whose submenu shows the given entries. -/
def Entry.view (bindingsOf : Request → List String) (entry : Entry Menu)
    (entries : List EntryView) : EntryView where
  kind := entry.kindWord
  label := entry.text
  shortcut := entry.shortcut
  command := entry.request?.map Request.display
  binding := Row.binding bindingsOf entry
  enabled := entry.status.isEnabled
  checked := entry.status.checked
  entries := entries

mutual

/-- The records of a menu. -/
def Menu.view (bindingsOf : Request → List String) : Menu → List EntryView
  | ⟨_, entries⟩ => viewsOf bindingsOf entries

/-- The records of a run of entries. -/
def viewsOf (bindingsOf : Request → List String) : List (Entry Menu) → List EntryView
  | [] => []
  | ⟨.submenu name (some child), label, optional, status⟩ :: rest =>
    Entry.view bindingsOf ⟨.submenu name (some child), label, optional, status⟩
        (child.view bindingsOf) ::
      viewsOf bindingsOf rest
  | entry :: rest => entry.view bindingsOf [] :: viewsOf bindingsOf rest

end

/-- A field for a text that is not empty. -/
def textField (name text : String) : List (String × Json) :=
  if text.isEmpty then [] else [(name, .text text)]

mutual

/-- A record as JSON. -/
def EntryView.toJson : EntryView → Json
  | ⟨kind, label, shortcut, command, binding, enabled, checked, entries⟩ =>
    let below := EntryView.listToJson entries
    .record
      ([("kind", .text kind)] ++ textField "label" label ++ textField "shortcut" shortcut ++
        (command.map fun text => ("command", Json.text text)).toList ++
        textField "binding" binding ++ [("enabled", .truth enabled)] ++
        (checked.map fun state => ("checked", Json.truth state)).toList ++
        if below.isEmpty then [] else [("entries", .list below)])

/-- Records as JSON. -/
def EntryView.listToJson : List EntryView → List Json
  | [] => []
  | view :: rest => view.toJson :: EntryView.listToJson rest

end

/-- The records of a menu as JSON. -/
def Menu.toJson (bindingsOf : Request → List String) (menu : Menu) : Json :=
  .list (EntryView.listToJson (menu.view bindingsOf))

end Menus
