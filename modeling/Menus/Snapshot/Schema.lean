import Menus.Snapshot
import Menus.Toml.Decoding
import Menus.Toml.Document

/-!
# Snapshots as TOML

The names under which a snapshot's parts stand in a TOML document. Everything may be left out except
what a part is about: a bookmark needs its slot and path, a format its two names.
-/

namespace Menus

open Toml

namespace Schema

/-- The words for availability. -/
def availability? : Decoder Availability :=
  word? [("Unknown", .unknown), ("Enabled", .enabled), ("Disabled", .disabled)]

/-- The words for the origin of a request. -/
def origin? : Decoder Origin :=
  word? [("Internal", .internal), ("Menu", .menu), ("Toolbar", .toolbar), ("Keyboard", .keyboard)]

/-- A bookmark. -/
def bookmark? : Decoder Bookmark := fun value => do
  let record ← Record.ofValue? ["slot", "path"] value
  return ⟨← record.required? 0 natural?, ← record.required? 1 text?⟩

/-- An open document. -/
def openDocument? : Decoder OpenDocument := fun value => do
  let record ← Record.ofValue? ["path", "clean"] value
  return ⟨← record.required? 0 text?, ← record.field? 1 boolean? true⟩

/-- A format. -/
def format? : Decoder Format := fun value => do
  let record ←
    Record.ofValue? ["name", "pretty_name", "shortcut", "dummy", "document_format"] value
  return ⟨← record.required? 0 text?, ← record.required? 1 text?, ← record.field? 2 text? "",
    ← record.field? 3 boolean? false, ← record.field? 4 boolean? true⟩

/-- A float type. -/
def floatType? : Decoder FloatType := fun value => do
  let record ← Record.ofValue? ["type", "name", "list_name"] value
  return ⟨← record.required? 0 text?, ← record.required? 1 text?, ← record.required? 2 text?⟩

/-- An inset layout. -/
def insetLayout? : Decoder InsetLayout := fun value => do
  let record ← Record.ofValue? ["name", "family"] value
  return ⟨← record.required? 0 text?, ← record.required? 1 text?⟩

/-- A toolbar. -/
def toolbar? : Decoder Toolbar := fun value => do
  let record ← Record.ofValue? ["name", "gui_name", "auto", "visible"] value
  return ⟨← record.required? 0 text?, ← record.required? 1 text?, ← record.field? 2 boolean? false,
    ← record.field? 3 boolean? false⟩

/-- A request. -/
def request? : Decoder Request := fun value => do
  let record ← Record.ofValue? ["action", "argument", "origin"] value
  return ⟨← record.required? 0 text?, ← record.field? 1 text? "",
    ← record.field? 2 origin? .internal⟩

/-- A line of the contents. -/
def heading? : Decoder Heading := fun value => do
  let record ← Record.ofValue? ["depth", "text", "action"] value
  return ⟨← record.required? 0 signed?, ← record.required? 1 text?, ← record.required? 2 request?⟩

/-- A list of the contents. -/
def contentsList? : Decoder ContentsList := fun value => do
  let record ← Record.ofValue? ["kind", "items"] value
  return ⟨← record.required? 0 text?, ← record.required? 1 (list? heading?)⟩

/-- The statuses of commands. -/
def actionTable? : Decoder ActionTable := fun value => do
  let record ← Record.ofValue? ["default", "enabled", "disabled", "unknown", "checked"] value
  return {
    fallback := ← record.field? 0 availability? .enabled
    enabled := ← record.field? 1 (list? text?) []
    disabled := ← record.field? 2 (list? text?) []
    unknown := ← record.field? 3 (list? text?) []
    checked := ← record.field? 4 (list? text?) [] }

/-- A document. -/
def document? : Decoder DocumentSnapshot := fun value => do
  let record ←
    Record.ofValue? ["toc", "float_types", "inset_layouts", "branches", "export_formats",
      "viewable", "master"] value
  return {
    contents := ← record.field? 0 (list? contentsList?) []
    floatTypes := ← record.field? 1 (list? floatType?) []
    insetLayouts := ← record.field? 2 (list? insetLayout?) []
    branches := ← record.field? 3 (list? text?) []
    exportFormats := ← record.field? 4 (list? format?) []
    viewable := ← record.field? 5 (list? text?) []
    master := ← record.field? 6 (fun value => (text? value).map some) none }

/-- Key bindings, in the order of their names. -/
def bindings? : Decoder Bindings := fun value => do
  let bindings ← mapping? (list? text?) value
  return bindings.mergeSort fun first second => decide (first.1 ≤ second.1)

end Schema

open Schema in
/-- The snapshot a document describes. -/
def Snapshot.ofToml? (content : String) : Option Snapshot := do
  let record ←
    Record.ofTable? ["last_files", "bookmarks", "open_documents", "import_formats", "toolbars",
      "clipboard", "document", "actions", "bindings", "exclude"] (← Toml.read? content)
  return {
    lastFiles := ← record.field? 0 (list? text?) []
    bookmarks := ← record.field? 1 (list? bookmark?) []
    documents := ← record.field? 2 (list? openDocument?) []
    importFormats := ← record.field? 3 (list? format?) []
    toolbars := ← record.field? 4 (list? toolbar?) []
    clipboard := ← record.field? 5 (list? text?) []
    document := ← record.field? 6 (fun value => (document? value).map some) none
    actions := ← record.field? 7 actionTable? {}
    bindings := ← record.field? 8 bindings? []
    exclude := ← record.field? 9 (list? text?) [] }

end Menus
