import Menus.Context

/-!
# Context snapshots

A description of an application's state as plain data, against which menus can be expanded without
the application. Commands are listed by their full text or by their action alone. Of contradicting
lists the one that allows less is believed: unknown before disabled before enabled.
-/

namespace Menus

/-- The status of commands, as lists of command texts and actions. -/
structure ActionTable where
  /-- The availability of a command on no list. -/
  fallback : Availability := .enabled
  enabled : List String := []
  disabled : List String := []
  unknown : List String := []
  /-- Commands whose switch is on. -/
  checked : List String := []
deriving DecidableEq, Repr

namespace ActionTable

/-- A list names a request by its text or its action. -/
def names (list : List String) (request : Request) : Bool :=
  list.any fun command => command == request.display || command == request.action

/-- The status of a request. -/
def statusOf (table : ActionTable) (request : Request) : Status where
  availability :=
    if names table.unknown request then .unknown
    else if names table.disabled request then .disabled
    else if names table.enabled request then .enabled
    else table.fallback
  checked := if names table.checked request then some true else none

end ActionTable

/-- The key sequences bound to commands, by command text or action. -/
abbrev Bindings := List (String × List String)

namespace Bindings

/-- The sequences bound to a request: those of its text, or else those of its action. -/
def of (bindings : Bindings) (request : Request) : List String :=
  (bindings.lookup request.display <|> bindings.lookup request.action).getD []

end Bindings

/-- The document of a snapshot. -/
structure DocumentSnapshot where
  contents : List ContentsList := []
  floatTypes : List FloatType := []
  insetLayouts : List InsetLayout := []
  branches : List String := []
  exportFormats : List Format := []
  /-- The names of the export formats that can also be viewed. -/
  viewable : List String := []
  /-- The path of the master document. -/
  master : Option String := none
deriving DecidableEq, Repr

/-- The document as an expansion sees it. -/
def DocumentSnapshot.toDocument (snapshot : DocumentSnapshot) : Document where
  contents := snapshot.contents
  floatTypes := snapshot.floatTypes
  insetLayouts := snapshot.insetLayouts
  branches := snapshot.branches
  exportable viewableOnly := snapshot.exportFormats.filter fun format =>
    !viewableOnly || snapshot.viewable.contains format.name
  master := snapshot.master.map (Request.ofMenu "buffer-switch")

/-- Everything a menu can be expanded against, as plain data. -/
structure Snapshot where
  lastFiles : List String := []
  bookmarks : List Bookmark := []
  documents : List OpenDocument := []
  importFormats : List Format := []
  toolbars : List Toolbar := []
  clipboard : List String := []
  document : Option DocumentSnapshot := none
  actions : ActionTable := {}
  bindings : Bindings := []
  /-- Commands that are shown elsewhere and left out where a template names them. -/
  exclude : List String := []
deriving DecidableEq, Repr

/-- The context a snapshot describes, for a user with the given home directory. -/
def Snapshot.toContext (snapshot : Snapshot) (home : String) : Context where
  statusOf := snapshot.actions.statusOf
  home := home
  lastFiles := snapshot.lastFiles
  bookmarks := snapshot.bookmarks
  documents := snapshot.documents
  importable := snapshot.importFormats
  toolbars := snapshot.toolbars
  selections := snapshot.clipboard
  document := snapshot.document.map DocumentSnapshot.toDocument

end Menus
