import Menus.Contents
import Menus.Path.Display

/-!
# Generated lists

The entries that stand for a generated list in an expanded menu. Each list depends on the context
alone, not on the menu it is put into. Where a list needs a document and there is none, or has no
content to show, a placeholder says so; commands whose status the application knows best are taken
under the status policy.
-/

namespace Menus

/-- The length to which the paths of recent files are shortened. -/
def lastFilesPathLimit : Nat := 30

/-- The length to which the paths of open documents and bookmarks are shortened. -/
def documentPathLimit : Nat := 20

/-- How many entries of a list are numbered. -/
def numberedEntries : Nat := 9

/-- File names where they tell the paths apart, and paths for display where they do not. -/
def shortNames (home : String) (limit : Nat) (paths : List String) : List String :=
  let names := paths.map fun path => Path.fileName? path.toList
  if names.all Option.isSome ∧ names.Nodup then (names.filterMap id).map String.ofList
  else paths.map (Path.display home limit)

/-- A label behind its number, which is also its hint unless the label has a bar of its own. -/
def numbered (number : Nat) (label : String) : String :=
  s!"{number}. {label}|{number}"

/-- A label behind the number of its position, counted from 0, as far as numbers go. -/
def numberedAt (position : Nat) (label : String) : String :=
  if position < numberedEntries then numbered (position + 1) label else label

namespace Context

/-- Keeps the entries that the status policy keeps. -/
def kept (context : Context) (entries : List (Entry Menu)) : List (Entry Menu) :=
  entries.filterMap (Entry.kept? context.statusOf)

/-- The entries that need a document. -/
def withDocument (context : Context) (entries : Document → List (Entry Menu)) :
    List (Entry Menu) :=
  match context.document with
  | some document => entries document
  | none => [.placeholder "No Document Open!"]

/-- Recent files, as many as get a number. -/
def lastFileEntries (context : Context) : List (Entry Menu) :=
  let shown := context.lastFiles.take numberedEntries
  let labels := shortNames context.home lastFilesPathLimit shown
  (shown.zip labels).zipIdx.map fun ((path, label), position) =>
    .enabledCommand (numbered (position + 1) label) (.ofMenu "file-open" path)

/-- The open documents. A star marks one with unsaved changes. -/
def documentEntries (context : Context) : List (Entry Menu) :=
  if context.documents.isEmpty then [.placeholder "No Documents Open!"]
  else
    let labels :=
      shortNames context.home documentPathLimit (context.documents.map OpenDocument.path)
    (context.documents.zip labels).zipIdx.map fun ((document, label), position) =>
      let marked := if document.clean then label else label ++ "*"
      .enabledCommand (numberedAt position marked) (.ofMenu "buffer-switch" document.path)

/-- The bookmarks, under the numbers of their slots. -/
def bookmarkEntries (context : Context) : List (Entry Menu) :=
  context.bookmarks.map fun bookmark =>
    .enabledCommand
      (numbered bookmark.slot (Path.display context.home documentPathLimit bookmark.path))
      (.ofMenu "bookmark-goto" (toString bookmark.slot))

/-- The insets of a family, its name compared without regard to case. -/
def insetEntries (context : Context) (family : String) : List (Entry Menu) :=
  context.withDocument fun document =>
    (document.insetLayouts.filter fun layout =>
        Text.sameIgnoringCase layout.family family).map fun layout =>
      .enabledCommand layout.name (.ofMenu "flex-insert" layout.name)

/-- A list of floats for each type. -/
def floatListEntries (context : Context) : List (Entry Menu) :=
  context.withDocument fun document =>
    context.kept (document.floatTypes.map fun type =>
      .command type.listName (.ofMenu "float-list" type.kind))

/-- A float of each type. -/
def floatEntries (context : Context) : List (Entry Menu) :=
  context.withDocument fun document =>
    context.kept (document.floatTypes.map fun type =>
      .command type.name (.ofMenu "float-insert" type.kind))

/-- The clipboard history. Without a document there is nothing to paste into. -/
def pasteEntries (context : Context) : List (Entry Menu) :=
  if context.document.isNone then []
  else
    context.selections.zipIdx.map fun (selection, position) =>
      .enabledCommand selection (.ofMenu "paste" (toString position))

/-- The toolbars, checked while they are visible. -/
def toolbarEntries (context : Context) : List (Entry Menu) :=
  context.toolbars.map fun toolbar =>
    let label := if toolbar.auto then toolbar.prettyName ++ " (auto)" else toolbar.prettyName
    { Entry.command label (.ofMenu "toolbar-toggle" toolbar.name) with
      status := Status.enabled.withChecked toolbar.visible }

/-- The branches of the document. -/
def branchEntries (context : Context) : List (Entry Menu) :=
  context.withDocument fun document =>
    if document.branches.isEmpty then [.placeholder "No Branch in Document!"]
    else
      context.kept (document.branches.zipIdx.map fun (branch, position) =>
        .command (numberedAt position branch) (.ofMenu "branch-insert" branch))

end Context

namespace FormatUse

/-- The action that uses a format. -/
def action : FormatUse → String
  | viewing => "buffer-view"
  | updating => "buffer-update"
  | exporting => "buffer-export"
  | importing => "buffer-import"

/-- The formats the application reports for a use. Importing needs no document; the other uses
have none to offer without one. -/
def reported? (purpose : FormatUse) (context : Context) : Option (List Format) :=
  match purpose with
  | importing => some context.importable
  | exporting => context.document.map fun document => document.exportable false
  | viewing | updating => context.document.map fun document => document.exportable true

/-- A format is offered for a use: no dummy, and a format of documents unless it is imported. -/
def offers (purpose : FormatUse) (format : Format) : Bool :=
  !format.dummy && (purpose == .importing || format.forDocuments)

/-- Formats in the order of their names, ASCII case ignored. Formats of one name keep their
order. -/
def sorted (formats : List Format) : List Format :=
  formats.mergeSort fun first second =>
    !Text.precedes (Text.foldCase second.prettyName) (Text.foldCase first.prettyName)

/-- The name under which a format is offered. Two formats of plain text are told apart by what
importing makes of their lines. -/
def nameOf (purpose : FormatUse) (format : Format) : String :=
  if purpose == .importing then
    let name :=
      if format.name == "text" then "Plain Text as Lines"
      else if format.name == "textparagraph" then "Plain Text as Paragraphs"
      else format.prettyName
    name ++ "..."
  else format.prettyName

/-- The label of a format. -/
def labelOf (purpose : FormatUse) (format : Format) : String :=
  if format.shortcut.isEmpty then purpose.nameOf format
  else purpose.nameOf format ++ "|" ++ format.shortcut

/-- The command that uses a format. -/
def command (purpose : FormatUse) (format : Format) : Entry Menu :=
  .command (purpose.labelOf format) (.ofMenu purpose.action format.name)

/-- The formats offered for a use. With a document the application decides about each command;
without one all are enabled. -/
def entries (purpose : FormatUse) (context : Context) : List (Entry Menu) :=
  match purpose.reported? context with
  | none => [.placeholder "No Document Open!"]
  | some formats =>
    let commands := (sorted (formats.filter purpose.offers)).map purpose.command
    if context.document.isSome then context.kept commands
    else commands.map fun entry => { entry with status := .enabled }

end FormatUse

/-- The entries that stand for a generated list. -/
def Generator.entries (context : Context) : Generator → List (Entry Menu)
  | lastFiles => context.lastFileEntries
  | documents => context.documentEntries
  | bookmarks => context.bookmarkEntries
  | contents => context.withDocument Contents.entries
  | formats purpose => purpose.entries context
  | insets family => context.insetEntries family
  | floatLists => context.floatListEntries
  | floats => context.floatEntries
  | pasteRecent => context.pasteEntries
  | toolbars => context.toolbarEntries
  | branches => context.branchEntries

end Menus
