import Menus.Cache.Form
import Menus.Loading

/-!
# Cache records

What a load leaves behind for the next one: the registry, and the facts by which the next load can
tell that reading again would give the same. Those are the digests of all files that were read, the
fragments of a directory, and the paths that led to no file, with the version that wrote the record.

A record keeps templates, so the statuses of entries and the menus attached to submenus are not
written: `CacheRecord.decode?_encode` says that reading gives back the record with its registry as
templates.
-/

namespace Menus

/-- The version that records are marked with. -/
def version : String := "0.3.1-beta"

/-- What is kept of a load. -/
structure CacheRecord where
  /-- The version that wrote the record. -/
  format : String
  sources : List Source
  fragments : List Location
  missing : List String
  registry : Registry

/-- The entry without the status and the menu that only an expansion gives it. -/
def Entry.asTemplate (entry : Entry Menu) : Entry Menu :=
  let kind :=
    match entry.kind with
    | .submenu name _ => .submenu name none
    | other => other
  { entry with kind, status := {} }

/-- The menu with all entries as templates. -/
def Menu.asTemplate (menu : Menu) : Menu :=
  { menu with entries := menu.entries.map Entry.asTemplate }

/-- The registry with all menus as templates. -/
def Registry.asTemplates (registry : Registry) : Registry where
  menubar := registry.menubar.asTemplate
  menus := registry.menus.map Menu.asTemplate
  exclusions := registry.exclusions.asTemplate

namespace CacheRecord

/-- The word an origin is written as. -/
def originWord : Origin → String
  | .internal => "internal"
  | .menu => "menu"
  | .toolbar => "toolbar"
  | .keyboard => "keyboard"

/-- The origin a word is written for. -/
def originOf? : String → Option Origin
  | "internal" => some .internal
  | "menu" => some .menu
  | "toolbar" => some .toolbar
  | "keyboard" => some .keyboard
  | _ => none

/-- The word of a generator, and the family it asks for. -/
def generatorWords : Generator → String × String
  | .lastFiles => ("recent", "")
  | .documents => ("documents", "")
  | .bookmarks => ("bookmarks", "")
  | .contents => ("contents", "")
  | .formats .viewing => ("viewing", "")
  | .formats .updating => ("updating", "")
  | .formats .exporting => ("exporting", "")
  | .formats .importing => ("importing", "")
  | .insets family => ("insets", family)
  | .floatLists => ("float lists", "")
  | .floats => ("floats", "")
  | .pasteRecent => ("clipboard", "")
  | .toolbars => ("toolbars", "")
  | .branches => ("branches", "")

/-- The generator that words are written for. -/
def generatorOf? : String × String → Option Generator
  | ("recent", _) => some .lastFiles
  | ("documents", _) => some .documents
  | ("bookmarks", _) => some .bookmarks
  | ("contents", _) => some .contents
  | ("viewing", _) => some (.formats .viewing)
  | ("updating", _) => some (.formats .updating)
  | ("exporting", _) => some (.formats .exporting)
  | ("importing", _) => some (.formats .importing)
  | ("insets", family) => some (.insets family)
  | ("float lists", _) => some .floatLists
  | ("floats", _) => some .floats
  | ("clipboard", _) => some .pasteRecent
  | ("toolbars", _) => some .toolbars
  | ("branches", _) => some .branches
  | _ => none

/-- The form of requests. -/
def requestForm : Form Request :=
  (Form.text.pair (Form.text.pair Form.text)).through
    (fun request => (request.action, request.argument, originWord request.origin))
    fun (action, argument, word) => (originOf? word).map fun origin => ⟨action, argument, origin⟩

theorem keeps_requestForm : requestForm.Keeps id :=
  (Form.keeps_text.pair (Form.keeps_text.pair Form.keeps_text)).through fun request => by
    cases request with
    | mk action argument origin => cases origin <;> rfl

/-- The form of generators. -/
def generatorForm : Form Generator :=
  (Form.text.pair Form.text).through generatorWords generatorOf?

theorem keeps_generatorForm : generatorForm.Keeps id :=
  (Form.keeps_text.pair Form.keeps_text).through fun generator => by
    rcases generator with _ | _ | _ | _ | (_ | _ | _ | _) | _ | _ | _ | _ | _ | _ <;> rfl

/-- The form of what an entry of a template stands for. -/
def kindForm : Form (Kind Menu) where
  write
    | .command request => "command" :: requestForm.write request
    | .submenu name _ => ["submenu", name]
    | .separator => ["separator"]
    | .generated generator => "generated" :: generatorForm.write generator
  read
    | "command" :: rest =>
      (requestForm.read rest).map fun (request, rest) => (.command request, rest)
    | "submenu" :: name :: rest => some (.submenu name none, rest)
    | "separator" :: rest => some (.separator, rest)
    | "generated" :: rest =>
      (generatorForm.read rest).map fun (generator, rest) => (.generated generator, rest)
    | _ => none

/-- The form of an entry of a template. -/
def entryForm : Form (Entry Menu) :=
  (kindForm.pair (Form.text.pair Form.flag)).through
    (fun entry => (entry.kind, entry.label, entry.optional))
    fun (kind, label, optional) => some { kind, label, optional }

theorem keeps_entryForm : entryForm.Keeps Entry.asTemplate := by
  intro entry rest
  obtain ⟨kind, label, optional, status⟩ := entry
  cases kind with
  | command request =>
    simp [entryForm, Form.through, Form.pair, kindForm, List.append_assoc,
      keeps_requestForm request, Form.keeps_text label, Form.keeps_flag optional,
      Entry.asTemplate]
  | submenu name child =>
    simp [entryForm, Form.through, Form.pair, kindForm, Form.keeps_text label,
      Form.keeps_flag optional, Entry.asTemplate]
  | separator =>
    simp [entryForm, Form.through, Form.pair, kindForm, Form.keeps_text label,
      Form.keeps_flag optional, Entry.asTemplate]
  | generated generator =>
    simp [entryForm, Form.through, Form.pair, kindForm, List.append_assoc,
      keeps_generatorForm generator, Form.keeps_text label, Form.keeps_flag optional,
      Entry.asTemplate]

/-- The form of a template. -/
def menuForm : Form Menu :=
  (Form.text.pair entryForm.list).through (fun menu => (menu.name, menu.entries))
    fun (name, entries) => some ⟨name, entries⟩

theorem keeps_menuForm : menuForm.Keeps Menu.asTemplate :=
  (Form.keeps_text.pair keeps_entryForm.list).through fun _ => rfl

/-- The form of a registry of templates. -/
def registryForm : Form Registry :=
  (menuForm.pair (menuForm.list.pair menuForm)).through
    (fun registry => (registry.menubar, registry.menus, registry.exclusions))
    fun (menubar, menus, exclusions) => some { menubar, menus, exclusions }

theorem keeps_registryForm : registryForm.Keeps Registry.asTemplates :=
  (keeps_menuForm.pair (keeps_menuForm.list.pair keeps_menuForm)).through fun _ => rfl

/-- The form of a location. -/
def locationForm : Form Location := Form.text.list

theorem keeps_locationForm : locationForm.Keeps id := by
  have keeps := Form.keeps_text.list
  rwa [List.map_id_fun] at keeps

/-- The form of a source. -/
def sourceForm : Form Source :=
  (locationForm.pair Form.text).through (fun source => (source.location, source.digest))
    fun (location, digest) => some ⟨location, digest⟩

theorem keeps_sourceForm : sourceForm.Keeps id :=
  (keeps_locationForm.pair Form.keeps_text).through fun _ => rfl

/-- The form of a record. -/
def recordForm : Form CacheRecord :=
  (Form.text.pair (sourceForm.list.pair (locationForm.list.pair
    (Form.text.list.pair registryForm)))).through
    (fun record =>
      (record.format, record.sources, record.fragments, record.missing, record.registry))
    fun (format, sources, fragments, missing, registry) =>
      some { format, sources, fragments, missing, registry }

theorem keeps_recordForm :
    recordForm.Keeps fun record => { record with registry := record.registry.asTemplates } :=
  (Form.keeps_text.pair (keeps_sourceForm.list.pair (keeps_locationForm.list.pair
    (Form.keeps_text.list.pair keeps_registryForm)))).through fun record => by
      simp

/-- The content of a cache file. -/
def encode (record : CacheRecord) : ByteArray :=
  (String.ofList (Field.toLines (recordForm.write record))).toUTF8

/-- The record in a cache file, if there is one and nothing else. -/
def decode? (content : ByteArray) : Option CacheRecord := do
  let text ← String.fromUTF8? content
  match ← recordForm.read (← Field.ofLines? [] text.toList) with
  | (record, []) => return record
  | _ => none

/-- A record that was kept is read back with its registry as templates. -/
theorem decode?_encode (record : CacheRecord) :
    decode? record.encode = some { record with registry := record.registry.asTemplates } := by
  have whole := keeps_recordForm record []
  rw [List.append_nil] at whole
  simp only [decode?, encode, FileSystem.fromUTF8?_toUTF8]
  simp [Field.ofLines?_toLines, whole]

end CacheRecord

end Menus
