import Menus.Path.Variables
import Menus.Toml.Decoding
import Menus.Toml.Document

/-!
# User settings

Which definition is read when none is named, where templates are cached, and whether they are cached
at all. Paths may name the home directory and environment variables.
-/

namespace Menus

/-- The settings of a user. -/
structure Settings where
  definition : Option String := none
  cacheDirectory : Option String := none
  /-- Templates are cached. -/
  cache : Bool := true
deriving DecidableEq, Repr

/-- What of the user's environment paths depend on. -/
structure Environment where
  home : String
  /-- The value of each variable that is set. -/
  valueOf : Path.Variables

namespace Settings

open Toml in
/-- The settings a document describes. -/
def ofToml? (content : String) : Option Settings := do
  let record ← Record.ofTable? ["ui_file", "cache_dir", "cache"] (← Toml.read? content)
  let path : Decoder (Option String) := fun value => (text? value).map some
  return {
    definition := ← record.field? 0 path none
    cacheDirectory := ← record.field? 1 path none
    cache := ← record.field? 2 boolean? true }

/-- The definition the settings name. -/
def definitionPath (settings : Settings) (environment : Environment) : Option String :=
  settings.definition.map (Path.ofUser environment.valueOf environment.home)

/-- The cache directory the settings name. -/
def cachePath (settings : Settings) (environment : Environment) : Option String :=
  settings.cacheDirectory.map (Path.ofUser environment.valueOf environment.home)

end Settings

end Menus
