import Menus.Cache.Record
import Menus.Digest

/-!
# The template cache

A load through the cache first looks for a record of an earlier load of the same definitions. A record
that is still fresh is the answer, and nothing is read. Otherwise the definitions are read and a new
record is kept. A record that is missing, damaged or cannot be written never stops a load.

Records are kept one file for each root, in a directory of their own, under a name made from the root's
path as a text. Paths that are not UTF-8 are left out; two of them may make one text, and then their
records share a file. How contents are told apart and how a record becomes the content of a file are
parameters of everything here, so that what is asked of them can be said; `CacheScheme.standard` is the
scheme in use.
-/

namespace Menus

/-- How contents are told apart and how records are kept. -/
structure CacheScheme where
  digest : ByteArray → String
  encode : CacheRecord → ByteArray
  decode? : ByteArray → Option CacheRecord

/-- The scheme in use. -/
def CacheScheme.standard : CacheScheme where
  digest := Digest.ofBytes
  encode := CacheRecord.encode
  decode? := CacheRecord.decode?

/-- Why no record is found. -/
inductive RecordProblem where
  | unreadable (cause : AccessError)
  | empty
  | corrupt
deriving DecidableEq, Repr

/-- Why a cache could not be cleared. -/
inductive ClearError where
  | unlistable (directory : String) (cause : AccessError)
  | unremovable (path : String) (cause : AccessError)
deriving DecidableEq, Repr

namespace ClearError

/-- The error in words. -/
def message : ClearError → String
  | unlistable directory _ => s!"Failed to list cache directory '{directory}'"
  | unremovable path _ => s!"Failed to remove '{path}'"

/-- What lies behind the error, in words. -/
def cause : ClearError → String
  | unlistable _ cause => cause.message
  | unremovable _ cause => cause.message

end ClearError

/-- The file still says what it said when its digest was taken. -/
def Source.isCurrent (scheme : CacheScheme) (system : FileSystem) (source : Source) : Bool :=
  match system.content (Location.path source.location) with
  | .ok content => scheme.digest content == source.digest
  | .error _ => false

namespace CacheRecord

/-- The record of what was read. -/
def ofLoaded (loaded : Loaded) : CacheRecord where
  format := version
  sources := loaded.sources
  fragments := loaded.fragments
  missing := loaded.missing
  registry := loaded.registry

/-- What a load answers from a record. -/
def toLoaded (record : CacheRecord) : Loaded where
  registry := record.registry
  diagnostics := []
  sources := record.sources
  fragments := record.fragments
  missing := record.missing
  fromCache := true

/-- The record can stand for another reading: this version wrote it, the fragments are the same, no
path of a failed inclusion leads to anything now, and no file that was read has changed. Where the other
inclusions lead now is not asked. -/
def isFresh (scheme : CacheScheme) (system : FileSystem) (fragments : List Location)
    (record : CacheRecord) : Bool :=
  record.format == version && record.fragments == fragments &&
    !record.missing.any system.isPresent && record.sources.all (Source.isCurrent scheme system)

end CacheRecord

namespace CacheScheme

/-- The extension of cache files. -/
def extension : List Char := "bin".toList

/-- The cache file of the definitions with the given root path. -/
def recordPath (scheme : CacheScheme) (directory root : String) : String :=
  let name := scheme.digest root.toUTF8
  String.ofList (Path.addExtension extension (Path.inDirectory directory.toList name.toList))

/-- The record in a file. -/
def readRecord (scheme : CacheScheme) (system : FileSystem) (path : String) :
    Except RecordProblem CacheRecord :=
  match system.content path with
  | .error cause => .error (.unreadable cause)
  | .ok content =>
    if content.isEmpty then .error .empty
    else
      match scheme.decode? content with
      | some record => .ok record
      | none => .error .corrupt

/-- Writes a record to a file; the directories around it are created. -/
def writeRecord (scheme : CacheScheme) (system : FileSystem) (path : String)
    (record : CacheRecord) : FileSystem × Except AccessError Unit :=
  match system.createParents path with
  | (system, .error cause) => (system, .error cause)
  | (system, .ok ()) =>
    match system.write path (scheme.encode record) with
    | .ok written => (written, .ok ())
    | .error cause => (system, .error cause)

/-- The record in a file, if it can stand for reading the definitions at a location. -/
def freshRecord? (scheme : CacheScheme) (system : FileSystem) (path : String) (root : Location) :
    Option CacheRecord :=
  match scheme.readRecord system path with
  | .ok record => if record.isFresh scheme system (system.fragments root) then some record else none
  | .error _ => none

/-- Reads the definitions at a location and keeps a record in a file. -/
def readAndKeep (scheme : CacheScheme) (system : FileSystem) (path : String) (root : Location) :
    FileSystem × Except LoadError Loaded :=
  match system.readAt scheme.digest root with
  | .error problem => (system, .error problem)
  | .ok loaded => ((scheme.writeRecord system path (.ofLoaded loaded)).1, .ok loaded)

/-- Loads the definitions a path leads to. Without a directory there is no cache; a load that
bypasses the cache still keeps a record. -/
def load (scheme : CacheScheme) (system : FileSystem) (directory : Option String) (bypass : Bool)
    (path : String) : FileSystem × Except LoadError Loaded :=
  match system.definitions path with
  | .error problem => (system, .error problem)
  | .ok root =>
    match directory with
    | none => (system, system.readAt scheme.digest root)
    | some directory =>
      let kept := scheme.recordPath directory (Location.path root)
      match if bypass then none else scheme.freshRecord? system kept root with
      | some record => (system, .ok record.toLoaded)
      | none => scheme.readAndKeep system kept root

end CacheScheme

namespace FileSystem

/-- Removes the cache files among the named entries of a directory, counting them. Those removed
before one that cannot be stay removed. -/
def removeRecords (system : FileSystem) (directory : String) :
    List String → FileSystem × Except ClearError Nat
  | [] => (system, .ok 0)
  | name :: names =>
    if Path.extensionOfName? name.toList = some CacheScheme.extension then
      let path := String.ofList (Path.inDirectory directory.toList name.toList)
      match system.removeFile path with
      | .error cause => (system, .error (.unremovable path cause))
      | .ok rest =>
        let (rest, count) := rest.removeRecords directory names
        (rest, count.map (· + 1))
    else system.removeRecords directory names

/-- Removes every cache file from a directory. There are none in a directory that is missing. -/
def clearCache (system : FileSystem) (directory : String) : FileSystem × Except ClearError Nat :=
  if system.isPresent directory then
    match system.entries directory with
    | .error cause => (system, .error (.unlistable directory cause))
    | .ok names => system.removeRecords directory names
  else (system, .ok 0)

end FileSystem

end Menus
