import Menus.Path
import Menus.Text.Elision

/-!
# Paths for display

A menu label has little room for a path. The home directory is written `~`; if that is still too
long, leading directories give way to `...`; and if the file name alone is too long, its middle
does.
-/

namespace Menus.Path

/-- The path with the home directory written `~`. An empty home directory is none. -/
def abbreviateHome (home path : List Char) : List Char :=
  if home.isEmpty then path
  else
    match below? home path with
    | some [] => ['~']
    | some rest => '~' :: '/' :: rest
    | none => path

/-- The ellipsis followed by the given pieces. -/
def elided (kept : List (List Char)) : List Char :=
  Text.ellipsis ++ kept.flatMap fun piece => '/' :: piece

/-- The longest end of the list of pieces that fits behind an ellipsis. -/
def longestElided? (limit : Nat) : List (List Char) → Option (List Char)
  | [] => none
  | piece :: rest =>
    if (elided (piece :: rest)).length ≤ limit then some (elided (piece :: rest))
    else longestElided? limit rest

/-- Shortens a path to the limit. -/
def shorten (limit : Nat) (path : List Char) : List Char :=
  if path.length ≤ limit then path
  else
    let all := pieces path
    match longestElided? limit all.tail with
    | some shorter => shorter
    | none => Text.elideMiddle limit (all.getLast?.getD [])

/-- The path as a menu shows it. -/
def display (home : String) (limit : Nat) (path : String) : String :=
  String.ofList (shorten limit (abbreviateHome home.toList path.toList))

end Menus.Path
