import Menus.Text.Alphanumeric

/-!
# Variables in user paths

A path the user writes may start with `~` for the home directory and may name environment variables,
as `$NAME` or in braces, there with a default behind `:-`. A dollar sign doubled stands for itself,
and so does one before anything else. A path that names a variable nobody has set keeps all its
dollars, since half of an expansion would name some other file. A `~` that a variable brings along
means nothing.
-/

namespace Menus.Path

/-- The values of environment variables. -/
abbrev Variables := String → Option String

/-- What an environment entry `NAME=VALUE` says about a name: the entry has to begin with that name
and a `=`. -/
def valueIn? (name set value : List Char) : Option (List Char) :=
  let entry := set ++ '=' :: value
  if (name ++ ['=']).isPrefixOf entry then some (entry.drop (name.length + 1)) else none

/-- The variables of an environment in which the given values are set. A name is looked up as a
text, in the entries as they are written; the first entry that says something about it decides. -/
def Variables.ofList (entries : List (String × String)) : Variables := fun name =>
  entries.findSome? fun (set, value) =>
    (valueIn? name.toList set.toList value.toList).map String.ofList

/-- About a name without `=` an entry says its value, if the name is the entry's own, and nothing
otherwise. -/
theorem valueIn?_eq (name set value : List Char) (plain : '=' ∉ name) (plainSet : '=' ∉ set) :
    valueIn? name set value = if name = set then some value else none := by
  induction name generalizing set with
  | nil =>
    cases set with
    | nil => simp [valueIn?]
    | cons d others =>
      have different : '=' ≠ d := fun same => plainSet (same ▸ List.mem_cons_self)
      simp [valueIn?, different]
  | cons c rest inductionHypothesis =>
    have plainRest : '=' ∉ rest := fun member => plain (List.mem_cons_of_mem _ member)
    cases set with
    | nil =>
      have different : c ≠ '=' := fun same => plain (same ▸ List.mem_cons_self)
      simp [valueIn?, different]
    | cons d others =>
      have plainOthers : '=' ∉ others := fun member => plainSet (List.mem_cons_of_mem _ member)
      have further := inductionHypothesis others plainRest plainOthers
      by_cases same : c = d
      · subst same
        simpa [valueIn?] using further
      · simp [valueIn?, same]

/-- The characters of a variable's name. -/
def isNameChar (c : Char) : Bool := Text.isAlphanumeric c || c == '_'

/-- Divides a text at the first place where `piece` stands. -/
def splitAt? (piece : List Char) : List Char → Option (List Char × List Char)
  | [] => if piece.isEmpty then some ([], []) else none
  | c :: rest =>
    if piece.isPrefixOf (c :: rest) then some ([], (c :: rest).drop piece.length)
    else (splitAt? piece rest).map fun (before, after) => (c :: before, after)

/-- The value of what stands between braces: a name, or a name with a default. A default needs a
name in front of it. -/
def bracedValue? (valueOf : Variables) (inner : List Char) : Option (List Char) :=
  let (name, fallback) :=
    match splitAt? [':', '-'] inner with
    | some (c :: name, fallback) => (c :: name, some fallback)
    | _ => (inner, none)
  match valueOf (String.ofList name) with
  | some value => some value.toList
  | none => fallback

/-- Behind the first closing brace there is less text. -/
theorem splitAt?_length {piece text before after : List Char}
    (found : splitAt? piece text = some (before, after)) : after.length ≤ text.length := by
  induction text generalizing before after with
  | nil =>
    simp only [splitAt?] at found
    split at found <;> simp_all
  | cons c rest inductionHypothesis =>
    simp only [splitAt?] at found
    split at found
    · simp only [Option.some.injEq, Prod.mk.injEq] at found
      simp only [← found.2, List.length_drop, List.length_cons]
      omega
    · obtain ⟨⟨first, second⟩, deeper, same⟩ := Option.map_eq_some_iff.mp found
      simp only [Prod.mk.injEq] at same
      have shorter := inductionHypothesis deeper
      simp only [← same.2, List.length_cons]
      omega

/-- Replaces the variables of a text, if all that have no default are set. -/
def replaceVariables? (valueOf : Variables) : List Char → Option (List Char)
  | [] => some []
  | c :: rest =>
    if c ≠ '$' then (replaceVariables? valueOf rest).map (c :: ·)
    else
      match rest with
      | [] => some ['$']
      | d :: more =>
        if d = '{' then
          match _found : splitAt? ['}'] more with
          | none => (replaceVariables? valueOf more).map ('$' :: '{' :: ·)
          | some (inner, after) =>
            match bracedValue? valueOf inner with
            | none => none
            | some value => (replaceVariables? valueOf after).map (value ++ ·)
        else if isNameChar d then
          match valueOf (String.ofList (d :: more.takeWhile isNameChar)) with
          | none => none
          | some value =>
            (replaceVariables? valueOf (more.dropWhile isNameChar)).map (value.toList ++ ·)
        else if d = '$' then (replaceVariables? valueOf more).map ('$' :: ·)
        else (replaceVariables? valueOf (d :: more)).map ('$' :: ·)
termination_by text => text.length
decreasing_by
  · simp only [List.length_cons]
    omega
  · simp only [List.length_cons]
    omega
  · have shorter := splitAt?_length _found
    simp only [List.length_cons]
    omega
  · have shorter := (List.dropWhile_sublist (l := more) isNameChar).length_le
    simp only [List.length_cons]
    omega
  · simp only [List.length_cons]
    omega
  · simp only [List.length_cons]
    omega

/-- Replaces a `~` at the start that stands alone or before a slash. -/
def replaceTilde (home text : List Char) : List Char :=
  match text with
  | ['~'] => home
  | '~' :: '/' :: rest => home ++ '/' :: rest
  | _ => text

/-- The path a user means by a text. -/
def ofUser (valueOf : Variables) (home text : String) : String :=
  let expanded :=
    match replaceVariables? valueOf text.toList with
    | none => replaceTilde home.toList text.toList
    | some replaced =>
      if text.toList.head? = some '~' || replaced.head? ≠ some '~' then
        replaceTilde home.toList replaced
      else replaced
  String.ofList expanded

end Menus.Path
