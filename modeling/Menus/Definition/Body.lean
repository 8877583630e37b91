import Menus.Definition.Cursor
import Menus.Menu

/-!
# Menu bodies

The body of a menu is a run of lines up to its `end`. A generated list and a separator take one
word; a command and a submenu take two arguments behind theirs. A line whose arguments are missing
is reported and adds nothing, and reading goes on at the token that stood in their place, so one
bad line costs no other.
-/

namespace Menus

/-- What a keyword adds to a menu body. -/
inductive Line where
  /-- The body ends. -/
  | finish
  /-- An entry that takes no arguments. -/
  | plain (entry : Entry Menu)
  /-- An entry made of a label and a second argument, whose description diagnostics show. -/
  | pair (second : String) (build : String → String → Entry Menu)
  /-- Nothing: the word announces no line of a menu. -/
  | nothing

/-- The line a keyword announces. The command of an item is split into action and argument as
`Request.ofCommand` does it; an application that resolves command strings in another way is left out. -/
def Keyword.line : Keyword → Line
  | .close => .finish
  | .item optional => .pair "command" fun label command =>
      { Entry.command label (.ofCommand command) with optional }
  | .submenu optional => .pair "menu name" fun label name =>
      { Entry.submenu label name with optional }
  | .separator => .plain .separator
  | .generated generator => .plain { kind := .generated generator }
  | _ => .nothing

/-- What reading a body gives: its entries, the diagnostics in the order of the tokens, and the
tokens behind its `end`. -/
structure Body where
  entries : List (Entry Menu) := []
  problems : List Diagnostic := []
  rest : List Token := []

namespace Body

/-- Puts an entry in front. -/
def withEntry (entry : Entry Menu) (body : Body) : Body :=
  { body with entries := entry :: body.entries }

/-- Puts a diagnostic in front. -/
def withProblem (problem : Diagnostic) (body : Body) : Body :=
  { body with problems := problem :: body.problems }

@[simp] theorem rest_withEntry (entry : Entry Menu) (body : Body) :
    (body.withEntry entry).rest = body.rest := rfl

@[simp] theorem rest_withProblem (problem : Diagnostic) (body : Body) :
    (body.withProblem problem).rest = body.rest := rfl

/-- Reads a body up to its `end`. -/
def read (file : String) : List Token → Body
  | [] => { problems := [.unexpectedEnd file Production.menuBody.name] }
  | token :: rest =>
    match Production.menuBody.keyword? token with
    | none =>
      (read file rest).withProblem
        (.unknownTag file token.line token.text Production.menuBody.name)
    | some keyword =>
      match keyword.line with
      | .finish => { rest }
      | .plain entry => (read file rest).withEntry entry
      | .nothing => read file rest
      | .pair second build =>
        match rest with
        | [] => (read file []).withProblem (.missingArgument file token.line "label" token.text)
        | label :: afterLabel =>
          if Production.menuBody.takesArgument label then
            match afterLabel with
            | [] =>
              (read file []).withProblem (.missingArgument file label.line second label.text)
            | argument :: afterArgument =>
              if Production.menuBody.takesArgument argument then
                (read file afterArgument).withEntry (build label.text argument.text)
              else
                (read file (argument :: afterArgument)).withProblem
                  (.missingArgument file label.line second label.text)
          else
            (read file (label :: afterLabel)).withProblem
              (.missingArgument file token.line "label" token.text)

/-- A body takes nothing but what stands in front of its rest. -/
theorem read_rest_length (file : String) (tokens : List Token) :
    (read file tokens).rest.length ≤ tokens.length := by
  fun_induction read file tokens <;> simp_all <;> omega

end Body

/-- Reads a body at the cursor and appends its entries to the menu. The productions entered stay
as they were. -/
def Menu.read (menu : Menu) (cursor : Cursor) : Menu × Cursor :=
  let body := Body.read cursor.file cursor.pending
  (menu.append body.entries,
    { cursor with pending := body.rest, diagnostics := cursor.diagnostics ++ body.problems })

end Menus
