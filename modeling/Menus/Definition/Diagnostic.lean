import Menus.Token

/-!
# Diagnostics

What is wrong with a definition text. A diagnostic never stops the reading: it names the place and
reading goes on with the next token.
-/

namespace Menus

/-- A problem in a definition text. -/
inductive Diagnostic where
  /-- A token that is no keyword of the production being read. -/
  | unknownTag (file : String) (line : Nat) (token production : String)
  /-- A keyword, or an argument of one, without the argument that has to follow it. -/
  | missingArgument (file : String) (line : Nat) (expected after : String)
  /-- The text ended inside a production. -/
  | unexpectedEnd (file production : String)
  /-- A quote that nothing closes. -/
  | unclosedString (file : String) (line : Nat)
  /-- A file that could not be included. -/
  | inclusionFailed (file : String) (line : Nat) (name reason : String)
deriving DecidableEq, Repr

namespace Diagnostic

/-- The diagnostic in words. -/
def message : Diagnostic → String
  | unknownTag file line token production =>
    s!"{file}:{line}: unknown tag `{token}` in {production}"
  | missingArgument file line expected after =>
    s!"{file}:{line}: missing {expected} after `{after}`"
  | unexpectedEnd file production =>
    s!"{file}: unexpected end of input inside {production}"
  | unclosedString file line =>
    s!"{file}:{line}: unterminated string"
  | inclusionFailed file line name reason =>
    s!"{file}:{line}: cannot include `{name}`: {reason}"

/-- The diagnostics that the tokens of a file carry by themselves. -/
def ofTokens (file : String) (tokens : List Token) : List Diagnostic :=
  (tokens.filter Token.isUnclosed).map fun token => .unclosedString file token.line

end Diagnostic

end Menus
