/-!
# Command arguments

A command names the options it knows and how many other arguments it takes. An option is written out
after two dashes, or as one letter after one dash; letters of options without a value can be run
together. A value stands behind its option, as the next argument or attached to it.

An option whose value is the next argument is looked at again only when something follows that
value, or at the end. What is wrong with it is reported then, and an argument that nobody knows, met
before that, is reported instead.
-/

namespace Menus

/-- What an option takes. -/
inductive OptionValue where
  | nothing
  | text
  /-- A number that fits in 64 bits. -/
  | number
deriving DecidableEq, Repr

/-- An option of a command. -/
structure CommandOption where
  name : String
  letter : Option Char := none
  value : OptionValue := .nothing
deriving DecidableEq, Repr

/-- What is wrong with the arguments of a command, or what they ask for instead of running it. -/
inductive Misuse where
  /-- An option nobody knows, or one argument too many. -/
  | unknownArgument
  /-- An option without its value. -/
  | missingValue
  /-- An option given twice. -/
  | repeated
  /-- A value that is no number of the right size. -/
  | invalidNumber
  /-- A value attached to an option that takes none. -/
  | unneededValue
  /-- Help is asked for. -/
  | helpWanted
deriving DecidableEq, Repr

/-- The arguments that a command knows. -/
structure Usage where
  options : List CommandOption := []
  /-- How many arguments it takes that are no options. -/
  positionals : Nat := 0

/-- The option that asks for help. Every command knows it. -/
def helpOption : CommandOption := ⟨"help", some 'h', .nothing⟩

/-- The number that a text writes in decimal, with or without a plus sign in front. -/
def wordOf? (text : String) : Option Nat :=
  let digits :=
    match text.toList with
    | '+' :: digits => digits
    | digits => digits
  if digits.isEmpty || !digits.all Char.isDigit then none
  else
    let number := digits.foldl (fun number c => number * 10 + (c.toNat - '0'.toNat)) 0
    if number < 0x10000000000000000 then some number else none

/-- Arguments taken so far. -/
structure Arguments where
  positionals : List String := []
  /-- The options given, with their values; an option that takes none has the empty one. -/
  given : List (CommandOption × String) := []
  /-- An option that was not looked at again, with its value if that was there. -/
  pending : Option (CommandOption × Option String) := none

namespace Arguments

/-- Accepts an option with its value. -/
def accept (arguments : Arguments) (option : CommandOption) (value : String) :
    Except Misuse Arguments :=
  if arguments.given.any fun earlier => earlier.1.name == option.name then .error .repeated
  else if option.value = .number ∧ (wordOf? value).isNone then .error .invalidNumber
  else .ok { arguments with given := arguments.given ++ [(option, value)] }

/-- Looks again at the option that is pending, if one is. -/
def settle (arguments : Arguments) : Except Misuse Arguments :=
  match arguments.pending with
  | none => .ok arguments
  | some (_, none) => .error .missingValue
  | some (option, some value) => { arguments with pending := none }.accept option value

/-- Takes an option that needs no value. -/
def takeFlag (arguments : Arguments) (option : CommandOption) : Except Misuse Arguments := do
  let arguments ← arguments.settle
  if option = helpOption then .error .helpWanted else arguments.accept option ""

/-- Takes an option that needs a value, which may be attached. -/
def takeValued (arguments : Arguments) (option : CommandOption) (attached : Option String) :
    Except Misuse Arguments := do
  let arguments ← arguments.settle
  match attached with
  | some value => arguments.accept option value
  | none => .ok { arguments with pending := some (option, none) }

/-- Takes an option that is written out. -/
def takeName (usage : Usage) (arguments : Arguments) (name : String) (attached : Option String) :
    Except Misuse Arguments :=
  match (helpOption :: usage.options).find? fun option => option.name == name with
  | none => .error .unknownArgument
  | some option =>
    match option.value, attached with
    | .nothing, some _ => .error .unneededValue
    | .nothing, none => arguments.takeFlag option
    | _, _ => arguments.takeValued option attached

/-- Takes options written as letters. The letters behind an option that needs a value are its
value, and an equals sign in front of them does not count. -/
def takeLetters (usage : Usage) (arguments : Arguments) : List Char → Except Misuse Arguments
  | [] => .ok arguments
  | letter :: rest =>
    match (helpOption :: usage.options).find? fun option => option.letter == some letter with
    | none => .error .unknownArgument
    | some option =>
      match option.value with
      | .nothing => do takeLetters usage (← arguments.takeFlag option) rest
      | _ =>
        let attached :=
          match rest with
          | [] => none
          | '=' :: value => some (String.ofList value)
          | value => some (String.ofList value)
        arguments.takeValued option attached

/-- Takes an argument that is no option. -/
def takePositional (usage : Usage) (arguments : Arguments) (argument : String) :
    Except Misuse Arguments := do
  if usage.positionals ≤ arguments.positionals.length then .error .unknownArgument
  else
    let arguments ← arguments.settle
    .ok { arguments with positionals := arguments.positionals ++ [argument] }

/-- Takes an argument. -/
def take (usage : Usage) (arguments : Arguments) (argument : String) :
    Except Misuse Arguments :=
  match argument.toList with
  | '-' :: '-' :: name =>
    let value := name.dropWhile (· ≠ '=')
    arguments.takeName usage (String.ofList (name.takeWhile (· ≠ '=')))
      (if value.isEmpty then none else some (String.ofList value.tail))
  | '-' :: letter :: letters => arguments.takeLetters usage (letter :: letters)
  | _ =>
    match arguments.pending with
    | some (option, none) => .ok { arguments with pending := some (option, some argument) }
    | _ => arguments.takePositional usage argument

/-- Reads the arguments of a command. Two dashes alone end the options. -/
def readFrom (usage : Usage) (arguments : Arguments) : List String → Except Misuse Arguments
  | [] => arguments.settle
  | argument :: rest =>
    if argument = "--" then do
      (← rest.foldlM (takePositional usage) arguments).settle
    else do readFrom usage (← arguments.take usage argument) rest

/-- Reads the arguments of a command. -/
def read (usage : Usage) (list : List String) : Except Misuse Arguments :=
  readFrom usage {} list

/-- The option was given. -/
def has (arguments : Arguments) (name : String) : Bool :=
  arguments.given.any fun option => option.1.name == name

/-- The value of an option. -/
def value? (arguments : Arguments) (name : String) : Option String :=
  (arguments.given.find? fun option => option.1.name == name).map Prod.snd

end Arguments

end Menus
