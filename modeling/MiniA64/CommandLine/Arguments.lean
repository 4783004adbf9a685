/-!
# Command-line arguments

An argument that begins with a dash holds options, until a double dash ends them; all others are
positional, and both kinds may be mixed. A long option takes its value after an equals sign or
from the next argument. Short options can share an argument; the first one that takes a value
takes the rest of the argument, or the next one if there is no rest.
-/

namespace MiniA64

/-- What an option takes, besides its name. -/
inductive OptionKind
  | flag
  | text
  /-- A file to write, which may not be a directory. -/
  | file
  /-- A directory, which may not be a file. -/
  | directory
  /-- A decimal number with a lower bound. -/
  | number (least : Int)
  deriving DecidableEq, Repr

structure OptionSpec where
  /-- The letter of the short form, if there is one. -/
  letter : Option Char
  name : String
  kind : OptionKind
  deriving DecidableEq, Repr

def OptionSpec.takesValue (spec : OptionSpec) : Bool := spec.kind ≠ .flag

/-- An option as given; a flag has no value. -/
structure GivenOption where
  name : String
  value : Option String
  deriving DecidableEq, Repr

structure Arguments where
  options : List GivenOption
  positional : List String
  deriving DecidableEq, Repr

/-- Arguments that no tool understands. -/
inductive UsageError
  | unknownOption
  /-- The option as it is written. -/
  | missingValue (option : String)
  | unexpectedValue (option : String)
  | missingArgument
  | extraArgument
  | badPath
  | badNumber
  /-- A path with a zero character, which no file system takes. -/
  | nullInPath
  deriving DecidableEq, Repr

namespace UsageError

def exit : UsageError → Nat
  | nullInPath => 1
  | _ => 2

/-- What is reported to the user of a tool, whose usage answers most errors. -/
def report (usage : String) : UsageError → String
  | missingValue option => "Error: Option '" ++ option ++ "' requires an argument.\n"
  | unexpectedValue option => "Error: Option '" ++ option ++ "' does not take a value.\n"
  | nullInPath => ""
  | _ => usage

end UsageError

namespace Arguments

def hasFlag (arguments : Arguments) (name : String) : Bool :=
  arguments.options.any fun option ↦ option.name = name

/-- The value of an option; the last one counts. -/
def value? (arguments : Arguments) (name : String) : Option String :=
  (arguments.options.reverse.find? fun option ↦ option.name = name).bind (·.value)

def withOptions (options : List GivenOption) (arguments : Arguments) : Arguments :=
  { arguments with options := options ++ arguments.options }

def withPositional (argument : String) (arguments : Arguments) : Arguments :=
  { arguments with positional := argument :: arguments.positional }

/-- An option that still needs its value, and how it is written. -/
structure OpenOption where
  name : String
  written : String

/-- What one argument gives: options, and a last one that is still open. -/
abbrev Reading := Except UsageError (List GivenOption × Option OpenOption)

/-- Short options that share an argument. -/
def readShort (specs : List OptionSpec) : List Char → Reading
  | [] => .ok ([], none)
  | letter :: rest =>
    match specs.find? fun spec ↦ spec.letter = some letter with
    | none => .error .unknownOption
    | some spec =>
      if spec.takesValue then
        if rest.isEmpty then .ok ([], some ⟨spec.name, String.ofList ['-', letter]⟩)
        else .ok ([⟨spec.name, some (String.ofList rest)⟩], none)
      else do
        let (options, open?) ← readShort specs rest
        return (⟨spec.name, none⟩ :: options, open?)

/-- A long option by its name after the two dashes. -/
def readLong (specs : List OptionSpec) (text : List Char) : Reading :=
  let name := String.ofList (text.takeWhile (· ≠ '='))
  let value? := match text.dropWhile (· ≠ '=') with
    | _ :: value => some (String.ofList value)
    | [] => none
  match specs.find? fun spec ↦ spec.name = name with
  | none => .error .unknownOption
  | some spec =>
    match spec.takesValue, value? with
    | true, some value => .ok ([⟨name, some value⟩], none)
    | true, none => .ok ([], some ⟨name, "--" ++ name⟩)
    | false, some _ => .error (.unexpectedValue ("--" ++ name))
    | false, none => .ok ([⟨name, none⟩], none)

def read (specs : List OptionSpec) : List String → Except UsageError Arguments
  | [] => .ok ⟨[], []⟩
  | argument :: rest =>
    match argument.toList with
    | ['-', '-'] => .ok ⟨[], rest⟩
    | '-' :: first :: text => do
      let reading := if first = '-' then readLong specs text else readShort specs (first :: text)
      match ← reading with
      | (options, none) => return (← read specs rest).withOptions options
      | (options, some option) =>
        match rest with
        | [] => .error (.missingValue option.written)
        | value :: rest =>
          return (← read specs rest).withOptions (options ++ [⟨option.name, some value⟩])
    | _ => return (← read specs rest).withPositional argument

end Arguments

end MiniA64
