/-!
# Places in source text

Lines and columns count from one. Lines end at newline characters only; carriage returns at the
end of a line do not belong to it.
-/

namespace MiniA64

structure Location where
  file : String
  line : Int
  column : Int
  deriving DecidableEq, Repr, Inhabited

namespace Location

def text (location : Location) : String :=
  location.file ++ ":" ++ toString location.line ++ ":" ++ toString location.column

end Location

/-- Splits at newline characters; there is always at least one line. -/
def splitLines : List Char → List (List Char)
  | [] => [[]]
  | c :: rest =>
    if c = '\n' then [] :: splitLines rest
    else
      match splitLines rest with
      | [] => [[c]]
      | line :: lines => (c :: line) :: lines

/-- A line by its number, or none where there is no such line. -/
def lineAt? (lines : List (List Char)) (line : Int) : Option (List Char) :=
  if line < 1 then none else lines[(line - 1).toNat]?

def sourceLine? (source : String) (line : Int) : Option (List Char) :=
  lineAt? (splitLines source.toList) line

def dropReturns (line : List Char) : String :=
  String.ofList (line.reverse.dropWhile (· = '\r')).reverse

end MiniA64
