import MiniA64.Assembly.Assembler
import MiniA64.Text.Characters

/-!
# Listings

The listing shows each piece of code beside its source line, and the symbols below. The symbol
file lists the symbols alone, one to a line, and marks the global ones.
-/

namespace MiniA64

namespace Listing

def rule (c : Char) (length : Nat) : String := String.ofList (List.replicate length c)

/-- An aligned word is shown as one number, other bytes in order and at most eight of them. -/
def codeText (entry : ListingEntry) : String :=
  match entry.data with
  | [a, b, c, d] =>
    if entry.address % 4 = 0 then
      (Text.hexBytes [d, c, b, a]).toUpper
    else (bytesText entry.data).toUpper
  | data => (bytesText data).toUpper
where
  bytesText (data : List UInt8) : String :=
    " ".intercalate ((data.take 8).map fun byte ↦ Text.hexBytes [byte])

def lineText (lines : List (List Char)) (line : Int) : String :=
  String.ofList (Text.dropEnd Text.isBlank ((lineAt? lines line).getD []))

def entryText (lines : List (List Char)) (entry : ListingEntry) : String :=
  Text.hexUpper 4 entry.address ++ "  " ++ Text.padRight 16 (codeText entry) ++ "  " ++
    Text.alignRight 4 (toString entry.location.line) ++ "  " ++
    lineText lines entry.location.line

def symbolText (symbol : Symbol) : String :=
  Text.padRight 20 symbol.name ++ " = 0x" ++ Text.hexUpper 4 symbol.value

/-- A name, its value, and whether it is global. -/
def exportText (symbol : Symbol) : String :=
  symbol.name ++ " = 0x" ++ Text.hexUpper 4 symbol.value ++
    if symbol.isGlobal then " global" else ""

end Listing

namespace Assembler

def listing (assembler : Assembler) : String :=
  "\n".intercalate
    (["A64 Assembler Listing", Listing.rule '=' 60, "", "Addr  Code              Line  Source",
        Listing.rule '-' 60] ++
      assembler.emission.listing.toList.map (Listing.entryText (splitLines assembler.source.toList)) ++
      ["", "Symbol Table", Listing.rule '-' 30] ++
      assembler.symbols.sorted.map Listing.symbolText)

def symbolFile (assembler : Assembler) : String :=
  String.join
    ((["# Symbol table", "# Generated by armasm"] ++
      assembler.symbols.sorted.map Listing.exportText).map (· ++ "\n"))

end Assembler

end MiniA64
