import MiniA64.Text.Printable
import MiniA64.Text.Radix

/-!
# Quoted text

A text in quotes, for messages. Single quotes enclose it unless it holds a single quote and no
double quote. The quote in use and the backslash are escaped, and so is every character that is
not printable: by a letter for tab, newline and carriage return, by its code point otherwise.
-/

namespace MiniA64.Text

def quoteFor (text : List Char) : Char :=
  if text.contains '\'' && !text.contains '"' then '"' else '\''

/-- A backslash, the letter that tells the number of digits, and the code point. -/
def codePointEscape (c : Char) : String :=
  let value := c.toNat
  if value < 0x100 then "\\x" ++ padLeft 2 (lowerDigits value)
  else if value < 0x10000 then "\\u" ++ padLeft 4 (lowerDigits value)
  else "\\U" ++ padLeft 8 (lowerDigits value)

def quotedChar (quote c : Char) : String :=
  if c = quote || c = '\\' then String.ofList ['\\', c]
  else if c = '\t' then "\\t"
  else if c = '\n' then "\\n"
  else if c = '\r' then "\\r"
  else if isPrintable c then c.toString
  else codePointEscape c

def quoted (text : String) : String :=
  let quote := quoteFor text.toList
  quote.toString ++ String.join (text.toList.map (quotedChar quote)) ++ quote.toString

end MiniA64.Text
