import MiniA64.Text.Characters

/-!
# Directives

Statements that begin with a dot. They name sections, declare and bind symbols, pad the code to
an alignment, and place data.
-/

namespace MiniA64

inductive Directive
  | text
  | data
  | bss
  | namedSection
  | global
  | globl
  | external
  | equ
  | set
  | align
  | balign
  | p2align
  | byte
  | hword
  | word
  | quad
  | ascii
  | asciz
  | string
  | space
  | skip
  deriving DecidableEq, Repr, Inhabited

namespace Directive

def all : List Directive :=
  [text, data, bss, namedSection, global, globl, external, equ, set, align, balign, p2align, byte,
    hword, word, quad, ascii, asciz, string, space, skip]

/-- The spelling after the dot. -/
def name : Directive → String
  | text => "text"
  | data => "data"
  | bss => "bss"
  | namedSection => "section"
  | global => "global"
  | globl => "globl"
  | external => "extern"
  | equ => "equ"
  | set => "set"
  | align => "align"
  | balign => "balign"
  | p2align => "p2align"
  | byte => "byte"
  | hword => "hword"
  | word => "word"
  | quad => "quad"
  | ascii => "ascii"
  | asciz => "asciz"
  | string => "string"
  | space => "space"
  | skip => "skip"

/-- Reads a spelling in any letter case. -/
def ofSpelling? (spelling : String) : Option Directive :=
  all.find? fun directive ↦ directive.name = Text.lower spelling

end Directive

end MiniA64
