import MiniA64.Assembly.Emission
import MiniA64.Assembly.Grammar

/-!
# The assembler

An assembler takes one source after another. Each one is read, laid out and emitted; the first
error ends its assembly, and no part of its code is kept. A source that cannot be read leaves
what the source before it produced.
-/

namespace MiniA64

structure Assembler where
  limits : Limits
  symbols : SymbolTable
  emission : Emission
  /-- The source that the listing shows, empty at first. -/
  source : String
  log : List LogRecord
  deriving Repr

namespace Assembler

def new (limits : Limits) : Assembler := ⟨limits, .empty, .empty, "", []⟩

def code (assembler : Assembler) : List UInt8 := assembler.emission.code.toList

def note (assembler : Assembler) (level : LogLevel) (source message : String) : Assembler :=
  { assembler with log := assembler.log ++ [⟨level, source, message⟩] }

/-- Reports each name that has been declared global and never bound. -/
def noteUndefined (assembler : Assembler) : Assembler :=
  (assembler.symbols.entries.filter fun symbol ↦ symbol.isGlobal && !symbol.isDefined).foldl
    (fun assembler symbol ↦
      assembler.note .warning "armlet.assembler.codegen"
        ("global symbol '" ++ symbol.name ++ "' is never defined"))
    assembler

/-- Takes over a layout. Code of an earlier source is dropped. -/
def withLayout (assembler : Assembler) (source : String) (layout : Layout) : Assembler :=
  { assembler with
    symbols := layout.symbols
    emission := .empty
    source
    log := assembler.log ++ layout.log }

/-- Makes the code of a program. -/
def generate (assembler : Assembler) (program : Program) :
    Except Diagnostic Unit × Assembler :=
  match Layout.ofStatements assembler.limits program.statements with
  | .error failure =>
    (.error failure.diagnostic, assembler.withLayout program.source failure.reached)
  | .ok layout =>
    let assembler := assembler.withLayout program.source layout
    let assembler := assembler.note .debug "armlet.assembler.codegen"
      ("pass 1 complete: " ++ toString layout.size ++ " bytes, " ++
        toString layout.symbols.entries.length ++ " symbols")
    let assembler := assembler.noteUndefined
    match Emission.ofStatements assembler.limits layout.symbols program.statements with
    | .error diagnostic => (.error diagnostic, assembler)
    | .ok emission =>
      let assembler := assembler.note .debug "armlet.assembler.codegen"
        ("pass 2 complete: emitted " ++ toString emission.code.size ++ " bytes")
      (.ok (), { assembler with emission })

/-- Reads a program and makes its code. -/
def parseAndGenerate (assembler : Assembler) (source file : String) :
    Except Diagnostic Unit × Assembler :=
  match Program.parse source file assembler.limits.nodes with
  | .error diagnostic => (.error diagnostic, assembler)
  | .ok program =>
    (assembler.note .debug "armlet.assembler.assembler"
      ("parsed " ++ toString program.nodes ++ " nodes")).generate program

/-- Assembles one source. A diagnostic shows the line of the source that it is about. -/
def assemble (assembler : Assembler) (source file : String) :
    Except Diagnostic (List UInt8) × Assembler :=
  let started := assembler.note .debug "armlet.assembler.assembler" ("assembling " ++ file)
  match started.parseAndGenerate source file with
  | (.error diagnostic, assembler) => (.error (diagnostic.locate source), assembler)
  | (.ok _, assembler) =>
    let report := file ++ ": " ++ toString assembler.code.length ++ " bytes, " ++
      toString assembler.symbols.defined.length ++ " symbols"
    (.ok assembler.code, assembler.note .info "armlet.assembler.assembler" report)

end Assembler

end MiniA64
