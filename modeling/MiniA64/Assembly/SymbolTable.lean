import MiniA64.Assembly.Diagnostic
import MiniA64.Text.Similarity

/-!
# The symbol table

Labels and constants by name, in the order of their first mention. A name that has only been
declared global has an entry without a value.
-/

namespace MiniA64

structure Symbol where
  name : String
  value : Int
  /-- Where the symbol was bound, or declared if it is not bound. -/
  location : Location
  isDefined : Bool
  isGlobal : Bool
  isConstant : Bool
  deriving DecidableEq, Repr

structure SymbolTable where
  entries : List Symbol
  deriving DecidableEq, Repr

namespace SymbolTable

def empty : SymbolTable := ⟨[]⟩

def find? (table : SymbolTable) (name : String) : Option Symbol :=
  table.entries.find? fun symbol ↦ symbol.name = name

def defined (table : SymbolTable) : List Symbol := table.entries.filter (·.isDefined)

/-- Puts a symbol in the place of the entry of its name. -/
def replace (table : SymbolTable) (symbol : Symbol) : SymbolTable :=
  ⟨table.entries.map fun entry ↦ if entry.name = symbol.name then symbol else entry⟩

/-- Adds an entry for a new name, if there is room for one. -/
def add (table : SymbolTable) (limit : Int) (symbol : Symbol) :
    Except Diagnostic SymbolTable :=
  if limit ≤ table.entries.length then
    .error ((AssemblyError.symbolTableFull limit).locatedAt symbol.location)
  else .ok ⟨table.entries ++ [symbol]⟩

/-- Declares a name global. -/
def declare (table : SymbolTable) (limit : Int) (name : String) (location : Location) :
    Except Diagnostic SymbolTable :=
  match table.find? name with
  | some symbol => .ok (table.replace { symbol with isGlobal := true })
  | none => table.add limit ⟨name, 0, location, false, true, false⟩

/-- How a name is bound to a value. -/
inductive Binding
  | label
  | constant
  | variable
  deriving DecidableEq, Repr

/-- A variable may be bound again, and so may a constant as a variable; nothing else may. -/
def Binding.mayReplace (binding : Binding) (symbol : Symbol) : Bool :=
  !symbol.isDefined || (binding = .variable && symbol.isConstant)

/-- Binds a name. -/
def define (table : SymbolTable) (limit : Int) (name : String) (value : Int)
    (location : Location) (binding : Binding) : Except Diagnostic SymbolTable :=
  let isConstant := binding != .label
  match table.find? name with
  | some symbol =>
    if binding.mayReplace symbol then
      .ok (table.replace { symbol with value, location, isDefined := true, isConstant })
    else .error ((AssemblyError.duplicateSymbol name (some symbol.location)).locatedAt location)
  | none => table.add limit ⟨name, value, location, true, false, isConstant⟩

/-- Reports a name that is not bound, with bound names that are like it. -/
def undefined (table : SymbolTable) (name : String) (location : Location) : Diagnostic :=
  (AssemblyError.undefinedSymbol name
    (Text.closeNames name (table.defined.map (·.name)))).locatedAt location

/-- The value of a name that is bound. -/
def resolve (table : SymbolTable) (name : String) (location : Location) :
    Except Diagnostic Int :=
  match (table.find? name).filter (·.isDefined) with
  | some symbol => .ok symbol.value
  | none => .error (table.undefined name location)

/-- The value of a name that is bound as a constant so far. -/
def constant? (table : SymbolTable) (name : String) : Option Int :=
  match table.find? name with
  | some symbol => if symbol.isDefined && symbol.isConstant then some symbol.value else none
  | none => none

/-- The bound symbols in the order of their names. -/
def sorted (table : SymbolTable) : List Symbol :=
  table.defined.mergeSort fun a b ↦ a.name ≤ b.name

end SymbolTable

end MiniA64
