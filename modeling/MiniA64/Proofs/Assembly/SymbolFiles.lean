import Mathlib.Data.List.Basic
import Mathlib.Data.List.Nodup
import MiniA64.Assembly.Listing
import MiniA64.Proofs.Assembly.Assembled
import MiniA64.Proofs.Assembly.Names

/-!
# Reading symbol files

After two lines of comment a symbol file has a line for each symbol that is bound: its name, its
value and perhaps a mark that it is global, with blanks between them. There are no blanks in a name,
so the lines fall into these words again. What they say then depends on how a value is read. The sign
of a negative value stands behind the radix mark. A reader that looks for it there gets all symbols
back. One that takes integers, which have their sign in front, gets them back from a file without
negative values, and can make nothing of any other one.
-/

namespace MiniA64

/-- What a line of a symbol file says. -/
structure Export where
  name : String
  value : Int
  isGlobal : Bool
  deriving DecidableEq, Repr

def Symbol.export (symbol : Symbol) : Export := ⟨symbol.name, symbol.value, symbol.isGlobal⟩

namespace SymbolFile

open Numeral

/-! ## Readers -/

/-- An integer in hexadecimal, with its sign in front of the radix mark. -/
def integer? : List Char → Option Int
  | '-' :: '0' :: 'x' :: digits => (positional? 16 digits).map fun value : Nat ↦ -(value : Int)
  | '0' :: 'x' :: digits => (positional? 16 digits).map fun value : Nat ↦ (value : Int)
  | _ => none

/-- Digits behind a radix mark, with their sign in front of them. -/
def signedDigits? : List Char → Option Int
  | '0' :: 'x' :: '-' :: digits => (positional? 16 digits).map fun value : Nat ↦ -(value : Int)
  | '0' :: 'x' :: digits => (positional? 16 digits).map fun value : Nat ↦ (value : Int)
  | _ => none

/-- The words of a line, with one blank between two of them. -/
def line? (value? : List Char → Option Int) (line : List Char) : Option Export :=
  match line.splitOn ' ' with
  | [name, ['='], value] => (value? value).map fun value ↦ ⟨String.ofList name, value, false⟩
  | [name, ['='], value, ['g', 'l', 'o', 'b', 'a', 'l']] =>
    (value? value).map fun value ↦ ⟨String.ofList name, value, true⟩
  | _ => none

/-- The lines that a newline ends, after those of comment at the beginning. -/
def read? (value? : List Char → Option Int) (text : String) : Option (List Export) :=
  ((text.toList.splitOn '\n').dropLast.dropWhile (·.head? = some '#')).mapM (line? value?)

/-! ## Values -/

open Lexeme

theorem digit_toUpper {c : Char} (digit : isDigitOf 16 c = true) :
    digitValue c.toUpper = digitValue c ∧ isDigitOf 16 c.toUpper = true := by
  have ascii := isNameChar_lt (isNameChar_of_isDigitOf digit)
  revert digit
  exact of_ascii ascii (by decide)

theorem valueOf_toUpper {digits : List Char} (all : ∀ c ∈ digits, isDigitOf 16 c = true) :
    valueOf 16 (digits.map Char.toUpper) = valueOf 16 digits := by
  rw [valueOf, List.foldl_map, valueOf]
  exact List.foldl_ext _ _ _ fun value c member ↦ by rw [(digit_toUpper (all c member)).1]

/-- The digits that a magnitude is written with denote it, however many zeros are in front. -/
theorem padLeft_spec (width number : Nat) :
    (∀ c ∈ (Text.padLeft width (Text.upperDigits number)).toList, isDigitOf 16 c = true) ∧
      positional? 16 (Text.padLeft width (Text.upperDigits number)).toList = some number := by
  obtain ⟨value, digits⟩ := toDigits_spec (.inr rfl : 16 = 10 ∨ 16 = 16) number
  let upper := (Nat.toDigits 16 number).map Char.toUpper
  let zeros := width - (Text.upperDigits number).length
  have text : (Text.padLeft width (Text.upperDigits number)).toList =
      List.replicate zeros '0' ++ upper := by
    rw [Text.padLeft, String.toList_append, String.toList_ofList]
    simp only [Text.upperDigits, String.toUpper, String.toList_map, Text.lowerDigits,
      String.toList_ofList, zeros, upper]
  have all : ∀ c ∈ List.replicate zeros '0' ++ upper, isDigitOf 16 c = true := by
    intro c member
    obtain zero | digit := List.mem_append.mp member
    · rw [List.eq_of_mem_replicate zero]
      rfl
    · obtain ⟨lower, among, rfl⟩ := List.mem_map.mp digit
      exact (digit_toUpper (digits lower among)).2
  have nonempty : List.replicate zeros '0' ++ upper ≠ [] := by
    simp [upper, Nat.toDigits_ne_nil]
  rw [text]
  refine ⟨all, ?_⟩
  rw [positional?_eq (.inr (.inr rfl)) nonempty all, valueOf_zeros, valueOf_toUpper digits, value]

/-- The text of a value. -/
def valueText (value : Int) : List Char := ("0x" ++ Text.hexUpper 4 value).toList

theorem valueText_of_neg {value : Int} (negative : value < 0) :
    valueText value =
      '0' :: 'x' :: '-' :: (Text.padLeft 3 (Text.upperDigits value.natAbs)).toList := by
  rw [valueText, Text.hexUpper, Text.signed, if_pos negative]
  simp

theorem valueText_of_nonneg {value : Int} (positive : 0 ≤ value) :
    valueText value =
      '0' :: 'x' :: (Text.padLeft 4 (Text.upperDigits value.natAbs)).toList := by
  rw [valueText, Text.hexUpper, Text.signed, if_neg (Int.not_lt.mpr positive)]
  simp

/-- Nothing in a value passes for a blank or the end of a line. -/
theorem notMem_valueText {c : Char} (separates : isNameChar c = false) (notMinus : c ≠ '-')
    (value : Int) : c ∉ valueText value := by
  have digit (width : Nat) : c ∉ (Text.padLeft width (Text.upperDigits value.natAbs)).toList := by
    intro member
    have name := isNameChar_of_isDigitOf ((padLeft_spec width value.natAbs).1 c member)
    rw [separates] at name
    cases name
  have notZero : c ≠ '0' := by rintro rfl; cases separates
  have notMark : c ≠ 'x' := by rintro rfl; cases separates
  by_cases negative : value < 0
  · rw [valueText_of_neg negative]
    simp [notZero, notMark, notMinus, digit]
  · rw [valueText_of_nonneg (Int.not_lt.mp negative)]
    simp [notZero, notMark, digit]

/-- A digit is no sign. -/
theorem signedDigits?_digits {digits : List Char} (all : ∀ c ∈ digits, isDigitOf 16 c = true) :
    signedDigits? ('0' :: 'x' :: digits) =
      (positional? 16 digits).map fun value : Nat ↦ (value : Int) := by
  unfold signedDigits?
  split
  · rename_i equal
    cases equal
    cases all '-' List.mem_cons_self
  · rename_i equal
    cases equal
    rfl
  · rename_i unmarked
    exact absurd rfl (unmarked digits)

theorem signedDigits?_valueText (value : Int) : signedDigits? (valueText value) = some value := by
  by_cases negative : value < 0
  · rw [valueText_of_neg negative, signedDigits?, (padLeft_spec 3 _).2, Option.map_some]
    exact congrArg some (by omega)
  · have positive := Int.not_lt.mp negative
    obtain ⟨digits, denoted⟩ := padLeft_spec 4 value.natAbs
    rw [valueText_of_nonneg positive, signedDigits?_digits digits, denoted, Option.map_some]
    exact congrArg some (by omega)

theorem integer?_valueText (value : Int) :
    integer? (valueText value) = if 0 ≤ value then some value else none := by
  by_cases negative : value < 0
  · rw [valueText_of_neg negative, if_neg (Int.not_le.mpr negative), integer?, positional?_minus]
    rfl
  · have positive := Int.not_lt.mp negative
    rw [valueText_of_nonneg positive, if_pos positive, integer?, (padLeft_spec 4 _).2,
      Option.map_some]
    exact congrArg some (by omega)

/-! ## Lines -/

variable {value? : List Char → Option Int} {symbol : Symbol}

theorem notMem_name {name : String} (isName : IsName name) {c : Char}
    (separates : isNameChar c = false) (notDot : c ≠ '.') : c ∉ name.toList := by
  intro member
  obtain letter | dot := isName c member
  · rw [separates] at letter
    cases letter
  · exact notDot dot

/-- The words of the line for a symbol. -/
def words (symbol : Symbol) : List (List Char) :=
  [symbol.name.toList, ['='], valueText symbol.value] ++
    if symbol.isGlobal then [['g', 'l', 'o', 'b', 'a', 'l']] else []

theorem toList_exportText (symbol : Symbol) :
    (Listing.exportText symbol).toList = [' '].intercalate (words symbol) := by
  rw [Listing.exportText, words, valueText]
  cases symbol.isGlobal <;> simp [List.intercalate]

theorem splitOn_exportText (named : IsName symbol.name) :
    (Listing.exportText symbol).toList.splitOn ' ' = words symbol := by
  rw [toList_exportText]
  refine List.splitOn_intercalate ' ' (List.forall_mem_append.mpr ⟨?_, ?_⟩) (by simp [words])
  · simp only [List.forall_mem_cons]
    exact ⟨notMem_name named (by decide) (by decide), by decide,
      notMem_valueText (by decide) (by decide) symbol.value, nofun⟩
  · split
    · decide
    · exact nofun

theorem newline_notMem_exportText (named : IsName symbol.name) :
    '\n' ∉ (Listing.exportText symbol).toList := by
  have name : '\n' ∉ symbol.name.toList := notMem_name named (by decide) (by decide)
  have value : '\n' ∉ valueText symbol.value := notMem_valueText (by decide) (by decide) symbol.value
  rw [valueText, String.toList_append] at value
  rw [Listing.exportText]
  split <;> simp_all

theorem head?_exportText (named : IsName symbol.name) :
    (Listing.exportText symbol).toList.head? ≠ some '#' := by
  have name : '#' ∉ symbol.name.toList := notMem_name named (by decide) (by decide)
  rw [toList_exportText, words]
  cases chars : symbol.name.toList with
  | nil => simp [List.intercalate]
  | cons c rest =>
    rw [chars] at name
    have first : c ≠ '#' := fun same ↦ name (same ▸ List.mem_cons_self)
    simpa [List.intercalate] using first

/-- A line is read if its value is. -/
theorem line?_exportText (named : IsName symbol.name) :
    line? value? (Listing.exportText symbol).toList =
      (value? (valueText symbol.value)).map fun value ↦ { symbol.export with value } := by
  rw [line?, splitOn_exportText named, words, Symbol.export]
  cases symbol.isGlobal <;> simp

/-! ## Files -/

theorem splitOn_newlines {lines : List (List Char)} (within : ∀ line ∈ lines, '\n' ∉ line) :
    (lines.flatMap (· ++ ['\n'])).splitOn '\n' = lines ++ [[]] := by
  induction lines with
  | nil => rfl
  | cons line rest ih =>
    obtain ⟨here, others⟩ := List.forall_mem_cons.mp within
    rw [List.flatMap_cons, List.append_assoc, List.singleton_append,
      List.splitOn_append_cons_of_forall_mem_beq_eq_false, ih others, List.cons_append]
    · intro c member
      simpa using fun same : c = '\n' ↦ here (same ▸ member)
    · rfl

theorem toList_symbolFile (assembler : Assembler) :
    assembler.symbolFile.toList =
      ("# Symbol table".toList :: "# Generated by armasm".toList ::
        assembler.symbols.sorted.map (Listing.exportText · |>.toList)).flatMap (· ++ ['\n']) := by
  simp [Assembler.symbolFile, String.toList_join, List.flatMap_map]

/-- A file is read if the values of its symbols are. -/
theorem read?_symbolFile {assembler : Assembler} {readable : Int → Prop} [DecidablePred readable]
    (named : ∀ symbol ∈ assembler.symbols.sorted, IsName symbol.name)
    (reads : ∀ value, value? (valueText value) = if readable value then some value else none) :
    read? value? assembler.symbolFile =
      if ∀ symbol ∈ assembler.symbols.sorted, readable symbol.value then
        some (assembler.symbols.sorted.map Symbol.export)
      else none := by
  let lines := assembler.symbols.sorted.map (Listing.exportText · |>.toList)
  have within : ∀ line ∈ "# Symbol table".toList :: "# Generated by armasm".toList :: lines,
      '\n' ∉ line := by
    refine List.forall_mem_cons.mpr ⟨by decide, List.forall_mem_cons.mpr ⟨by decide, ?_⟩⟩
    intro line member
    obtain ⟨symbol, among, rfl⟩ := List.mem_map.mp member
    exact newline_notMem_exportText (named symbol among)
  have noComment : lines.dropWhile (·.head? = some '#') = lines := by
    cases sorted : assembler.symbols.sorted with
    | nil => simp [lines, sorted]
    | cons symbol rest =>
      have first : (Listing.exportText symbol).toList.head? ≠ some '#' :=
        head?_exportText (named symbol (sorted ▸ List.mem_cons_self))
      simp [lines, sorted, first]
  rw [read?, toList_symbolFile, splitOn_newlines within, List.dropLast_concat,
    List.dropWhile_cons_of_pos (by rfl), List.dropWhile_cons_of_pos (by rfl), noComment,
    List.mapM_map]
  refine mapM_eq_ite fun symbol member ↦ ?_
  rw [Function.comp_apply, line?_exportText (named symbol member), reads]
  split <;> rfl

end SymbolFile

/-! ## Symbols -/

namespace SymbolTable

variable {table : SymbolTable}

theorem find?_of_mem (distinct : table.names.Nodup) {symbol : Symbol} (among : symbol ∈ table.entries) :
    table.find? symbol.name = some symbol := by
  have some : (table.find? symbol.name).isSome :=
    List.find?_isSome.mpr ⟨symbol, among, decide_eq_true rfl⟩
  obtain ⟨found, first⟩ := Option.isSome_iff_exists.mp some
  rw [first, List.inj_on_of_nodup_map distinct (List.mem_of_find?_eq_some first) among
    (name_of_find? first)]

theorem mem_sorted {symbol : Symbol} :
    symbol ∈ table.sorted ↔ symbol ∈ table.entries ∧ symbol.isDefined = true := by
  rw [sorted, List.mem_mergeSort, defined, List.mem_filter]

theorem nodup_sorted (distinct : table.names.Nodup) : (table.sorted.map (·.name)).Nodup := by
  have perm : table.sorted.Perm table.defined := List.mergeSort_perm _ _
  have sublist : (table.defined.map (·.name)).Sublist table.names :=
    List.filter_sublist.map _
  exact (perm.map _).nodup_iff.mpr (distinct.sublist sublist)

/-- The symbols that are written are the names that are bound, with their values and marks. -/
theorem mem_map_export (distinct : table.names.Nodup) {name : String} {value : Int}
    {isGlobal : Bool} :
    ⟨name, value, isGlobal⟩ ∈ table.sorted.map Symbol.export ↔
      table.value? name = some value ∧ isGlobal = table.isGlobal name := by
  constructor
  · intro member
    obtain ⟨symbol, among, same⟩ := List.mem_map.mp member
    cases same
    obtain ⟨entry, defined⟩ := mem_sorted.mp among
    have found := find?_of_mem distinct entry
    rw [value?, isGlobal, found]
    simp [Option.filter, defined]
  · rintro ⟨bound, rfl⟩
    rw [value?] at bound
    obtain ⟨symbol, found, rfl⟩ := Option.map_eq_some_iff.mp bound
    obtain ⟨found, defined⟩ := Option.filter_eq_some_iff.mp found
    have named := name_of_find? found
    refine List.mem_map.mpr ⟨symbol, mem_sorted.mpr ⟨List.mem_of_find?_eq_some found, defined⟩, ?_⟩
    rw [Symbol.export, SymbolTable.isGlobal, found, named]
    rfl

end SymbolTable

/--
The symbol file of a program that has been assembled gives back its symbols to a reader that looks
for signs behind the radix mark: every name that is bound with its value, each of them once, and as
global just those that some statement declares. A reader of integers, whose sign is in front, gets
the same if no value is negative, and otherwise nothing.
-/
theorem Assembler.symbolFile_reads_back {assembler finished : Assembler} {source file : String}
    {code : List UInt8} (assembled : assembler.assemble source file = (.ok code, finished)) :
    ∃ program, Program.parse source file assembler.limits.nodes = .ok program ∧
      ∃ symbols : List Export,
        SymbolFile.read? SymbolFile.signedDigits? finished.symbolFile = some symbols ∧
        SymbolFile.read? SymbolFile.integer? finished.symbolFile =
          (if ∀ symbol ∈ symbols, 0 ≤ symbol.value then some symbols else none) ∧
        (symbols.map (·.name)).Nodup ∧
        ∀ name value isGlobal, ⟨name, value, isGlobal⟩ ∈ symbols ↔
          finished.symbols.value? name = some value ∧
            (isGlobal = true ↔ ∃ statement ∈ program.statements, name ∈ statement.declared) := by
  obtain ⟨program, parsed, ⟨⟨layout, laidOut, same⟩, -⟩, -⟩ := assemble_ok assembled
  obtain ⟨distinct, mentioned, global⟩ := Layout.grows_program laidOut
  rw [same] at distinct mentioned global
  have named : ∀ symbol ∈ finished.symbols.sorted, IsName symbol.name := by
    intro symbol among
    have name : symbol.name ∈ finished.symbols.names :=
      List.mem_map_of_mem (SymbolTable.mem_sorted.mp among).1
    obtain ⟨statement, member, mentions⟩ := mentioned symbol.name name
    exact (Program.named_of_parse parsed statement member).isName symbol.name mentions
  refine ⟨program, parsed, finished.symbols.sorted.map Symbol.export, ?_, ?_, ?_, ?_⟩
  · have reads (value : Int) : SymbolFile.signedDigits? (SymbolFile.valueText value) =
        if True then some value else none := SymbolFile.signedDigits?_valueText value
    rw [SymbolFile.read?_symbolFile named reads, if_pos fun _ _ ↦ trivial]
  · rw [SymbolFile.read?_symbolFile named SymbolFile.integer?_valueText]
    simp only [List.forall_mem_map]
    rfl
  · rw [List.map_map]
    exact SymbolTable.nodup_sorted distinct
  · intro name value isGlobal
    rw [SymbolTable.mem_map_export distinct, ← global, Bool.eq_iff_iff]

/-- A negative constant, a constant that is declared before it is bound, and a label. -/
theorem Assembler.symbolFile_reads_back_mixed :
    let source := ".equ k, -5\n.global n\n.equ n, 0xab\nstop:"
    let finished := ((new {}).assemble source "<input>").2
    let symbols : List Export := [⟨"k", -5, false⟩, ⟨"n", 0xab, true⟩, ⟨"stop", 0, false⟩]
    (new {}).assemble source "<input>" = (.ok [], finished) ∧
      SymbolFile.read? SymbolFile.signedDigits? finished.symbolFile = some symbols ∧
      SymbolFile.read? SymbolFile.integer? finished.symbolFile = none ∧
      ∃ program, Program.parse source "<input>" 4096 = .ok program ∧
        ∀ name value isGlobal, ⟨name, value, isGlobal⟩ ∈ symbols ↔
          finished.symbols.value? name = some value ∧
            (isGlobal = true ↔ ∃ statement ∈ program.statements, name ∈ statement.declared) := by
  intro source finished symbols
  have result : ((new {}).assemble source "<input>").1.toOption = some [] := by decide +kernel
  have accepted : (new {}).assemble source "<input>" = (.ok [], finished) := by
    cases answer : ((new {}).assemble source "<input>").1 with
    | error => rw [answer] at result; cases result
    | ok code =>
      rw [answer] at result
      cases result
      exact Prod.ext answer rfl
  have sorted : finished.symbols.sorted = finished.symbols.defined :=
    List.mergeSort_of_pairwise (by decide +kernel)
  have read : SymbolFile.read? SymbolFile.signedDigits? finished.symbolFile = some symbols := by
    rw [symbolFile, sorted]
    decide +kernel
  obtain ⟨program, parsed, found, signed, integers, -, members⟩ := symbolFile_reads_back accepted
  cases signed.symm.trans read
  exact ⟨accepted, read, integers, program, parsed, members⟩

/-- The value of a negative constant is no integer in the file, and the symbol is not read back. -/
theorem Assembler.symbolFile_negative :
    let finished := ((new {}).assemble ".equ n, -5" "<input>").2
    ((new {}).assemble ".equ n, -5" "<input>").1.toOption = some [] ∧
      finished.symbols.value? "n" = some (-5) ∧
      finished.symbolFile = "# Symbol table\n# Generated by armasm\nn = 0x-005\n" ∧
      SymbolFile.integer? "0x-005".toList = none ∧
      SymbolFile.read? SymbolFile.integer? finished.symbolFile ≠ some [⟨"n", -5, false⟩] := by
  decide +kernel

end MiniA64
