import MiniA64.Isa.Printing
import MiniA64.Proofs.Assembly.Lexing
import MiniA64.Proofs.Assembly.Parsing
import MiniA64.Proofs.Isa.RegisterNames

/-!
# Operands as they are written

The operands that printing makes use of, with the text of each, the tokens that the text is read
as, and the operand that the tokens are parsed to. A statement of such operands is read back to
its spelling and its operands.
-/

namespace MiniA64

/-- An operand as it is printed. -/
inductive Written
  /-- A register where number 31 is the zero register. -/
  | data (reg : Reg) (width : Width)
  /-- A register where number 31 is the stack pointer. -/
  | stack (reg : Reg) (width : Width)
  | immediate (value : Int)
  /-- A number that is always decimal. -/
  | count (value : Nat)
  | shift (kind : ShiftKind) (amount : Nat)
  | barrier (option : BitVec 4)
  | memory (operand : MemoryOperand)
  deriving DecidableEq, Repr

namespace Written

def text : Written → String
  | data reg width => reg.name width
  | stack reg width => reg.nameSp width
  | immediate value => Printing.immediate value
  | count value => "#" ++ toString value
  | shift kind amount => kind.name ++ " #" ++ toString amount
  | barrier option => (Barrier.optionName? option).getD ("#" ++ toString option.toNat)
  | memory ⟨base, .offset bytes⟩ => Printing.memory base bytes
  | memory ⟨base, .index rm⟩ => Printing.bracketed [base.nameSp .w64, rm.name .w64]
  | memory ⟨base, .preIndex bytes⟩ =>
    Printing.bracketed [base.nameSp .w64, Printing.immediate bytes] ++ "!"
  | memory ⟨base, .postIndex bytes⟩ =>
    Printing.bracketed [base.nameSp .w64] ++ ", " ++ Printing.immediate bytes

/-- The operand that is written. -/
def kind : Written → OperandKind
  | data reg width => .register (reg.dataName width)
  | stack reg width => .register (reg.stackName width)
  | immediate value => .immediate value
  | count value => .immediate value
  | shift kind amount => .shift kind amount
  | barrier option =>
    match Barrier.optionName? option with
    | some name => .symbol name
    | none => .immediate option.toNat
  | memory operand => .memory operand

def tokens : Written → List TokenKind
  | data reg width => [.identifier (reg.name width)]
  | stack reg width => [.identifier (reg.nameSp width)]
  | immediate value => [.hash, .number value]
  | count value => [.hash, .number value]
  | shift kind amount => [.identifier kind.name, .hash, .number amount]
  | barrier option =>
    match Barrier.optionName? option with
    | some name => [.identifier name]
    | none => [.hash, .number option.toNat]
  | memory ⟨base, .offset bytes⟩ =>
    if bytes = 0 then [.leftBracket, .identifier (base.nameSp .w64), .rightBracket]
    else
      [.leftBracket, .identifier (base.nameSp .w64), .comma, .hash, .number bytes, .rightBracket]
  | memory ⟨base, .index rm⟩ =>
    [.leftBracket, .identifier (base.nameSp .w64), .comma, .identifier (rm.name .w64),
      .rightBracket]
  | memory ⟨base, .preIndex bytes⟩ =>
    [.leftBracket, .identifier (base.nameSp .w64), .comma, .hash, .number bytes, .rightBracket,
      .bang]
  | memory ⟨base, .postIndex bytes⟩ =>
    [.leftBracket, .identifier (base.nameSp .w64), .rightBracket, .comma, .hash, .number bytes]

def isMemory : Written → Bool
  | memory _ => true
  | _ => false

/-! ## Reading a text -/

open Lexeme

theorem isSpelling_nameSp (reg : Reg) (width : Width) :
    isSpelling (reg.nameSp width).toList = true := by
  revert reg
  cases width <;> decide

theorem isSpelling_name (reg : Reg) (width : Width) :
    isSpelling (reg.name width).toList = true := by
  revert reg
  cases width <;> decide

theorem open_name {name : String} (spelled : isSpelling name.toList = true) :
    Open name.toList [.identifier name] := by
  have read := piece_spelling spelled
  rwa [String.ofList_toList] at read

theorem toList_toString (number : Nat) : (toString number).toList = Nat.toDigits 10 number := by
  rw [Nat.toString_eq_repr, Nat.toList_repr]

theorem toList_toString_int (value : Int) :
    (toString value).toList =
      if value < 0 then '-' :: Nat.toDigits 10 value.natAbs else Nat.toDigits 10 value.natAbs := by
  cases value with
  | ofNat number => exact Nat.toList_repr
  | negSucc number =>
    show ("-" ++ Nat.repr (number + 1)).toList = _
    rw [String.toList_append, Nat.toList_repr, if_pos (Int.negSucc_lt_zero number)]
    rfl

/-- An immediate is a hash with a numeral and a sign if it is negative. -/
theorem toList_immediate (value : Int) :
    ∃ digits, Denotes digits value.natAbs ∧
      (Printing.immediate value).toList =
        '#' :: if value < 0 then '-' :: digits else digits := by
  rw [Printing.immediate]
  split
  · refine ⟨_, denotes_decimal value.natAbs, ?_⟩
    rw [String.toList_append, toList_toString_int]
    rfl
  · refine ⟨_, denotes_hexadecimal 0 value.natAbs, ?_⟩
    rw [String.toList_append, Text.hex]
    split <;> simp [Text.lowerDigits]

theorem isToken_hash : IsToken (fun _ ↦ True) ['#'] .hash := (isToken_punctuation (by simp)).1

/-- Behind the hash of an immediate there is one number, whatever its sign and its radix are. -/
theorem exists_isToken_number (value : Int) :
    ∃ numeral, IsToken Ends numeral (.number value) ∧ '\n' ∉ numeral ∧
      (Printing.immediate value).toList = '#' :: numeral := by
  obtain ⟨digits, denotes, text⟩ := toList_immediate value
  have signed : (if value < 0 then -(value.natAbs : Int) else value.natAbs) = value := by omega
  have number := isToken_number denotes (value < 0)
  simp only [decide_eq_true_eq, signed] at number
  refine ⟨_, number, ?_, text⟩
  split
  · exact List.not_mem_cons_of_ne_of_not_mem (by decide) denotes.notMem_newline
  · exact denotes.notMem_newline

theorem open_immediate (value : Int) :
    Open (Printing.immediate value).toList [.hash, .number value] := by
  obtain ⟨numeral, number, -, text⟩ := exists_isToken_number value
  have hash : Mark ['#'] [.hash] := isToken_hash.piece rfl
  rw [text]
  exact hash.append (number.piece rfl) fun _ _ ↦ trivial

theorem open_count (number : Nat) :
    Open ("#" ++ toString number).toList [.hash, .number number] := by
  have hash : Mark ['#'] [.hash] := isToken_hash.piece rfl
  rw [String.toList_append, toList_toString]
  exact hash.append (piece_number (denotes_decimal number) false) fun _ _ ↦ trivial

/-- Two pieces with a comma between them. -/
theorem open_separated {first second : String} {kinds more : List TokenKind}
    (h₁ : Open first.toList kinds) (h₂ : Open second.toList more) :
    Open (first ++ ", " ++ second).toList (kinds ++ .comma :: more) := by
  have comma : Mark [','] [.comma] := mark_punctuation (by simp)
  have separator := comma.append mark_blank fun _ _ ↦ trivial
  have tail := separator.append h₂ fun _ _ ↦ trivial
  rw [String.toList_append, String.toList_append, List.append_assoc]
  exact h₁.append tail fun rest _ ↦ ends_cons (by decide) (by decide) _

theorem mark_bracketed {inside : String} {kinds : List TokenKind} (h : Open inside.toList kinds) :
    Mark ("[" ++ inside ++ "]").toList (.leftBracket :: kinds ++ [.rightBracket]) := by
  have left : Mark ['['] [.leftBracket] := mark_punctuation (by simp)
  have right : Mark [']'] [.rightBracket] := mark_punctuation (by simp)
  have opened := left.append h fun _ _ ↦ trivial
  rw [String.toList_append, String.toList_append]
  exact opened.append right fun rest _ ↦ ends_cons (by decide) (by decide) _

theorem bracketed_one (item : String) : Printing.bracketed [item] = "[" ++ item ++ "]" := by
  rw [Printing.bracketed, Printing.operands, String.intercalate_singleton]

theorem bracketed_two (first second : String) :
    Printing.bracketed [first, second] = "[" ++ (first ++ ", " ++ second) ++ "]" := by
  rw [Printing.bracketed, Printing.operands, String.intercalate_cons_cons,
    String.intercalate_singleton]

theorem open_shift (kind : ShiftKind) (amount : Nat) :
    Open (kind.name ++ " #" ++ toString amount).toList
      [.identifier kind.name, .hash, .number amount] := by
  have name : Open kind.name.toList [.identifier kind.name] :=
    open_name (by cases kind <;> decide)
  have blank := mark_blank.append (open_count amount) fun _ _ ↦ trivial
  have text : (kind.name ++ " #" ++ toString amount).toList =
      kind.name.toList ++ ([' '] ++ ("#" ++ toString amount).toList) := by
    simp [String.toList_append]
  rw [text]
  exact name.append blank fun rest _ ↦ ends_cons (by decide) (by decide) _

theorem isSpelling_option :
    ∀ option : BitVec 4, ∀ name ∈ Barrier.optionName? option, isSpelling name.toList = true := by
  decide

/-- The text of an operand is read as its tokens. -/
theorem open_text (written : Written) : Open written.text.toList written.tokens := by
  cases written with
  | data reg width => exact open_name (isSpelling_name reg width)
  | stack reg width => exact open_name (isSpelling_nameSp reg width)
  | immediate value => exact open_immediate value
  | count value => exact open_count value
  | shift kind amount => exact open_shift kind amount
  | barrier option =>
    rw [text, tokens]
    cases hname : Barrier.optionName? option with
    | none => exact open_count _
    | some name => exact open_name (isSpelling_option option name hname)
  | memory operand =>
    obtain ⟨base, form⟩ := operand
    have base' := open_name (isSpelling_nameSp base .w64)
    cases form with
    | offset bytes =>
      rw [text, tokens, Printing.memory]
      split
      · rw [bracketed_one]
        exact (mark_bracketed base').open
      · rw [bracketed_two]
        exact (mark_bracketed (open_separated base' (open_immediate bytes))).open
    | index rm =>
      rw [text, tokens, bracketed_two]
      exact (mark_bracketed (open_separated base' (open_name (isSpelling_name rm .w64)))).open
    | preIndex bytes =>
      rw [text, tokens, bracketed_two, String.toList_append]
      have bang : Mark ['!'] [.bang] := mark_punctuation (by simp)
      exact Mark.open ((mark_bracketed (open_separated base' (open_immediate bytes))).append bang
        fun _ _ ↦ trivial)
    | postIndex bytes =>
      rw [text, tokens, bracketed_one]
      exact open_separated (mark_bracketed base').open (open_immediate bytes)

/-! ## Parsing the tokens -/

open MiniA64.Parser

section

variable {after : List TokenKind} {name : String} {register : RegisterName}

theorem yields_named (known : RegisterName.parse? name = some register) :
    Yields (Grammar.named name) [.identifier name] after 0 (· = .register register) := by
  rw [Grammar.named, known]
  exact .advance rfl (yields_pure rfl)

theorem yields_symbol (unknown : RegisterName.parse? name = none)
    (noShift : ShiftKind.ofName? (Text.lower name) = none) :
    Yields (Grammar.named name) [.identifier name] after 0 (· = .symbol name) := by
  rw [Grammar.named, unknown]
  simp only [noShift]
  exact .advance rfl (yields_pure rfl)

theorem yields_shift (kind : ShiftKind) (amount : Nat) :
    Yields (Grammar.named kind.name) [.identifier kind.name, .hash, .number amount] after 0
      (· = .shift kind amount) := by
  have unknown : RegisterName.parse? kind.name = none := by cases kind <;> decide
  have known : ShiftKind.ofName? (Text.lower kind.name) = some kind := by cases kind <;> decide
  rw [Grammar.named, unknown]
  simp only [known]
  refine .following rfl ?_
  rw [if_pos rfl]
  refine .advance rfl (.advance rfl ((yields_signedNumber amount _).map fun value h ↦ ?_))
  exact yields_pure (by rw [h])

theorem yields_number (value : Int) :
    Yields Grammar.immediateOrSymbol [.number value] after 0 (· = .immediate value) := by
  refine .current rfl fun token here ↦ ?_
  simp only [here]
  exact (yields_signedNumber value _).map fun result h ↦ yields_pure (by rw [h])

theorem yields_register (error : GrammarError)
    (known : RegisterName.parse? name = some register) :
    Yields (Grammar.register error) [.identifier name] after 0 (· = register) := by
  refine .current rfl fun token here ↦ ?_
  simp only [here, known]
  exact .advance rfl (yields_pure rfl)

theorem yields_base (opening : Token) (base : Reg) :
    Yields (Grammar.baseRegister opening) [.identifier (base.nameSp .w64)] after 0 (· = base) := by
  apply (yields_register _ (base.parse?_nameSp .w64)).map
  intro register h
  subst h
  simp only [Reg.width_stackName, Reg.isZero_stackName, Reg.number_stackName, reduceCtorEq,
    if_false, Bool.false_eq_true]
  exact yields_pure rfl

theorem yields_index (opening : Token) (index : Reg) :
    Yields (Grammar.indexRegister opening) [.identifier (index.name .w64)] after 0
      (· = index) := by
  apply (yields_register _ (index.parse?_name .w64)).map
  intro register h
  subst h
  simp only [Reg.width_dataName, Reg.isStackPointer_dataName, Reg.number_dataName, reduceCtorEq,
    decide_false, Bool.or_self, if_false, Bool.false_eq_true]
  exact yields_pure rfl

/-! ### Memory operands -/

variable (opening : Token)

theorem yields_noDisplacement :
    Yields (Grammar.displacement opening) [] (.rightBracket :: after) 0 (· = .offset 0) :=
  .acceptOther (by simp) rfl (yields_pure rfl)

theorem yields_displacement (bytes : Int) :
    Yields (Grammar.displacement opening) [.comma, .hash, .number bytes] after 0
      (· = .offset bytes) := by
  refine .accept rfl (.accept rfl ?_)
  exact (yields_signedNumber bytes _).map fun value h ↦ yields_pure (by rw [h])

theorem yields_indexed (index : Reg) :
    Yields (Grammar.displacement opening) [.comma, .identifier (index.name .w64)] after 0
      (· = .index index) := by
  refine .accept rfl (.acceptOther (by simp) rfl (.current rfl fun token here ↦ ?_))
  simp only [here]
  exact (yields_index opening index).map fun result h ↦ yields_pure (by rw [h])

theorem yields_notPreIndexed {kind : TokenKind} (inside : MemoryForm) (ne : kind ≠ .bang) :
    Yields (Grammar.preIndexed opening inside) [] (kind :: after) 0 (· = inside) :=
  .acceptOther ne rfl (yields_pure rfl)

theorem yields_preIndexed (bytes : Int) :
    Yields (Grammar.preIndexed opening (.offset bytes)) [.bang] after 0 (· = .preIndex bytes) :=
  .accept rfl (yields_pure rfl)

theorem yields_notPostIndexed {kind : TokenKind} (form : MemoryForm) (ne : kind ≠ .comma) :
    Yields (Grammar.postIndexed opening form) [] (kind :: after) 0 (· = form) := by
  refine .current rfl fun token here ↦ .followingAny fun next ↦ ?_
  rw [if_neg fun both ↦ ne (here.symm.trans both.1)]
  exact yields_pure rfl

theorem yields_postIndexed (bytes : Int) :
    Yields (Grammar.postIndexed opening (.offset 0)) [.comma, .hash, .number bytes] after 0
      (· = .postIndex bytes) := by
  refine .current rfl fun token here ↦ .following rfl ?_
  rw [if_pos ⟨here, rfl⟩]
  refine .advance rfl (.advance rfl ?_)
  exact (yields_signedNumber bytes _).map fun value h ↦ yields_pure (by rw [h])

/-- The parts of a memory operand after its opening bracket. -/
theorem yields_memory {displaced indexed posted : List TokenKind} {base : Reg}
    {inside form final : MemoryForm}
    (h₁ : Yields (Grammar.displacement opening) displaced
      (.rightBracket :: (indexed ++ posted) ++ after) 0 (· = inside))
    (h₂ : Yields (Grammar.preIndexed opening inside) indexed (posted ++ after) 0 (· = form))
    (h₃ : Yields (Grammar.postIndexed opening form) posted after 0 (· = final)) :
    Yields (Grammar.memory opening)
      (.identifier (base.nameSp .w64) :: (displaced ++ .rightBracket :: (indexed ++ posted)))
      after 0 (· = ⟨base, final⟩) := by
  apply (yields_base opening base).andThen
  intro found hbase
  apply h₁.andThen
  intro found' hinside
  subst hbase hinside
  refine .expect rfl (h₂.andThen fun found hform ↦ ?_)
  subst hform
  exact h₃.map fun found hfinal ↦ yields_pure (by rw [hfinal])

end

theorem yields_hash {token : Token} (here : token.kind = .hash) (value : Int)
    {after : List TokenKind} :
    Yields (Grammar.operandKind token) [.hash, .number value] after 0 (· = .immediate value) := by
  rw [Grammar.operandKind]
  simp only [here]
  exact .advance rfl (yields_number value)

theorem yields_identifier {token : Token} {name : String} {after rest : List TokenKind}
    {kind : OperandKind} (here : token.kind = .identifier name)
    (named : Yields (Grammar.named name) rest after 0 (· = kind)) :
    Yields (Grammar.operandKind token) rest after 0 (· = kind) := by
  rw [Grammar.operandKind]
  simp only [here]
  exact named

theorem yields_bracket {token : Token} {operand : MemoryOperand} {inside after : List TokenKind}
    (here : token.kind = .leftBracket)
    (memory : Yields (Grammar.memory token) inside after 0 (· = operand)) :
    Yields (Grammar.operandKind token) (.leftBracket :: inside) after 0 (· = .memory operand) := by
  rw [Grammar.operandKind]
  simp only [here]
  exact .advance rfl (memory.map fun found h ↦ yields_pure (by rw [h]))

theorem noRegister_option :
    ∀ option : BitVec 4, ∀ name ∈ Barrier.optionName? option,
      RegisterName.parse? name = none ∧ ShiftKind.ofName? (Text.lower name) = none := by
  decide

/-- The kind of an operand is parsed from its tokens. -/
theorem yields_kind (written : Written) {token : Token} {stop here : TokenKind}
    {rest first : List TokenKind} (tokens : written.tokens = here :: first)
    (current : token.kind = here)
    (last : written.isMemory = true → stop ≠ .comma ∧ stop ≠ .bang) :
    Yields (Grammar.operandKind token) written.tokens (stop :: rest) 0 (· = written.kind) := by
  cases written with
  | data reg width =>
    cases tokens
    exact yields_identifier current (yields_named (reg.parse?_name width))
  | stack reg width =>
    cases tokens
    exact yields_identifier current (yields_named (reg.parse?_nameSp width))
  | immediate value =>
    cases tokens
    exact yields_hash current value
  | count value =>
    cases tokens
    exact yields_hash current value
  | shift kind amount =>
    cases tokens
    exact yields_identifier current (yields_shift kind amount)
  | barrier option =>
    rw [Written.tokens] at tokens ⊢
    rw [Written.kind]
    cases hname : Barrier.optionName? option with
    | none =>
      rw [hname] at tokens
      cases tokens
      exact yields_hash current _
    | some name =>
      rw [hname] at tokens
      cases tokens
      obtain ⟨unknown, noShift⟩ := noRegister_option option name hname
      exact yields_identifier current (yields_symbol unknown noShift)
  | memory operand =>
    obtain ⟨notComma, notBang⟩ := last rfl
    obtain ⟨base, form⟩ := operand
    cases form with
    | offset bytes =>
      rw [Written.tokens] at tokens ⊢
      split at tokens
      · rename_i zero
        subst zero
        cases tokens
        rw [if_pos rfl]
        exact yields_bracket current (yields_memory token (yields_noDisplacement token)
          (yields_notPreIndexed token _ notBang) (yields_notPostIndexed token _ notComma))
      · rename_i nonzero
        cases tokens
        rw [if_neg nonzero]
        exact yields_bracket current (yields_memory token (yields_displacement token bytes)
          (yields_notPreIndexed token _ notBang) (yields_notPostIndexed token _ notComma))
    | index rm =>
      cases tokens
      exact yields_bracket current (yields_memory token (yields_indexed token rm)
        (yields_notPreIndexed token _ notBang) (yields_notPostIndexed token _ notComma))
    | preIndex bytes =>
      cases tokens
      exact yields_bracket current (yields_memory token (yields_displacement token bytes)
        (yields_preIndexed token bytes) (yields_notPostIndexed token _ notComma))
    | postIndex bytes =>
      cases tokens
      exact yields_bracket current (yields_memory token (yields_noDisplacement token)
        (yields_notPreIndexed token _ (by simp)) (yields_postIndexed token bytes))

theorem tokens_eq_cons (written : Written) :
    ∃ here first, written.tokens = here :: first ∧
      here ≠ .newline ∧ here ≠ .endOfInput ∧ here ≠ .colon := by
  cases written with
  | data | stack | immediate | count | shift => exact ⟨_, _, rfl, nofun, nofun, nofun⟩
  | barrier option =>
    rw [tokens]
    split <;> exact ⟨_, _, rfl, nofun, nofun, nofun⟩
  | memory operand =>
    obtain ⟨base, form⟩ := operand
    cases form with
    | offset bytes =>
      rw [tokens]
      split <;> exact ⟨_, _, rfl, nofun, nofun, nofun⟩
    | index | preIndex | postIndex => exact ⟨_, _, rfl, nofun, nofun, nofun⟩

/-- An operand is parsed from its tokens, and takes a node. -/
theorem yields_operand (written : Written) {stop : TokenKind} {rest : List TokenKind}
    (last : written.isMemory = true → stop ≠ .comma ∧ stop ≠ .bang) :
    Yields Grammar.operand written.tokens (stop :: rest) 1 (·.kind = written.kind) := by
  obtain ⟨here, first, tokens, -⟩ := written.tokens_eq_cons
  refine .current (by rw [tokens]; rfl) fun token current ↦ ?_
  exact (yields_kind written tokens current last).node fun found slot hkind ↦ hkind

end Written

/-! ## Statements -/

/-- A statement as it is printed. -/
structure Sentence where
  mnemonic : Mnemonic
  spelling : String
  operands : List Written

namespace Sentence

open Lexeme MiniA64.Parser

def text (sentence : Sentence) : String :=
  Printing.line sentence.spelling (sentence.operands.map Written.text)

def tokens (sentence : Sentence) : List TokenKind :=
  .identifier sentence.spelling :: listed Written.tokens sentence.operands

/-- The spelling is one name and known, and only the last operand is in memory. -/
structure Proper (sentence : Sentence) : Prop where
  spelled : isSpelling sentence.spelling.toList = true
  known : Mnemonic.ofSpelling? sentence.spelling = some sentence.mnemonic
  last : sentence.operands.dropLast.all (!·.isMemory) = true

/-- Operands with commas between them are read as their tokens. -/
theorem open_operands (first : Written) (others : List Written) :
    Open (", ".intercalate ((first :: others).map Written.text)).toList
      (listed Written.tokens (first :: others)) := by
  induction others generalizing first with
  | nil =>
    rw [List.map_cons, List.map_nil, String.intercalate_singleton, listed, List.flatMap_nil,
      List.append_nil]
    exact first.open_text
  | cons second others ih =>
    rw [List.map_cons, List.map_cons, String.intercalate_cons_cons]
    have rest := ih second
    rw [List.map_cons] at rest
    exact Written.open_separated first.open_text rest

/-- The text of a statement is read as its tokens. -/
theorem open_text (sentence : Sentence) (spelled : isSpelling sentence.spelling.toList = true) :
    Open sentence.text.toList sentence.tokens := by
  have name := Written.open_name spelled
  rw [text, tokens, Printing.line]
  cases hoperands : sentence.operands with
  | nil => exact name
  | cons first others =>
    have spaced := mark_blank.append (open_operands first others) fun _ _ ↦ trivial
    rw [if_neg (by simp), String.toList_append, String.toList_append, List.append_assoc]
    exact name.append spaced fun rest _ ↦ ends_cons (by decide) (by decide) _

/-! ### Parsing a statement -/

/-- What ends a statement, and what is left after it: the end of the input is not taken. -/
inductive Ending : List TokenKind → List TokenKind → Prop
  | newline (after : List TokenKind) : Ending [.newline] after
  | input (after : List TokenKind) : Ending [] (.endOfInput :: after)

variable {ending after : List TokenKind}

theorem Ending.stop (ends : Ending ending after) :
    ∃ stop rest, ending ++ after = stop :: rest ∧ (stop = .newline ∨ stop = .endOfInput) := by
  cases ends with
  | newline => exact ⟨_, _, rfl, .inl rfl⟩
  | input => exact ⟨_, _, rfl, .inr rfl⟩

theorem yields_endOfStatement (ends : Ending ending after) :
    Yields Grammar.endOfStatement ending after 0 fun _ ↦ True := by
  cases ends with
  | newline =>
    refine .current rfl fun token here ↦ ?_
    simp only [here]
    exact yields_advance rfl
  | input =>
    refine .current rfl fun token here ↦ ?_
    simp only [here]
    exact yields_pure trivial

theorem yields_operands (operands : List Written)
    (last : operands.dropLast.all (!·.isMemory) = true) (ends : Ending ending after) :
    Yields (Grammar.operandList Grammar.operand Grammar.operand_shrinks)
      (listed Written.tokens operands) (ending ++ after) operands.length
      (·.map (·.kind) = operands.map Written.kind) := by
  obtain ⟨stop, rest, split, ending'⟩ := ends.stop
  rw [split]
  cases operands with
  | nil =>
    refine .current rfl fun token here ↦ ?_
    rcases ending' with rfl | rfl <;> simp only [here] <;> exact yields_pure rfl
  | cons first others =>
    obtain ⟨here, tail, tokens, notNewline, notEnd, -⟩ := first.tokens_eq_cons
    refine .current (by rw [listed, tokens]; rfl) fun token current ↦ ?_
    have separated : Yields (commaSeparated Grammar.operand Grammar.operand_shrinks)
        (listed Written.tokens (first :: others)) (stop :: rest) (first :: others).length
        (·.map (·.kind) = (first :: others).map Written.kind) := by
      refine yields_commaSeparated _ (by rcases ending' with rfl | rfl <;> simp) first others
        fun before next after split ↦ ?_
      cases after with
      | nil =>
        refine next.yields_operand fun _ ↦ ?_
        rcases ending' with rfl | rfl <;> simp
      | cons second more =>
        refine next.yields_operand fun memory ↦ ?_
        rw [split] at last
        simp [List.dropLast_append_of_ne_nil, memory] at last
    split
    · rename_i newline
      exact absurd (current.symm.trans newline) notNewline
    · rename_i end'
      exact absurd (current.symm.trans end') notEnd
    · exact separated

theorem yields_instruction (sentence : Sentence) (proper : sentence.Proper) (first : Token)
    (ends : Ending ending after) :
    Yields (Grammar.instruction first sentence.spelling)
      (listed Written.tokens sentence.operands ++ ending) after (sentence.operands.length + 1)
      fun statement ↦ ∃ operands,
        statement.kind = .instruction sentence.mnemonic sentence.spelling operands ∧
          operands.map (·.kind) = sentence.operands.map Written.kind := by
  rw [Grammar.instruction, proper.known]
  apply (yields_operands sentence.operands proper.last ends).bind
  intro operands hoperands
  refine .allocate fun slot ↦ ?_
  apply (yields_endOfStatement ends).map
  intro _ _
  exact yields_pure ⟨operands, rfl, hoperands⟩

/-- What comes after the spelling does not make it a label. -/
theorem exists_next (operands : List Written) (ends : Ending ending after) :
    ∃ next rest, listed Written.tokens operands ++ ending ++ after = next :: rest ∧
      next ≠ .colon := by
  cases operands with
  | nil =>
    obtain ⟨stop, rest, split, ending'⟩ := ends.stop
    refine ⟨stop, rest, split, ?_⟩
    rcases ending' with rfl | rfl <;> simp
  | cons first others =>
    obtain ⟨here, tail, tokens, -, -, notColon⟩ := first.tokens_eq_cons
    rw [listed, tokens]
    exact ⟨here, _, rfl, notColon⟩

/-- A statement is parsed from its tokens and takes a node for itself and for each operand. -/
theorem yields_statement (sentence : Sentence) (proper : sentence.Proper)
    (ends : Ending ending after) :
    Yields Grammar.statement? (sentence.tokens ++ ending) after (sentence.operands.length + 1)
      fun result ↦ ∃ statement, result = some (some statement) ∧ ∃ operands,
        statement.kind = .instruction sentence.mnemonic sentence.spelling operands ∧
          operands.map (·.kind) = sentence.operands.map Written.kind := by
  obtain ⟨next, rest, split, notColon⟩ := exists_next sentence.operands ends
  refine .current rfl fun first here ↦ .following (congrArg _ split) ?_
  simp only [here]
  refine .advance rfl ?_
  have named : Grammar.namedStatement first sentence.spelling next =
      Grammar.instruction first sentence.spelling := by
    unfold Grammar.namedStatement
    split
    · exact absurd rfl notColon
    · rfl
  rw [named]
  apply (sentence.yields_instruction proper first ends).map
  intro statement found
  exact yields_pure ⟨statement, rfl, found⟩

theorem yields_end :
    Yields Grammar.statement? [] [.endOfInput] 0 (· = none) := by
  refine .current rfl fun first here ↦ .followingAny fun next ↦ ?_
  simp only [here]
  exact yields_pure rfl

end Sentence

end MiniA64
