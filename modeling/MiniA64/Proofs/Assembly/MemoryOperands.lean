import MiniA64.Assembly.MemoryFields
import MiniA64.Proofs.Assembly.Derivations
import MiniA64.Proofs.Assembly.Trial.Reading
import MiniA64.Proofs.Isa.RegisterNames

/-!
# How memory operands are written

A parser that makes no node takes tokens of certain kinds from the front of a sequence, or refuses
it. What the parts of a memory operand take is known exactly, and so is what the whole of one takes:
the forms of the grammar, and besides them a post-index behind brackets with a written offset of
zero, since that offset is kept in the same way as none.
-/

namespace MiniA64

/-- What a parser takes are tokens of these kinds, and no node is made. -/
def ParserState.Takes (state : ParserState) (kinds : List TokenKind) (after : ParserState) : Prop :=
  ∃ taken, state.tokens = taken ++ after.tokens ∧ taken.map (·.kind) = kinds ∧
    after.pool = state.pool

namespace ParserState

variable {state after : ParserState} {kind : TokenKind} {kinds more : List TokenKind}

@[simp] theorem takes_nil : state.Takes [] after ↔ after = state := by
  constructor
  · rintro ⟨taken, tokens, empty, pool⟩
    obtain rfl := List.map_eq_nil_iff.mp empty
    cases state
    cases after
    cases tokens
    cases pool
    rfl
  · rintro rfl
    exact ⟨[], rfl, rfl, rfl⟩

/-- Taking a token and others is taking the others behind it. -/
theorem takes_cons (plain : kind.isFinal = false) :
    state.Takes (kind :: kinds) after ↔
      state.current.kind = kind ∧ state.advance.Takes kinds after := by
  obtain ⟨tokens, pool⟩ := state
  constructor
  · rintro ⟨taken, rfl, split, rfl⟩
    obtain ⟨token, others, rfl, rfl, rest⟩ := List.map_eq_cons_iff.mp split
    have here : (ParserState.mk (token :: others ++ after.tokens) after.pool).current = token := rfl
    have moves : (ParserState.mk (token :: others ++ after.tokens) after.pool).advance =
        ⟨others ++ after.tokens, after.pool⟩ := by
      rw [advance, here, if_neg (by rw [plain]; decide)]
      rfl
    rw [moves]
    exact ⟨rfl, others, rfl, rest, rfl⟩
  · rintro ⟨here, others, split, rest, same⟩
    cases tokens with
    | nil =>
      cases here
      cases plain
    | cons token tokens =>
      have here : token.kind = kind := here
      have moved : (ParserState.mk (token :: tokens) pool).advance = ⟨tokens, pool⟩ :=
        if_neg (by rw [current, List.headD_cons, here, plain]; decide)
      rw [moved] at split same
      exact ⟨token :: others, congrArg (token :: ·) split, by rw [List.map_cons, here, rest], same⟩

theorem takes_append :
    state.Takes (kinds ++ more) after ↔
      ∃ between, state.Takes kinds between ∧ between.Takes more after := by
  constructor
  · rintro ⟨taken, tokens, split, pool⟩
    obtain ⟨front, back, rfl, rfl, rfl⟩ := List.map_eq_append_iff.mp split
    exact ⟨⟨back ++ after.tokens, state.pool⟩, ⟨front, by rw [tokens, List.append_assoc], rfl, rfl⟩,
      back, rfl, rfl, pool⟩
  · rintro ⟨between, ⟨front, tokens, rfl, pool⟩, back, rest, rfl, same⟩
    exact ⟨front ++ back, by rw [tokens, rest, List.append_assoc], List.map_append,
      same.trans pool⟩

theorem Takes.trans {between : ParserState} (begun : state.Takes kinds between)
    (ended : between.Takes more after) : state.Takes (kinds ++ more) after :=
  takes_append.mpr ⟨between, begun, ended⟩

end ParserState

namespace Parser

variable {α β : Type} {state after : ParserState}

theorem bind_eq_ok_iff {first : Parser α} {second : α → Parser β} {result : β} :
    (first >>= second) state = .ok (result, after) ↔
      ∃ item between, first state = .ok (item, between) ∧
        second item between = .ok (result, after) := by
  constructor
  · exact bind_eq_ok
  · rintro ⟨item, between, begun, ended⟩
    rw [bind_of_ok begun, ended]

@[simp] theorem pure_eq_ok {item result : α} :
    (pure item : Parser α) state = .ok (result, after) ↔ item = result ∧ state = after := by
  show Except.ok (item, state) = _ ↔ _
  simp

@[simp] theorem refuse_ne_ok {token : Token} {error : GrammarError} {result : α} :
    refuse token error state ≠ .ok (result, after) := by
  intro done
  cases done

theorem expect_eq_ok {kind : TokenKind} (plain : kind.isFinal = false) {error : GrammarError}
    {result : Unit} :
    expect kind error state = .ok (result, after) ↔ state.Takes [kind] after := by
  rw [expect, current_bind, ParserState.takes_cons plain, ParserState.takes_nil]
  split
  · rename_i here
    simp only [here, true_and]
    exact ⟨fun done ↦ by cases done; rfl, fun done ↦ by rw [done]; rfl⟩
  · rename_i other
    simp [other]

end Parser

namespace Text

/-- An ASCII digit is the character of its value. -/
theorem digitChar_of_digitValue? {c : Char} (ascii : c.toNat < 128) :
    ∀ value ∈ digitValue? c, value < 10 ∧ c = value.digitChar :=
  Lexeme.of_ascii ascii (by decide)

/-- Digits behind a number that is not zero, as it is printed. -/
theorem toDigits_foldl {number : Nat} (positive : 0 < number) {values : List Nat}
    (digits : ∀ value ∈ values, value < 10) :
    Nat.toDigits 10 (values.foldl (fun number value ↦ 10 * number + value) number) =
      Nat.toDigits 10 number ++ values.map Nat.digitChar := by
  induction values generalizing number with
  | nil => rw [List.foldl_nil, List.map_nil, List.append_nil]
  | cons value values ih =>
    have small := digits value List.mem_cons_self
    calc Nat.toDigits 10 (values.foldl _ (10 * number + value))
        = Nat.toDigits 10 (10 * number + value) ++ values.map Nat.digitChar :=
          ih (by omega) fun other member ↦ digits other (List.mem_cons_of_mem _ member)
      _ = Nat.toDigits 10 number ++ Nat.toDigits 10 value ++ values.map Nat.digitChar := by
          rw [Nat.toDigits_append_toDigits (by decide) positive small]
      _ = Nat.toDigits 10 number ++ (value :: values).map Nat.digitChar := by
          rw [Nat.toDigits_of_lt_base small, List.append_assoc, List.map_cons,
            List.singleton_append]

/-- ASCII digits are the characters of their values. -/
theorem eq_map_digitChar {digits : List Char} {values : List Nat}
    (ascii : ∀ c ∈ digits, c.toNat < 128) (found : digits.mapM digitValue? = some values) :
    (∀ value ∈ values, value < 10) ∧ digits = values.map Nat.digitChar := by
  induction digits generalizing values with
  | nil =>
    cases found
    exact ⟨List.forall_mem_nil _, rfl⟩
  | cons c digits ih =>
    rw [List.mapM_cons] at found
    obtain ⟨value, here, found⟩ := Option.bind_eq_some_iff.mp found
    obtain ⟨others, there, found⟩ := Option.bind_eq_some_iff.mp found
    cases found
    obtain ⟨small, rfl⟩ := digitChar_of_digitValue? (ascii _ List.mem_cons_self) value here
    obtain ⟨all, rfl⟩ := ih (fun c member ↦ ascii c (List.mem_cons_of_mem _ member)) there
    exact ⟨List.forall_mem_cons.mpr ⟨small, all⟩, rfl⟩

/-- A row of ASCII digits without leading zeros is the number as it is printed. -/
theorem eq_toDigits_of_decimal {first : Char} {rest : List Char} {number : Nat}
    (ascii : ∀ c ∈ first :: rest, c.toNat < 128) (proper : ¬(first = '0' ∧ rest ≠ []))
    (read : decimal (first :: rest) = .ok number) : first :: rest = Nat.toDigits 10 number := by
  rw [decimal] at read
  split at read
  · cases read
  cases converted : (first :: rest).mapM digitValue? with
  | none => rw [converted] at read; cases read
  | some values =>
    rw [converted] at read
    obtain ⟨small, same⟩ := eq_map_digitChar ascii converted
    obtain rfl := Except.ok.inj read
    cases values with
    | nil => cases same
    | cons value others =>
      obtain ⟨rfl, rfl⟩ := List.cons_eq_cons.mp same
      obtain ⟨digit, digits⟩ := List.forall_mem_cons.mp small
      rw [List.foldl_cons, Nat.mul_zero, Nat.zero_add]
      cases others with
      | nil => exact (Nat.toDigits_of_lt_base digit).symm
      | cons second others =>
        have positive : 0 < value := by
          refine Nat.pos_of_ne_zero ?_
          rintro rfl
          exact proper ⟨rfl, List.cons_ne_nil _ _⟩
        rw [toDigits_foldl positive digits, Nat.toDigits_of_lt_base digit]
        rfl

end Text

namespace RegisterName

/-- The text of a register, without its other names. -/
def text (register : RegisterName) : String :=
  if register.isStackPointer then register.number.nameSp register.width
  else register.number.name register.width

theorem text_general (index : Fin 31) (width : Width) :
    (general index width).text = match width with
      | .w32 => "w" ++ toString index.val
      | .w64 => "x" ++ toString index.val := by
  have other := number_general_ne_special index width
  rw [text, if_neg (by simp [isStackPointer])]
  cases width <;> rw [← toNat_number_general index] <;> exact if_neg other

theorem parse_congr {name other : String} (same : Text.lower name = Text.lower other) :
    parse name = parse other := by
  rw [parse, parse, same]

theorem parse?_congr {name other : String} (same : Text.lower name = Text.lower other) :
    parse? name = parse? other := by
  rw [parse?, parse?, parse_congr same]

/-- A letter and a number as it is printed are the text of a general register. -/
theorem text_of_ofNumber? {spelled : String} {letter : Char} {digits : List Char} {width : Width}
    {number : Nat} {register : RegisterName} (split : spelled.toList = letter :: digits)
    (lettered : widthOfLetter? letter = some width) (printed : digits = Nat.toDigits 10 number)
    (numbered : ofNumber? width number = some register) : spelled = register.text := by
  unfold ofNumber? at numbered
  split at numbered
  · cases numbered
    rw [text_general, ← String.toList_inj, split, printed]
    unfold widthOfLetter? at lettered
    split at lettered <;> cases lettered <;> simp
  · cases numbered

theorem lower_of_parse? {name : String} {register : RegisterName}
    (ascii : ∀ c ∈ name.toList, c.toNat < 128) (known : parse? name = some register) :
    Text.lower name = register.text ∨
      Text.lower name = "lr" ∧ register = .general 30 .w64 := by
  have lowered : ∀ c ∈ (Text.lower name).toList, c.toNat < 128 := by
    intro c member
    rw [Text.lower, String.toList_ofList] at member
    obtain ⟨original, there, rfl⟩ := List.mem_map.mp member
    exact Text.lowerChar_lt (ascii original there)
  have read : parse name = .ok (some register) := by
    unfold parse? at known
    cases tried : parse name <;> rw [tried] at known <;> cases known
    rfl
  unfold parse at read
  generalize Text.lower name = spelled at lowered read
  dsimp only at read
  split at read
  · rename_i fixed
    obtain rfl := Option.some.inj (Except.ok.inj read)
    unfold ofFixedName? at fixed
    split at fixed <;> cases fixed <;> decide
  split at read
  · rename_i letter first rest split
    rw [split] at lowered
    split at read
    · cases read
    rename_i width lettered
    split at read
    · cases read
    split at read
    · cases read
    rename_i proper
    cases converted : Text.decimal (first :: rest) with
    | error failure => rw [converted] at read; cases read
    | ok number =>
      rw [converted] at read
      have plain : ¬(first = '0' ∧ rest ≠ []) := by
        rintro ⟨rfl, more⟩
        exact proper (by simpa using more)
      have digits := Text.eq_toDigits_of_decimal
        (fun c member ↦ lowered c (List.mem_cons_of_mem _ member)) plain converted
      exact .inl (text_of_ofNumber? split lettered digits (Except.ok.inj read))
  · cases read

theorem reads_text (register : RegisterName) :
    parse? register.text = some register ∧ Text.lower register.text = register.text := by
  cases register with
  | general index width =>
    revert index
    cases width <;> decide
  | stackPointer width => cases width <;> decide
  | zero width => cases width <;> decide

/-- In ASCII a register is read from its text, and the link register from `lr` too, in any letter
case. -/
theorem parse?_eq_some_iff {name : String} {register : RegisterName}
    (ascii : ∀ c ∈ name.toList, c.toNat < 128) :
    parse? name = some register ↔
      Text.lower name = register.text ∨
        Text.lower name = "lr" ∧ register = .general 30 .w64 := by
  refine ⟨lower_of_parse? ascii, ?_⟩
  rintro (spelled | ⟨spelled, rfl⟩)
  · obtain ⟨reads, lowered⟩ := register.reads_text
    rw [parse?_congr (spelled.trans lowered.symm), reads]
  · rw [@parse?_congr _ "lr" (spelled.trans (by decide))]
    decide

end RegisterName

theorem MemoryOperand.fields_injective {first second : MemoryOperand}
    (same : first.fields = second.fields) : first = second := by
  obtain ⟨base, form⟩ := first
  obtain ⟨other, shape⟩ := second
  cases form <;> cases shape <;> simp_all [MemoryOperand.fields]

namespace MemoryFields

/-- A number as it is written, with or without a sign. -/
inductive Numeral : List TokenKind → Int → Prop
  | plain (value : Int) : Numeral [.number value] value
  | negated (value : Int) : Numeral [.minus, .number value] (-value)

/-- A number inside the brackets, which may have a hash in front of it. -/
inductive Offset : List TokenKind → Int → Prop
  | plain {kinds : List TokenKind} {value : Int} (number : Numeral kinds value) :
      Offset kinds value
  | hashed {kinds : List TokenKind} {value : Int} (number : Numeral kinds value) :
      Offset (.hash :: kinds) value

/-- The name means a base register: a general register of 64 bits, or the stack pointer. -/
def IsBase (name : String) (base : Reg) : Prop :=
  RegisterName.parse? name = some (base.stackName .w64)

/-- The name means an index register: a general register of 64 bits, or the zero register. -/
def IsIndex (name : String) (index : Reg) : Prop :=
  RegisterName.parse? name = some (index.dataName .w64)

/-- What may stand after an opening bracket, with the fields it fills in. -/
inductive Written : List TokenKind → MemoryFields → Prop
  | bare {name base} (register : IsBase name base) :
      Written [.identifier name, .rightBracket] { base }
  | offset {name base kinds value} (register : IsBase name base) (number : Offset kinds value) :
      Written (.identifier name :: .comma :: kinds ++ [.rightBracket]) { base, offset := value }
  | index {name base other index} (register : IsBase name base) (added : IsIndex other index) :
      Written [.identifier name, .comma, .identifier other, .rightBracket]
        { base, index? := some index }
  | preBare {name base} (register : IsBase name base) :
      Written [.identifier name, .rightBracket, .bang] { base, preIndex := true }
  | preOffset {name base kinds value} (register : IsBase name base) (number : Offset kinds value) :
      Written (.identifier name :: .comma :: kinds ++ [.rightBracket, .bang])
        { base, offset := value, preIndex := true }
  | post {name base kinds value} (register : IsBase name base) (number : Numeral kinds value) :
      Written (.identifier name :: .rightBracket :: .comma :: .hash :: kinds)
        { base, offset := value, postIndex := true }
  /-- An offset of zero inside the brackets is taken for none. -/
  | postZero {name base zeros kinds value} (register : IsBase name base) (none : Offset zeros 0)
      (number : Numeral kinds value) :
      Written (.identifier name :: .comma :: zeros ++ .rightBracket :: .comma :: .hash :: kinds)
        { base, offset := value, postIndex := true }

variable {opening : Token} {state after : ParserState} {node result : MemoryFields}

/-! ## What the parts take -/

theorem signedNumber_eq_ok {error : GrammarError} {value : Int} :
    Parser.signedNumber error state = .ok (value, after) ↔
      ∃ kinds, Numeral kinds value ∧ state.Takes kinds after := by
  have digits (state : ParserState) (found : Int) :
      Parser.number error state = .ok (found, after) ↔ state.Takes [.number found] after := by
    rw [Parser.number, Parser.current_bind, ParserState.takes_cons rfl, ParserState.takes_nil]
    cases kind : state.current.kind <;>
      simp [Parser.advance_bind, eq_comm (a := after)]
  rw [Parser.signedNumber, Parser.accept_bind]
  constructor
  · split
    · rename_i minus
      intro done
      obtain ⟨found, between, taken, last⟩ := Parser.bind_eq_ok done
      obtain ⟨rfl, rfl⟩ := Parser.pure_eq_ok.mp last
      exact ⟨_, .negated found, (ParserState.takes_cons rfl).mpr ⟨minus, (digits ..).mp taken⟩⟩
    · intro done
      obtain ⟨found, between, taken, last⟩ := Parser.bind_eq_ok done
      obtain ⟨rfl, rfl⟩ := Parser.pure_eq_ok.mp last
      exact ⟨_, .plain found, (digits ..).mp taken⟩
  · rintro ⟨_, value | value, taken⟩
    · have here := ((ParserState.takes_cons rfl).mp taken).1
      rw [if_neg (by rw [here]; simp)]
      exact Parser.bind_eq_ok_iff.mpr ⟨_, _, (digits ..).mpr taken, rfl⟩
    · obtain ⟨minus, taken⟩ := (ParserState.takes_cons rfl).mp taken
      rw [if_pos minus]
      exact Parser.bind_eq_ok_iff.mpr ⟨_, _, (digits ..).mpr taken, rfl⟩

theorem register_eq_ok {error : GrammarError} {register : RegisterName} :
    Grammar.register error state = .ok (register, after) ↔
      ∃ name, RegisterName.parse? name = some register ∧
        state.Takes [.identifier name] after := by
  rw [Grammar.register, Parser.current_bind]
  have plain (name : String) : (TokenKind.identifier name).isFinal = false := rfl
  simp only [ParserState.takes_cons (plain _), ParserState.takes_nil]
  cases kind : state.current.kind with
  | identifier name =>
    dsimp only
    cases known : RegisterName.parse? name with
    | none =>
      simp only [Parser.refuse_ne_ok, false_iff]
      rintro ⟨_, found, same, _⟩
      cases same
      cases known.symm.trans found
    | some found =>
      simp only [Parser.advance_bind, Parser.pure_eq_ok, TokenKind.identifier.injEq]
      constructor
      · rintro ⟨rfl, rfl⟩
        exact ⟨name, known, rfl, rfl⟩
      · rintro ⟨_, other, rfl, rfl⟩
        exact ⟨Option.some.inj (known.symm.trans other), rfl⟩
  | _ => simp

theorem baseRegister_eq_ok {base : Reg} :
    Grammar.baseRegister opening state = .ok (base, after) ↔
      ∃ name, IsBase name base ∧ state.Takes [.identifier name] after := by
  rw [Grammar.baseRegister, Parser.bind_eq_ok_iff]
  constructor
  · rintro ⟨register, between, read, last⟩
    obtain ⟨name, known, taken⟩ := register_eq_ok.mp read
    split at last
    · cases last
    rename_i wide
    split at last
    · cases last
    rename_i plain
    obtain ⟨rfl, rfl⟩ := Parser.pure_eq_ok.mp last
    have fits : register.StackAt .w64 :=
      ⟨Bool.eq_false_iff.mpr plain, by cases width : register.width <;> simp_all⟩
    exact ⟨name, known.trans (congrArg some fits.eq_stackName), taken⟩
  · rintro ⟨name, known, taken⟩
    refine ⟨_, after, register_eq_ok.mpr ⟨name, known, taken⟩, ?_⟩
    rw [if_neg (by simp), if_neg (by simp), Reg.number_stackName]
    rfl

theorem indexRegister_eq_ok {index : Reg} :
    Grammar.indexRegister opening state = .ok (index, after) ↔
      ∃ name, IsIndex name index ∧ state.Takes [.identifier name] after := by
  rw [Grammar.indexRegister, Parser.bind_eq_ok_iff]
  constructor
  · rintro ⟨register, between, read, last⟩
    obtain ⟨name, known, taken⟩ := register_eq_ok.mp read
    split at last
    · cases last
    rename_i proper
    obtain ⟨rfl, rfl⟩ := Parser.pure_eq_ok.mp last
    have fits : register.DataAt .w64 := by
      constructor
      · cases stack : register.isStackPointer <;> simp_all
      · cases width : register.width <;> simp_all
    exact ⟨name, known.trans (congrArg some fits.eq_dataName), taken⟩
  · rintro ⟨name, known, taken⟩
    refine ⟨_, after, register_eq_ok.mpr ⟨name, known, taken⟩, ?_⟩
    rw [if_neg (by simp), Reg.number_dataName]
    rfl

/-- Nothing is added inside the brackets, or an offset or an index after a comma. -/
theorem displaced_eq_ok :
    displaced opening node state = .ok (result, after) ↔
      (state.current.kind ≠ .comma ∧ node = result ∧ state = after) ∨
      ∃ kinds, state.Takes (.comma :: kinds) after ∧
        ((∃ value, Offset kinds value ∧ { node with offset := value } = result) ∨
          ∃ name index, IsIndex name index ∧ kinds = [.identifier name] ∧
            { node with index? := some index } = result) := by
  have plain : TokenKind.comma.isFinal = false := rfl
  rw [displaced, Parser.accept_bind]
  split
  case isFalse none => simp [none, ParserState.takes_cons plain]
  case isTrue comma =>
  simp only [comma, ne_eq, not_true_eq_false, false_and, false_or, true_and, if_true,
    ParserState.takes_cons plain]
  generalize state.advance = state
  rw [Parser.accept_bind]
  constructor
  · split
    · rename_i hash
      intro done
      obtain ⟨value, between, read, last⟩ := Parser.bind_eq_ok done
      obtain ⟨rfl, rfl⟩ := Parser.pure_eq_ok.mp last
      obtain ⟨kinds, number, taken⟩ := signedNumber_eq_ok.mp read
      exact ⟨_, (ParserState.takes_cons rfl).mpr ⟨hash, taken⟩, .inl ⟨value, .hashed number, rfl⟩⟩
    · rw [if_neg Bool.false_ne_true, Parser.current_bind]
      intro done
      cases kind : state.current.kind with
      | identifier =>
        rw [kind] at done
        obtain ⟨index, between, read, last⟩ := Parser.bind_eq_ok done
        obtain ⟨rfl, rfl⟩ := Parser.pure_eq_ok.mp last
        obtain ⟨name, known, taken⟩ := indexRegister_eq_ok.mp read
        exact ⟨_, taken, .inr ⟨name, index, known, rfl, rfl⟩⟩
      | _ =>
        rw [kind] at done
        obtain ⟨value, between, read, last⟩ := Parser.bind_eq_ok done
        obtain ⟨rfl, rfl⟩ := Parser.pure_eq_ok.mp last
        obtain ⟨kinds, number, taken⟩ := signedNumber_eq_ok.mp read
        exact ⟨_, taken, .inl ⟨value, .plain number, rfl⟩⟩
  · rintro ⟨kinds, taken, ⟨value, number | number, rfl⟩ | ⟨name, index, known, rfl, rfl⟩⟩
    · have read : Parser.signedNumber .indexOrOffset state = .ok (value, after) :=
        signedNumber_eq_ok.mpr ⟨_, number, taken⟩
      have first : state.current.kind ≠ .hash ∧ ∀ name, state.current.kind ≠ .identifier name := by
        cases number <;> simp [((ParserState.takes_cons rfl).mp taken).1]
      rw [if_neg first.1, if_neg Bool.false_ne_true, Parser.current_bind]
      cases kind : state.current.kind with
      | identifier name => exact absurd kind (first.2 name)
      | _ => exact Parser.bind_eq_ok_iff.mpr ⟨value, after, read, rfl⟩
    · obtain ⟨hash, taken⟩ := (ParserState.takes_cons rfl).mp taken
      rw [if_pos hash]
      exact Parser.bind_eq_ok_iff.mpr ⟨value, after, signedNumber_eq_ok.mpr ⟨_, number, taken⟩, rfl⟩
    · have here := ((ParserState.takes_cons rfl).mp taken).1
      rw [if_neg (by rw [here]; simp), if_neg Bool.false_ne_true, Parser.current_bind, here]
      exact Parser.bind_eq_ok_iff.mpr
        ⟨index, after, indexRegister_eq_ok.mpr ⟨name, known, taken⟩, rfl⟩

/-- The mark for a pre-index is set where an exclamation mark follows, and only without an index. -/
theorem preIndexed_eq_ok :
    preIndexed opening node state = .ok (result, after) ↔
      (state.current.kind ≠ .bang ∧ node = result ∧ state = after) ∨
      (state.Takes [.bang] after ∧ node.index? = none ∧
        { node with preIndex := true } = result) := by
  have plain : TokenKind.bang.isFinal = false := rfl
  rw [preIndexed, Parser.accept_bind]
  split
  case isFalse none => simp [none, ParserState.takes_cons plain]
  case isTrue bang =>
  simp only [bang, ParserState.takes_cons plain, ParserState.takes_nil, if_true]
  cases node.index? <;> simp [and_comm, eq_comm (a := after)]

/-- A post-index follows what has neither a mark nor an index, and no offset but zero. -/
theorem postIndexed_eq_ok :
    postIndexed opening node state = .ok (result, after) ↔
      (¬(state.current.kind = .comma ∧ state.following = .hash) ∧ node = result ∧ state = after) ∨
      ∃ kinds value, state.Takes (.comma :: .hash :: kinds) after ∧ Numeral kinds value ∧
        node.preIndex = false ∧ node.index? = none ∧ node.offset = 0 ∧
          { node with offset := value, postIndex := true } = result := by
  have ahead {kinds : List TokenKind} : state.Takes (.comma :: .hash :: kinds) after ↔
      (state.current.kind = .comma ∧ state.following = .hash) ∧
        state.advance.advance.Takes kinds after := by
    rw [ParserState.takes_cons rfl, ParserState.takes_cons rfl, and_assoc]
    refine and_congr_right fun comma ↦ ?_
    rw [ParserState.kind_advance (by rw [comma]; rfl)]
  rw [postIndexed, Parser.current_bind, Parser.following_bind]
  split
  case isFalse none => simp [ahead, none]
  case isTrue follows =>
  simp only [ahead, follows, not_true_eq_false, false_and, false_or, true_and, and_self]
  constructor
  · intro done
    split at done
    · cases done
    rename_i unmarked
    split at done
    · cases done
    rename_i bare
    rw [Parser.advance_bind, Parser.advance_bind] at done
    obtain ⟨value, between, read, last⟩ := Parser.bind_eq_ok done
    obtain ⟨rfl, rfl⟩ := Parser.pure_eq_ok.mp last
    obtain ⟨kinds, number, taken⟩ := signedNumber_eq_ok.mp read
    simp only [not_or, Bool.not_eq_true, Option.isSome_eq_false_iff, Option.isNone_iff_eq_none,
      ne_eq, Decidable.not_not] at unmarked bare
    exact ⟨kinds, value, taken, number, unmarked, bare.1, bare.2, rfl⟩
  · rintro ⟨kinds, value, taken, number, unmarked, plain, zero, rfl⟩
    have read : Parser.signedNumber .postIndexOffset _ = .ok (value, after) :=
      signedNumber_eq_ok.mpr ⟨_, number, taken⟩
    rw [if_neg (by rw [unmarked]; simp), if_neg (by rw [plain, zero]; simp), Parser.advance_bind,
      Parser.advance_bind]
    exact Parser.bind_eq_ok_iff.mpr ⟨value, after, read, rfl⟩

/-! ## Whole memory operands -/

/-- Nothing behind a memory operand could still belong to it. -/
def Ended (node : MemoryFields) (after : ParserState) : Prop :=
  node.postIndex = false →
    (node.preIndex = false → after.current.kind ≠ .bang) ∧
      ¬(after.current.kind = .comma ∧ after.following = .hash)

/-- What stands between the brackets, up to the closing one. -/
inductive Inside : List TokenKind → MemoryFields → Prop
  | bare {name base} (register : IsBase name base) :
      Inside [.identifier name, .rightBracket] { base }
  | offset {name base kinds value} (register : IsBase name base) (number : Offset kinds value) :
      Inside (.identifier name :: .comma :: kinds ++ [.rightBracket]) { base, offset := value }
  | index {name base other index} (register : IsBase name base) (added : IsIndex other index) :
      Inside [.identifier name, .comma, .identifier other, .rightBracket]
        { base, index? := some index }

/-- A memory operand is what stands between brackets, perhaps with a mark or an offset behind. -/
theorem written_iff {kinds : List TokenKind} :
    Written kinds node ↔
      Inside kinds node ∨
      (∃ front inside, Inside front inside ∧ inside.index? = none ∧ front ++ [.bang] = kinds ∧
        { inside with preIndex := true } = node) ∨
      (∃ front inside more value, Inside front inside ∧ inside.index? = none ∧ inside.offset = 0 ∧
        Numeral more value ∧ front ++ .comma :: .hash :: more = kinds ∧
          { inside with offset := value, postIndex := true } = node) := by
  constructor
  · rintro (register | ⟨register, number⟩ | ⟨register, added⟩ | register | ⟨register, number⟩ |
      ⟨register, number⟩ | ⟨register, zero, number⟩)
    · exact .inl (.bare register)
    · exact .inl (.offset register number)
    · exact .inl (.index register added)
    · exact .inr (.inl ⟨_, _, .bare register, rfl, rfl, rfl⟩)
    · exact .inr (.inl ⟨_, _, .offset register number, rfl, by simp, rfl⟩)
    · exact .inr (.inr ⟨_, _, _, _, .bare register, rfl, rfl, number, rfl, rfl⟩)
    · exact .inr (.inr ⟨_, _, _, _, .offset register zero, rfl, rfl, number, by simp, rfl⟩)
  · rintro (inside | ⟨front, inside, within, plain, rfl, rfl⟩ |
      ⟨front, inside, more, value, within, plain, zero, number, rfl, rfl⟩)
    · obtain register | ⟨register, number⟩ | ⟨register, added⟩ := inside
      · exact .bare register
      · exact .offset register number
      · exact .index register added
    · obtain register | ⟨register, number⟩ | _ := within
      · exact .preBare register
      · rw [List.append_assoc]
        exact .preOffset register number
      · cases plain
    · obtain register | ⟨register, none⟩ | _ := within
      · exact .post register number
      · cases zero
        rw [List.append_assoc]
        exact .postZero register none number
      · cases plain

/-- The parts of a memory operand up to its closing bracket. -/
theorem inside_iff :
    (∃ base first second, Grammar.baseRegister opening state = .ok (base, first) ∧
      displaced opening { base } first = .ok (node, second) ∧
      second.Takes [.rightBracket] after) ↔
      ∃ kinds, Inside kinds node ∧ state.Takes kinds after := by
  constructor
  · rintro ⟨base, first, second, named, added, closed⟩
    obtain ⟨name, register, named⟩ := baseRegister_eq_ok.mp named
    obtain ⟨-, rfl, rfl⟩ | ⟨kinds, comma, ⟨value, number, rfl⟩ | ⟨other, index, known, rfl, rfl⟩⟩ :=
      displaced_eq_ok.mp added
    · exact ⟨_, .bare register, named.trans closed⟩
    · exact ⟨_, .offset register number, (named.trans comma).trans closed⟩
    · exact ⟨_, .index register known, (named.trans comma).trans closed⟩
  · rintro ⟨_, @⟨name, base, register⟩ | @⟨name, base, kinds, value, register, number⟩ |
      @⟨name, base, other, index, register, known⟩, taken⟩
    · obtain ⟨first, named, closed⟩ := (@ParserState.takes_append _ _ [_] _).mp taken
      have bracket := ((ParserState.takes_cons rfl).mp closed).1
      exact ⟨base, first, first, baseRegister_eq_ok.mpr ⟨name, register, named⟩,
        displaced_eq_ok.mpr (.inl ⟨by rw [bracket]; simp, rfl, rfl⟩), closed⟩
    · obtain ⟨second, front, closed⟩ := ParserState.takes_append.mp taken
      obtain ⟨first, named, comma⟩ := (@ParserState.takes_append _ _ [_] _).mp front
      exact ⟨base, first, second, baseRegister_eq_ok.mpr ⟨name, register, named⟩,
        displaced_eq_ok.mpr (.inr ⟨kinds, comma, .inl ⟨value, number, rfl⟩⟩), closed⟩
    · obtain ⟨first, named, others⟩ := (@ParserState.takes_append _ _ [_] _).mp taken
      obtain ⟨second, comma, closed⟩ := (@ParserState.takes_append _ _ [_, _] _).mp others
      exact ⟨base, first, second, baseRegister_eq_ok.mpr ⟨name, register, named⟩,
        displaced_eq_ok.mpr (.inr ⟨_, comma, .inr ⟨other, index, known, rfl, rfl⟩⟩), closed⟩

theorem Inside.unmarked {kinds : List TokenKind} (inside : Inside kinds node) :
    node.preIndex = false ∧ node.postIndex = false := by
  cases inside <;> exact ⟨rfl, rfl⟩

/-- A memory operand is read up to its closing bracket, and then what is or is not behind it. -/
theorem read_eq_ok_parts :
    read opening state = .ok (node, after) ↔
      ∃ front inside third marked fourth, Inside front inside ∧ state.Takes front third ∧
        preIndexed opening inside third = .ok (marked, fourth) ∧
        postIndexed opening marked fourth = .ok (node, after) := by
  constructor
  · intro done
    obtain ⟨base, first, named, done⟩ := Parser.bind_eq_ok done
    obtain ⟨inside, second, added, done⟩ := Parser.bind_eq_ok done
    obtain ⟨_, third, closed, done⟩ := Parser.bind_eq_ok done
    obtain ⟨marked, fourth, pre, post⟩ := Parser.bind_eq_ok done
    obtain ⟨front, within, taken⟩ := inside_iff.mp
      ⟨base, first, second, named, added, (Parser.expect_eq_ok rfl).mp closed⟩
    exact ⟨front, inside, third, marked, fourth, within, taken, pre, post⟩
  · rintro ⟨front, inside, third, marked, fourth, within, taken, pre, post⟩
    obtain ⟨base, first, second, named, added, closed⟩ := inside_iff.mpr ⟨front, within, taken⟩
    exact Parser.bind_eq_ok_iff.mpr ⟨base, first, named, Parser.bind_eq_ok_iff.mpr
      ⟨inside, second, added, Parser.bind_eq_ok_iff.mpr
        ⟨(), third, (Parser.expect_eq_ok rfl).mpr closed, Parser.bind_eq_ok_iff.mpr
          ⟨marked, fourth, pre, post⟩⟩⟩⟩

/-- The fields of a memory operand are filled in from what is written, up to where it ends. -/
theorem read_eq_ok :
    read opening state = .ok (node, after) ↔
      ∃ kinds, Written kinds node ∧ state.Takes kinds after ∧ node.Ended after := by
  rw [read_eq_ok_parts]
  constructor
  · rintro ⟨front, inside, third, marked, fourth, within, taken, pre, post⟩
    obtain ⟨plain, rfl, rfl⟩ | ⟨bang, only, rfl⟩ := preIndexed_eq_ok.mp pre
    · obtain ⟨free, rfl, rfl⟩ | ⟨more, value, later, number, -, only, zero, rfl⟩ :=
        postIndexed_eq_ok.mp post
      · exact ⟨_, written_iff.mpr (.inl within), taken, fun _ ↦ ⟨fun _ ↦ plain, free⟩⟩
      · exact ⟨_, written_iff.mpr (.inr (.inr ⟨_, _, _, _, within, only, zero, number, rfl, rfl⟩)),
          taken.trans later, nofun⟩
    · obtain ⟨free, rfl, rfl⟩ | ⟨_, _, _, _, none, _⟩ := postIndexed_eq_ok.mp post
      · exact ⟨_, written_iff.mpr (.inr (.inl ⟨_, _, within, only, rfl, rfl⟩)), taken.trans bang,
          fun _ ↦ ⟨nofun, free⟩⟩
      · cases none
  · rintro ⟨kinds, written, taken, ended⟩
    obtain within | ⟨front, inside, within, plain, rfl, rfl⟩ |
      ⟨front, inside, more, value, within, plain, zero, number, rfl, rfl⟩ := written_iff.mp written
    · obtain ⟨here, free⟩ := ended within.unmarked.2
      exact ⟨kinds, node, after, node, after, within, taken,
        preIndexed_eq_ok.mpr (.inl ⟨here within.unmarked.1, rfl, rfl⟩),
        postIndexed_eq_ok.mpr (.inl ⟨free, rfl, rfl⟩)⟩
    · obtain ⟨third, taken, bang⟩ := ParserState.takes_append.mp taken
      exact ⟨front, inside, third, _, after, within, taken,
        preIndexed_eq_ok.mpr (.inr ⟨bang, plain, rfl⟩),
        postIndexed_eq_ok.mpr (.inl ⟨(ended within.unmarked.2).2, rfl, rfl⟩)⟩
    · obtain ⟨third, taken, later⟩ := ParserState.takes_append.mp taken
      have comma := ((ParserState.takes_cons rfl).mp later).1
      exact ⟨front, inside, third, inside, third, within, taken,
        preIndexed_eq_ok.mpr (.inl ⟨by rw [comma]; simp, rfl, rfl⟩),
        postIndexed_eq_ok.mpr
          (.inr ⟨more, value, later, number, within.unmarked.1, plain, zero, rfl⟩)⟩

/-! ## The grammar of all operands -/

theorem displaced_eq (opening : Token) (base : Reg) :
    displaced opening { base } = do
      let form ← Grammar.displacement opening
      return MemoryOperand.fields ⟨base, form⟩ := by
  rw [displaced, Grammar.displacement, bind_assoc]
  refine bind_congr fun comma ↦ ?_
  cases comma with
  | false => rfl
  | true =>
    simp only [if_true, bind_assoc]
    refine bind_congr fun hash ↦ ?_
    cases hash with
    | true =>
      simp only [if_true, bind_assoc, pure_bind]
      rfl
    | false =>
      simp only [Bool.false_eq_true, if_false, bind_assoc]
      refine bind_congr fun token ↦ ?_
      cases token.kind <;> simp only [bind_assoc, pure_bind] <;> rfl

/-- A post-index is read in the same way from the fields as from the form. -/
theorem postIndexed_eq (opening : Token) (base : Reg) (form : MemoryForm)
    (before : ∀ bytes, form ≠ .postIndex bytes) :
    postIndexed opening (MemoryOperand.fields ⟨base, form⟩) = do
      let form ← Grammar.postIndexed opening form
      return MemoryOperand.fields ⟨base, form⟩ := by
  unfold postIndexed Grammar.postIndexed
  simp only [bind_assoc]
  refine bind_congr fun token ↦ bind_congr fun next ↦ ?_
  split
  · cases form with
    | preIndex bytes => rfl
    | postIndex bytes => exact absurd rfl (before bytes)
    | index register => rfl
    | offset bytes =>
      cases bytes with
      | ofNat n =>
        cases n with
        | zero => simp [MemoryOperand.fields]
        | succ n => rfl
      | negSucc n => rfl
  · rfl

theorem preIndexed_eq (opening : Token) (base : Reg) (inside : MemoryForm)
    (unmarked : ∀ bytes, inside ≠ .preIndex bytes ∧ inside ≠ .postIndex bytes) :
    (do
      let marked ← preIndexed opening (MemoryOperand.fields ⟨base, inside⟩)
      postIndexed opening marked) = (do
      let form ← Grammar.preIndexed opening inside
      let form ← Grammar.postIndexed opening form
      return MemoryOperand.fields ⟨base, form⟩) := by
  unfold preIndexed Grammar.preIndexed
  simp only [bind_assoc]
  refine bind_congr fun bang ↦ ?_
  cases inside with
  | preIndex bytes => exact absurd rfl (unmarked bytes).1
  | postIndex bytes => exact absurd rfl (unmarked bytes).2
  | index register =>
    cases bang with
    | true => rfl
    | false => exact postIndexed_eq opening base _ nofun
  | offset bytes =>
    cases bang with
    | true => exact postIndexed_eq opening base (.preIndex bytes) nofun
    | false => exact postIndexed_eq opening base _ nofun

/-- Between the brackets there is no mark yet. -/
theorem unmarked_of_displacement {form : MemoryForm}
    (added : Grammar.displacement opening state = .ok (form, after)) (bytes : Int) :
    form ≠ .preIndex bytes ∧ form ≠ .postIndex bytes := by
  have filled (base : Reg) : displaced opening { base } state =
      .ok (MemoryOperand.fields ⟨base, form⟩, after) := by
    rw [displaced_eq]
    exact Parser.bind_eq_ok_iff.mpr ⟨form, after, added, rfl⟩
  have plain : (MemoryOperand.fields ⟨Reg.special, form⟩).preIndex = false ∧
      (MemoryOperand.fields ⟨Reg.special, form⟩).postIndex = false := by
    obtain ⟨-, same, -⟩ | ⟨_, _, ⟨_, _, same⟩ | ⟨_, _, _, _, same⟩⟩ :=
      displaced_eq_ok.mp (filled Reg.special) <;>
      exact same ▸ ⟨rfl, rfl⟩
  constructor <;> rintro rfl
  · cases plain.1
  · cases plain.2

/-- The fields are those of the memory operand that the grammar reads. -/
theorem read_eq (opening : Token) :
    read opening = do
      let operand ← Grammar.memory opening
      return operand.fields := by
  simp only [read, Grammar.memory, bind_assoc, displaced_eq, pure_bind]
  refine bind_congr fun base ↦ ?_
  funext state
  show Grammar.displacement opening state >>= _ = Grammar.displacement opening state >>= _
  cases added : Grammar.displacement opening state with
  | error failure => rfl
  | ok found =>
    obtain ⟨form, between⟩ := found
    have behind := preIndexed_eq opening base form (unmarked_of_displacement added)
    exact congrFun (congrArg (fun rest : Parser MemoryFields ↦
      Parser.expect .rightBracket .closingBracket >>= fun _ ↦ rest) behind) between

theorem operand_eq_ok {slot : Nat} (bracket : state.current.kind = .leftBracket) :
    operand state = .ok ((slot, node), after) ↔
      ∃ kinds last, Written kinds node ∧ state.Takes (.leftBracket :: kinds) last ∧
        node.Ended last ∧ Parser.allocate state.current.location last = .ok (slot, after) := by
  have plain : TokenKind.leftBracket.isFinal = false := rfl
  rw [operand, Parser.current_bind, Parser.advance_bind]
  simp only [ParserState.takes_cons plain, bracket, true_and]
  constructor
  · intro done
    obtain ⟨found, last, taken, done⟩ := Parser.bind_eq_ok done
    obtain ⟨number, next, allocated, done⟩ := Parser.bind_eq_ok done
    obtain ⟨same, rfl⟩ := Parser.pure_eq_ok.mp done
    cases same
    obtain ⟨kinds, written, taken, ended⟩ := read_eq_ok.mp taken
    exact ⟨kinds, last, written, taken, ended, allocated⟩
  · rintro ⟨kinds, last, written, taken, ended, allocated⟩
    exact Parser.bind_eq_ok_iff.mpr ⟨node, last, read_eq_ok.mpr ⟨kinds, written, taken, ended⟩,
      Parser.bind_eq_ok_iff.mpr ⟨slot, after, allocated, rfl⟩⟩

/-- What the grammar reads as an operand from an opening bracket on. -/
theorem grammar_operand_eq_ok {found : Operand} (bracket : state.current.kind = .leftBracket) :
    Grammar.operand state = .ok (found, after) ↔
      ∃ memory, found.kind = .memory memory ∧ found.location = state.current.location ∧
        operand state = .ok ((found.slot, memory.fields), after) := by
  have kind : Grammar.operandKind state.current = (do
      Parser.advance
      return .memory (← Grammar.memory state.current)) := by
    rw [Grammar.operandKind, bracket]
  rw [Grammar.operand, Parser.current_bind, kind, operand, Parser.current_bind, Parser.advance_bind,
    read_eq, bind_assoc, bind_assoc, Parser.advance_bind]
  simp only [bind_assoc, pure_bind, Parser.bind_eq_ok_iff, Parser.pure_eq_ok]
  constructor
  · rintro ⟨memory, last, read, slot, next, allocated, rfl, rfl⟩
    exact ⟨memory, rfl, rfl, memory, last, read, slot, next, allocated, rfl, rfl⟩
  · rintro ⟨memory, kind, place, other, last, read, slot, next, allocated, same, rfl⟩
    obtain ⟨rfl, fields⟩ := Prod.mk.inj same
    obtain rfl := MemoryOperand.fields_injective fields
    refine ⟨other, last, read, found.slot, next, allocated, ?_, rfl⟩
    cases found
    cases kind
    cases place
    rfl

/-- At most one way of writing the base is marked, and none with an index, which has no offset. -/
theorem Written.consistent {kinds : List TokenKind} (written : Written kinds node) :
    ¬(node.preIndex ∧ node.postIndex) ∧
      (node.index?.isSome → node.offset = 0 ∧ ¬node.preIndex ∧ ¬node.postIndex) := by
  cases written <;> simp

/-- In ASCII a base register is written `x0` to `x30`, `lr` or `sp`, in any letter case. -/
theorem isBase_iff {name : String} {base : Reg} (ascii : ∀ c ∈ name.toList, c.toNat < 128) :
    IsBase name base ↔
      Text.lower name = base.nameSp .w64 ∨ Text.lower name = "lr" ∧ base = Reg.link := by
  have shown : (base.stackName .w64).text = base.nameSp .w64 ∧
      (base.stackName .w64 = .general 30 .w64 ↔ base = Reg.link) := by
    revert base
    decide
  rw [IsBase, RegisterName.parse?_eq_some_iff ascii, shown.1, shown.2]

/-- In ASCII an index register is written `x0` to `x30`, `lr` or `xzr`, in any letter case. -/
theorem isIndex_iff {name : String} {index : Reg} (ascii : ∀ c ∈ name.toList, c.toNat < 128) :
    IsIndex name index ↔
      Text.lower name = index.name .w64 ∨ Text.lower name = "lr" ∧ index = Reg.link := by
  have shown : (index.dataName .w64).text = index.name .w64 ∧
      (index.dataName .w64 = .general 30 .w64 ↔ index = Reg.link) := by
    revert index
    decide
  rw [IsIndex, RegisterName.parse?_eq_some_iff ascii, shown.1, shown.2]

/-- From an opening bracket on, the forms of the grammar are operands with the fields that they fill
in, and so is a post-index behind a written offset of zero; nothing else is one. Base and index are
the registers of their spellings, and the marks and the index exclude each other. -/
theorem operand_accepted_iff (bracket : state.current.kind = .leftBracket) :
    (∀ slot node after, operand state = .ok ((slot, node), after) ↔
      ∃ kinds last, Written kinds node ∧ state.Takes (.leftBracket :: kinds) last ∧
        node.Ended last ∧ Parser.allocate state.current.location last = .ok (slot, after)) ∧
    (∀ found after, Grammar.operand state = .ok (found, after) ↔
      ∃ memory, found.kind = .memory memory ∧ found.location = state.current.location ∧
        operand state = .ok ((found.slot, memory.fields), after)) ∧
    (∀ slot node after, operand state = .ok ((slot, node), after) →
      ¬(node.preIndex ∧ node.postIndex) ∧
        (node.index?.isSome → node.offset = 0 ∧ ¬node.preIndex ∧ ¬node.postIndex)) ∧
    ∀ name register, (∀ c ∈ name.toList, c.toNat < 128) →
      (IsBase name register ↔ Text.lower name = register.nameSp .w64 ∨
        Text.lower name = "lr" ∧ register = Reg.link) ∧
      (IsIndex name register ↔ Text.lower name = register.name .w64 ∨
        Text.lower name = "lr" ∧ register = Reg.link) := by
  refine ⟨fun slot node after ↦ operand_eq_ok bracket,
    fun found after ↦ grammar_operand_eq_ok bracket, fun slot node after accepted ↦ ?_,
    fun name register ascii ↦ ⟨isBase_iff ascii, isIndex_iff ascii⟩⟩
  obtain ⟨kinds, last, written, -⟩ := (operand_eq_ok bracket).mp accepted
  exact written.consistent

/-- A push through the stack pointer is read as a pre-index. -/
theorem operand_accepted_push :
    let state : ParserState := ⟨(Cursor.start "[sp, #-16]!" 1).tokens "<input>", ⟨1, 0⟩⟩
    state.current.kind = .leftBracket ∧ ∃ kinds, Written kinds
      { base := Reg.special, offset := -16, preIndex := true } := by
  intro state
  have bracket : state.current.kind = .leftBracket := by decide +kernel
  have read : (operand state).toOption.map (·.1) =
      some (0, { base := Reg.special, offset := -16, preIndex := true }) := by decide +kernel
  cases accepted : operand state with
  | error failure => rw [accepted] at read; cases read
  | ok found =>
    obtain ⟨⟨slot, node⟩, after⟩ := found
    rw [accepted] at read
    cases read
    obtain ⟨kinds, last, written, -⟩ := ((operand_accepted_iff bracket).1 ..).mp accepted
    exact ⟨bracket, kinds, written⟩

/-- A post-index is accepted although the brackets are not bare. -/
theorem operand_accepted_zeroOffset :
    let state : ParserState := ⟨(Cursor.start "[x1, #0], #8" 1).tokens "<input>", ⟨1, 0⟩⟩
    state.tokens.map (·.kind) = [.leftBracket, .identifier "x1", .comma, .hash, .number 0,
      .rightBracket, .comma, .hash, .number 8, .endOfInput] ∧
    (operand state).toOption.map (·.1) =
      some (0, { base := 1, offset := 8, postIndex := true }) := by
  decide +kernel

end MemoryFields

end MiniA64
