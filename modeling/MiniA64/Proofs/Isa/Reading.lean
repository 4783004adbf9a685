import MiniA64.Isa.Encoding
import MiniA64.Proofs.Isa.Families

/-!
# Reading back what is encoded

An encoding is a concatenation of fields, so a field of a word is read back by walking down the
concatenation to the piece that lies at its place. The codes of the operations are read back by
their own decoders. Together with the statements about the families this gives the main result:
decoding the word of an instruction gives the instruction, for every instruction and all values
of its fields.
-/

namespace MiniA64

/-! ## Bits of a concatenation -/

theorem getLsbD_append_high {v w i : Nat} {high : BitVec v} {low : BitVec w} (h : w ≤ i) :
    (high ++ low).getLsbD i = high.getLsbD (i - w) := by
  rw [BitVec.getLsbD_append, if_neg (by omega)]

theorem getLsbD_append_low {v w i : Nat} {high : BitVec v} {low : BitVec w} (h : i < w) :
    (high ++ low).getLsbD i = low.getLsbD i := by
  rw [BitVec.getLsbD_append, if_pos h]

@[simp] theorem getElem_flag (set : Bool) : (flag set)[0] = set := by
  cases set <;> rfl

/-! ## Codes are read back -/

@[simp] theorem Width.ofBit_bit (width : Width) : Width.ofBit width.bit[0] = width := by
  cases width <;> rfl

@[simp] theorem AddSubOp.ofBit_bit (op : AddSubOp) : AddSubOp.ofBit op.bit[0] = op := by
  cases op <;> rfl

@[simp] theorem ShiftKind.ofCode_code (kind : ShiftKind) : ShiftKind.ofCode kind.code = kind := by
  cases kind <;> rfl

@[simp] theorem LinearShift.ofKind?_kind (shift : LinearShift) :
    LinearShift.ofKind? shift.kind = some shift := by
  cases shift <;> rfl

@[simp] theorem LogicalOp.ofCode_code (op : LogicalOp) : LogicalOp.ofCode op.code = op := by
  cases op <;> rfl

@[simp] theorem MoveWideOp.ofCode?_code (op : MoveWideOp) :
    MoveWideOp.ofCode? op.code = some op := by
  cases op <;> rfl

@[simp] theorem TwoSourceOp.ofCode?_code (op : TwoSourceOp) :
    TwoSourceOp.ofCode? op.code = some op := by
  cases op with
  | udiv => rfl
  | sdiv => rfl
  | shift kind => cases kind <;> rfl

@[simp] theorem Transfer.ofCodes?_code (transfer : Transfer) :
    Transfer.ofCodes? transfer.sizeCode transfer.code = some transfer := by
  revert transfer
  rintro (size | size | size | size) <;> revert size <;> decide

@[simp] theorem IndexExtend.ofCode?_code (extend : IndexExtend) :
    IndexExtend.ofCode? extend.code = some extend := by
  cases extend <;> rfl

@[simp] theorem LiteralLoad.ofCode?_code (load : LiteralLoad) :
    LiteralLoad.ofCode? load.code = some load := by
  cases load <;> rfl

@[simp] theorem PairMode.ofCode_code (mode : PairMode) : PairMode.ofCode mode.code = mode := by
  cases mode <;> rfl

/-- The window of a wide move fits its two-bit field. -/
@[simp] theorem MoveWideOp.window_mod {width : Width} (window : Fin (width.bits / 16)) :
    window.val % 4 = window.val :=
  Nat.mod_eq_of_lt (Nat.lt_of_lt_of_le window.isLt (by cases width <;> decide))

/-- A bit number fits its six-bit field. -/
@[simp] theorem Decoding.bitNumber_bitNumber {width : Width} (index : Fin width.bits) :
    Decoding.bitNumber width (MiniA64.bitNumber index) = some index := by
  have below : index.val < 64 := Nat.lt_of_lt_of_le index.isLt (by cases width <;> decide)
  have number : (MiniA64.bitNumber index).toNat = index.val := by
    simp [MiniA64.bitNumber, Nat.mod_eq_of_lt below]
  simp [Decoding.bitNumber, number]

namespace Decoding

variable {word : Word} {width : Width}

/-- The operands of a wide move, once the width that their types depend on is known. -/
theorem moveWide_eq {op : MoveWideOp} {window : Fin (width.bits / 16)}
    (hwidth : Decoding.width word = width) (hop : MoveWideOp.ofCode? (word.field 29 2) = some op)
    (hwindow : (word.field 21 2).toNat = window.val) :
    moveWide word = some (.moveWide width op window (word.field 5 16) (rd word)) := by
  subst hwidth
  simp [moveWide, hop, hwindow]

theorem bitfield_eq {signed : Bool} {rotate last : Fin width.bits}
    (hwidth : Decoding.width word = width) (clear : word.bit 29 = false)
    (same : word.bit 22 = word.bit 31) (hsigned : word.bit 30 = !signed)
    (hrotate : word.field 16 6 = MiniA64.bitNumber rotate)
    (hlast : word.field 10 6 = MiniA64.bitNumber last) :
    bitfield word = some (.bitfield width signed rotate last (rn word) (rd word)) := by
  subst hwidth
  simp [bitfield, clear, same, hsigned, hrotate, hlast]

theorem extract_eq {low : Fin width.bits} (hwidth : Decoding.width word = width)
    (same : word.bit 22 = word.bit 31) (hlow : word.field 10 6 = MiniA64.bitNumber low) :
    extract word = some (.extract width low (rm word) (rn word) (rd word)) := by
  subst hwidth
  simp [extract, same, hlow]

end Decoding

namespace Instruction

/-- Decoding reads back every instruction that is encoded. -/
theorem decode_encode (instruction : Instruction) :
    decode instruction.encode = .ok instruction := by
  cases instruction
  -- Each instruction is found by the statement about its family.
  case' hint => rw [Decoding.decode_of_hint]
  case' barrier kind option => rw [Decoding.decode_of_barrier _ _ kind]
  case' branchRegister op rn => rw [Decoding.decode_of_branchRegister _ _ _ op]
  case' exception op number => rw [Decoding.decode_of_exception _ _ op]
  case' addSubImmediate => rw [Decoding.decode_of_addSubImmediate, Decoding.addSubImmediate]
  case' addSubRegister => rw [Decoding.decode_of_addSubRegister, Decoding.addSubRegister]
  case' logical => rw [Decoding.decode_of_logical, Decoding.logical]
  case' moveWide width op window immediate rd =>
    rw [Decoding.decode_of_moveWide, @Decoding.moveWide_eq _ width op window]
  case' bitfield width signed rotate last rn rd =>
    rw [Decoding.decode_of_bitfield, @Decoding.bitfield_eq _ width signed rotate last]
  case' extract width low rm rn rd =>
    rw [Decoding.decode_of_extract, @Decoding.extract_eq _ width low]
  case' twoSource => rw [Decoding.decode_of_twoSource, Decoding.twoSource]
  case' multiplyAdd => rw [Decoding.decode_of_multiplyAdd, Decoding.multiplyAdd]
  case' branch => rw [Decoding.decode_of_branch]
  case' branchIf => rw [Decoding.decode_of_branchIf]
  case' compareBranch => rw [Decoding.decode_of_compareBranch]
  case' loadStore transfer address rn rt => cases address
  case' scaled => rw [Decoding.decode_of_scaled]
  case' unscaled => rw [Decoding.decode_of_shortOffset, Decoding.shortOffset]
  case' postIndex => rw [Decoding.decode_of_shortOffset, Decoding.shortOffset]
  case' preIndex => rw [Decoding.decode_of_shortOffset, Decoding.shortOffset]
  case' index =>
    rw [Decoding.decode_of_indexed, Decoding.indexed]
  case' loadLiteral => rw [Decoding.decode_of_loadLiteral, Decoding.loadLiteral]
  case' pair => rw [Decoding.decode_of_pair, Decoding.pair]
  -- The fields of each are read off the concatenation.
  all_goals
    simp (disch := decide) only [encode, Addressing.encode, Decoding.loadStore, Decoding.transfer,
      Decoding.width, Decoding.rd, Decoding.rn, Decoding.rm, Word.field, Word.bit,
      BitVec.extractLsb'_append_eq_of_le, BitVec.extractLsb'_append_eq_of_add_le,
      getLsbD_append_high, getLsbD_append_low, -Nat.reduceAdd, -Nat.reduceSub]
  all_goals simp [Decoding.unknownIfNone, Condition.ofCode_code, bind, Except.bind]

end Instruction

end MiniA64
