import Mathlib.Logic.Basic
import MiniA64.Proofs.Isa.Reading

/-!
# Decoded words are encodings

A word is decoded by reading its fields, and the encoding of the instruction puts the fields side
by side again. Every bit of the word is one that the family fixes or one that a field of the
instruction holds, so that the encoding is the word.

There is one exception. Every pair that is encoded has a zero in bit 25, where the pattern of
pairs accepts a one as well. A word with a one there gets as far as the pattern of pairs only if
it adds an extended register and sets the flags.
-/

namespace MiniA64

namespace Word

/-- The word adds an extended register and sets the flags. -/
def isExtendedAdd (word : Word) : Bool := word.field 24 7 = 0b0101011 && word.bit 21

/-! ## Fields side by side -/

variable (word : Word)

theorem field_append {high low a b : Nat} (adjacent : high = low + b) :
    word.field high a ++ word.field low b = word.field low (a + b) := by
  subst adjacent
  apply BitVec.eq_of_getLsbD_eq
  intro i below
  rw [BitVec.getLsbD_append]
  simp only [field, BitVec.getLsbD_extractLsb']
  split
  · rename_i inLow
    simp [inLow, below]
  · have place : low + b + (i - b) = low + i := by omega
    have inHigh : i - b < a := by omega
    simp [place, inHigh, below]

theorem field_all : word.field 0 32 = word := by
  simp [field]

theorem flag_bit (index : Nat) : flag (word.bit index) = word.field index 1 := by
  apply BitVec.eq_of_getLsbD_eq
  intro i below
  obtain rfl : i = 0 := by omega
  simp [flag, field, bit]

theorem bit_eq_false_iff {index : Nat} : word.bit index = false ↔ 0#1 = word.field index 1 := by
  rw [← flag_bit]
  cases word.bit index <;> decide

theorem bit_eq_true_iff {index : Nat} : word.bit index = true ↔ 1#1 = word.field index 1 := by
  rw [← flag_bit]
  cases word.bit index <;> decide

end Word

/-! ## Codes that have been read -/

@[simp] theorem Width.bit_ofBit (set : Bool) : (Width.ofBit set).bit = flag set := by
  cases set <;> rfl

@[simp] theorem AddSubOp.bit_ofBit (set : Bool) : (AddSubOp.ofBit set).bit = flag set := by
  cases set <;> rfl

@[simp] theorem ShiftKind.code_ofCode (code : BitVec 2) : (ShiftKind.ofCode code).code = code := by
  revert code
  decide

theorem LinearShift.kind_of_ofKind? {kind : ShiftKind} {shift : LinearShift}
    (h : LinearShift.ofKind? kind = some shift) : shift.kind = kind := by
  cases kind <;> cases h <;> rfl

@[simp] theorem LogicalOp.code_ofCode (code : BitVec 2) : (LogicalOp.ofCode code).code = code := by
  revert code
  decide

@[simp] theorem PairMode.code_ofCode (code : BitVec 2) : (PairMode.ofCode code).code = code := by
  revert code
  decide

theorem Transfer.codes_of_ofCodes? :
    ∀ size code : BitVec 2, ∀ transfer ∈ Transfer.ofCodes? size code,
      transfer.sizeCode = size ∧ transfer.code = code := by
  decide

/-- What is found by its code has this code. -/
theorem code_of_find? {α : Type} {bits : Nat} {all : List α} {codeOf : α → BitVec bits}
    {code : BitVec bits} {found : α} (h : all.find? (fun item ↦ codeOf item = code) = some found) :
    codeOf found = code := by
  simpa using List.find?_some h

theorem Decoding.code_of_bitNumber {width : Width} {bits : BitVec 6} {index : Fin width.bits}
    (h : Decoding.bitNumber width bits = some index) : MiniA64.bitNumber index = bits := by
  unfold Decoding.bitNumber at h
  split at h
  · cases h
    exact BitVec.ofNat_toNat 6 bits
  · cases h

namespace Decoding

variable {word : Word} {instruction : Instruction}

theorem unknownIfNone_eq_ok {α : Type} {found : Option α} {value : α} :
    unknownIfNone found = .ok value ↔ found = some value := by
  cases found <;> simp [unknownIfNone]

/-! ## One statement for each family -/

theorem encode_of_barrier? (h : barrier? word = some instruction) : instruction.encode = word := by
  unfold barrier? at h
  split at h
  · rename_i pattern
    obtain ⟨kind, known, rfl⟩ := Option.map_eq_some_iff.mp h
    have top : 0xd5033#20 = word.field 12 20 := pattern.1.symm
    have low : 0b11111#5 = word.field 0 5 := pattern.2.symm
    simp (disch := rfl) only [Instruction.encode, top, low, code_of_find? known,
      Word.field_append]
    exact word.field_all
  · cases h

theorem encode_of_branchRegister? (h : branchRegister? word = some instruction) :
    instruction.encode = word := by
  unfold branchRegister? at h
  split at h
  · rename_i pattern
    obtain ⟨op, known, rfl⟩ := Option.map_eq_some_iff.mp h
    have top : 0b110101100#9 = word.field 23 9 := pattern.1.symm
    have middle : 0b11111000000#11 = word.field 10 11 := pattern.2.1.symm
    have low : 0#5 = word.field 0 5 := pattern.2.2.symm
    simp (disch := rfl) only [Instruction.encode, top, middle, low, rn, code_of_find? known,
      Word.field_append]
    exact word.field_all
  · cases h

theorem encode_of_exception? (h : exception? word = some instruction) :
    instruction.encode = word := by
  unfold exception? at h
  split at h
  · rename_i pattern
    obtain ⟨op, known, rfl⟩ := Option.map_eq_some_iff.mp h
    have top : 0b11010100000#11 = word.field 21 11 := pattern.1.symm
    have low : 0#3 = word.field 2 3 := pattern.2.symm
    simp (disch := rfl) only [Instruction.encode, top, low, code_of_find? known,
      Word.field_append]
    exact word.field_all
  · cases h

theorem encode_of_system? (h : system? word = some instruction) : instruction.encode = word := by
  unfold system? at h
  split at h
  · rename_i pattern
    cases h
    have top : 0xd5032#20 = word.field 12 20 := pattern.1.symm
    have low : 0b11111#5 = word.field 0 5 := pattern.2.symm
    simp (disch := rfl) only [Instruction.encode, top, low, Word.field_append]
    exact word.field_all
  · rcases Option.or_eq_some_iff.mp h with barrier | ⟨-, others⟩
    · exact encode_of_barrier? barrier
    rcases Option.or_eq_some_iff.mp others with branch | ⟨-, exception⟩
    · exact encode_of_branchRegister? branch
    · exact encode_of_exception? exception

theorem encode_addSubImmediate (h : word.field 23 6 = 0b100010) :
    (addSubImmediate word).encode = word := by
  have family : 0b100010#6 = word.field 23 6 := h.symm
  simp (disch := rfl) only [addSubImmediate, Instruction.encode, width, rn, rd, Width.bit_ofBit,
    AddSubOp.bit_ofBit, Word.flag_bit, family, Word.field_append]
  exact word.field_all

theorem encode_of_addSubRegister (h : word.field 24 5 = 0b01011) (clear : word.bit 21 = false)
    (decoded : addSubRegister word = some instruction) : instruction.encode = word := by
  obtain ⟨shift, known, rfl⟩ := Option.map_eq_some_iff.mp decoded
  have family : 0b01011#5 = word.field 24 5 := h.symm
  have zero := word.bit_eq_false_iff.mp clear
  simp (disch := rfl) only [Instruction.encode, width, rm, rn, rd, Width.bit_ofBit,
    AddSubOp.bit_ofBit, LinearShift.kind_of_ofKind? known, ShiftKind.code_ofCode, Word.flag_bit,
    family, zero, Word.field_append]
  exact word.field_all

theorem encode_logical (h : word.field 24 5 = 0b01010) : (logical word).encode = word := by
  have family : 0b01010#5 = word.field 24 5 := h.symm
  simp (disch := rfl) only [logical, Instruction.encode, width, rm, rn, rd, Width.bit_ofBit,
    LogicalOp.code_ofCode, ShiftKind.code_ofCode, Word.flag_bit, family, Word.field_append]
  exact word.field_all

theorem encode_of_moveWide (h : word.field 23 6 = 0b100101)
    (decoded : moveWide word = some instruction) : instruction.encode = word := by
  unfold moveWide at decoded
  split at decoded
  · cases decoded
  rename_i op known
  simp only at decoded
  split at decoded
  · cases decoded
    have family : 0b100101#6 = word.field 23 6 := h.symm
    have code : op.code = word.field 29 2 := code_of_find? known
    simp (disch := rfl) only [Instruction.encode, width, rd, Width.bit_ofBit, Word.flag_bit,
      code, family, BitVec.ofNat_toNat, BitVec.setWidth_eq, Word.field_append]
    exact word.field_all
  · cases decoded

/-- The width of these instructions stands in two places. -/
theorem bit_width_of_same (same : word.bit 22 = word.bit 31) :
    (width word).bit = word.field 22 1 := by
  rw [width, Width.bit_ofBit, ← same, Word.flag_bit]

theorem encode_of_bitfield (h : word.field 23 6 = 0b100110)
    (decoded : bitfield word = some instruction) : instruction.encode = word := by
  unfold bitfield at decoded
  split at decoded
  · cases decoded
  rename_i fixed
  obtain ⟨clear, same⟩ : word.bit 29 = false ∧ word.bit 22 = word.bit 31 := by simpa using fixed
  split at decoded
  · rename_i rotate last hrotate hlast
    cases decoded
    have family : 0b100110#6 = word.field 23 6 := h.symm
    have zero := word.bit_eq_false_iff.mp clear
    have top : (width word).bit ++ flag (!!word.bit 30) ++ 0#1 ++ 0b100110#6 =
        word.field 23 9 := by
      simp (disch := rfl) only [width, Width.bit_ofBit, Bool.not_not, Word.flag_bit, family, zero,
        Word.field_append]
    rw [Instruction.encode, top, bit_width_of_same same, code_of_bitNumber hrotate,
      code_of_bitNumber hlast]
    simp (disch := rfl) only [rn, rd, Word.field_append]
    exact word.field_all
  · cases decoded

theorem encode_of_extract (h : word.field 23 8 = 0b00100111) (clear : word.bit 21 = false)
    (decoded : extract word = some instruction) : instruction.encode = word := by
  unfold extract at decoded
  split at decoded
  · cases decoded
  rename_i fixed
  have same : word.bit 22 = word.bit 31 := by simpa using fixed
  obtain ⟨low, hlow, rfl⟩ := Option.map_eq_some_iff.mp decoded
  have family : 0b00100111#8 = word.field 23 8 := h.symm
  have zero := word.bit_eq_false_iff.mp clear
  have top : (width word).bit ++ 0b00100111#8 = word.field 23 9 := by
    simp (disch := rfl) only [width, Width.bit_ofBit, Word.flag_bit, family, Word.field_append]
  rw [Instruction.encode, top, bit_width_of_same same, code_of_bitNumber hlow]
  simp (disch := rfl) only [rm, rn, rd, zero, Word.field_append]
  exact word.field_all

theorem encode_of_twoSource (h : word.field 21 10 = 0b0011010110)
    (decoded : twoSource word = some instruction) : instruction.encode = word := by
  obtain ⟨op, known, rfl⟩ := Option.map_eq_some_iff.mp decoded
  have family : 0b0011010110#10 = word.field 21 10 := h.symm
  have code : op.code = word.field 10 6 := code_of_find? known
  simp (disch := rfl) only [Instruction.encode, width, rm, rn, rd, Width.bit_ofBit, Word.flag_bit,
    family, code, Word.field_append]
  exact word.field_all

theorem encode_multiplyAdd (h : word.field 21 10 = 0b0011011000) :
    (multiplyAdd word).encode = word := by
  have family : 0b0011011000#10 = word.field 21 10 := h.symm
  simp (disch := rfl) only [multiplyAdd, Instruction.encode, width, rm, rn, rd, Width.bit_ofBit,
    Word.flag_bit, family, Word.field_append]
  exact word.field_all

theorem encode_branch (h : word.field 26 5 = 0b00101) :
    (Instruction.branch (word.bit 31) (word.field 0 26)).encode = word := by
  have family : 0b00101#5 = word.field 26 5 := h.symm
  simp (disch := rfl) only [Instruction.encode, Word.flag_bit, family, Word.field_append]
  exact word.field_all

theorem encode_branchIf (h : word.field 24 8 = 0x54) (clear : word.bit 4 = false) :
    (Instruction.branchIf (.ofCode (word.field 0 4)) (word.field 5 19)).encode = word := by
  have family : 0x54#8 = word.field 24 8 := h.symm
  have zero := word.bit_eq_false_iff.mp clear
  simp (disch := rfl) only [Instruction.encode, Condition.code_ofCode, family, zero,
    Word.field_append]
  exact word.field_all

theorem encode_compareBranch (h : word.field 25 6 = 0b011010) :
    (Instruction.compareBranch (width word) (word.bit 24) (word.field 5 19) (rd word)).encode =
      word := by
  have family : 0b011010#6 = word.field 25 6 := h.symm
  simp (disch := rfl) only [Instruction.encode, width, rd, Width.bit_ofBit, Word.flag_bit, family,
    Word.field_append]
  exact word.field_all

/-- A load or store is encoded with the codes of its transfer around those of its addressing. -/
theorem exists_transfer {address : Addressing}
    (decoded : loadStore word address = .ok instruction) :
    ∃ transfer, instruction = .loadStore transfer address (rn word) (rd word) ∧
      transfer.sizeCode = word.field 30 2 ∧ transfer.code = word.field 22 2 := by
  unfold loadStore transfer at decoded
  split at decoded
  · rename_i transfer known
    cases decoded
    exact ⟨transfer, rfl, Transfer.codes_of_ofCodes? _ _ transfer known⟩
  · cases decoded

theorem encode_of_scaled (h : word.field 24 6 = 0b111001)
    (decoded : loadStore word (.scaled (word.field 10 12)) = .ok instruction) :
    instruction.encode = word := by
  obtain ⟨transfer, rfl, size, code⟩ := exists_transfer decoded
  have family : 0b111001#6 = word.field 24 6 := h.symm
  simp (disch := rfl) only [Instruction.encode, Addressing.encode, rn, rd, size, code, family,
    Word.field_append]
  exact word.field_all

theorem encode_of_indexed (h : word.field 24 6 = 0b111000) (set : word.bit 21 = true)
    (mode : word.field 10 2 = 0b10) (decoded : indexed word = .ok instruction) :
    instruction.encode = word := by
  unfold indexed at decoded
  split at decoded
  · rename_i extend known
    obtain ⟨transfer, rfl, size, code⟩ := exists_transfer decoded
    have family : 0b111000#6 = word.field 24 6 := h.symm
    have one := word.bit_eq_true_iff.mp set
    have low : 0b10#2 = word.field 10 2 := mode.symm
    have kind : extend.code = word.field 13 3 := code_of_find? known
    simp (disch := rfl) only [Instruction.encode, Addressing.encode, rm, rn, rd, Word.flag_bit,
      size, code, family, one, low, kind, Word.field_append]
    exact word.field_all
  · cases decoded

/-- The forms with a nine-bit offset differ in the mode behind it. -/
theorem encode_of_mode {address : Addressing} {mode : BitVec 2} (h : word.field 24 6 = 0b111000)
    (clear : word.bit 21 = false) (low : word.field 10 2 = mode)
    (form : ∀ transfer rn rt, address.encode transfer rn rt =
      transfer.sizeCode ++ 0b111000#6 ++ transfer.code ++ 0#1 ++ word.field 12 9 ++ mode ++ rn ++
        rt)
    (decoded : loadStore word address = .ok instruction) : instruction.encode = word := by
  obtain ⟨transfer, rfl, size, code⟩ := exists_transfer decoded
  have family : 0b111000#6 = word.field 24 6 := h.symm
  have zero := word.bit_eq_false_iff.mp clear
  rw [Instruction.encode, form, ← low]
  simp (disch := rfl) only [rn, rd, size, code, family, zero, Word.field_append]
  exact word.field_all

theorem encode_of_shortOffset (h : word.field 24 6 = 0b111000) (clear : word.bit 21 = false)
    (decoded : shortOffset word = .ok instruction) : instruction.encode = word := by
  obtain ⟨mode, found⟩ | ⟨-, decoded⟩ := ite_eq_iff.mp decoded
  · exact encode_of_mode h clear mode (fun _ _ _ ↦ rfl) found
  obtain ⟨mode, found⟩ | ⟨-, decoded⟩ := ite_eq_iff.mp decoded
  · exact encode_of_mode h clear mode (fun _ _ _ ↦ rfl) found
  obtain ⟨mode, found⟩ | ⟨-, decoded⟩ := ite_eq_iff.mp decoded
  · exact encode_of_mode h clear mode (fun _ _ _ ↦ rfl) found
  · cases decoded

theorem encode_of_loadLiteral (h : word.field 24 6 = 0b011000)
    (decoded : loadLiteral word = some instruction) : instruction.encode = word := by
  obtain ⟨load, known, rfl⟩ := Option.map_eq_some_iff.mp decoded
  have family : 0b011000#6 = word.field 24 6 := h.symm
  have code : load.code = word.field 30 2 := code_of_find? known
  simp (disch := rfl) only [Instruction.encode, rd, code, family, Word.field_append]
  exact word.field_all

theorem encode_of_pair (h : word.field 26 4 = 0b1010) (clear : word.bit 25 = false)
    (decoded : pair word = some instruction) : instruction.encode = word := by
  unfold pair at decoded
  split at decoded
  · cases decoded
  rename_i plain
  cases decoded
  have top : word.bit 30 = false := by simpa using plain
  have family : word.field 25 5 = 0b10100 := by
    rw [← @Word.field_append word 26 25 4 1 rfl, h, ← word.bit_eq_false_iff.mp clear]
    rfl
  have fixed : 0b10100#5 = word.field 25 5 := family.symm
  have zero := word.bit_eq_false_iff.mp top
  simp (disch := rfl) only [Instruction.encode, width, rn, rd, Width.bit_ofBit,
    PairMode.code_ofCode, Word.flag_bit, fixed, zero, Word.field_append]
  exact word.field_all

/-- A one in bit 25 of a word that gets as far as the pattern of pairs. -/
theorem isExtendedAdd_of_pair (notAdd : ¬(word.field 24 5 = 0b01011 ∧ word.bit 21 = false))
    (notLogical : word.field 24 5 ≠ 0b01010) (h : word.field 26 4 = 0b1010)
    (decoded : pair word = some instruction) (set : word.bit 25 = true) :
    word.isExtendedAdd = true := by
  have one25 := word.bit_eq_true_iff.mp set
  have clear30 : word.bit 30 = false := by
    cases set30 : word.bit 30 with
    | false => rfl
    | true => simp [pair, set30] at decoded
  have middle : word.field 26 3 = 0b010 := by
    rw [← @Word.extractLsb'_field word 26 4 0 3 (by decide), h]
    rfl
  have five : word.field 24 5 = (0b010 : BitVec 3) ++ 1#1 ++ word.field 24 1 := by
    rw [← middle, one25]
    simp (disch := rfl) only [Word.field_append]
  have set24 : word.bit 24 = true := by
    cases set24 : word.bit 24 with
    | true => rfl
    | false =>
      rw [← word.bit_eq_false_iff.mp set24] at five
      exact absurd five notLogical
  have one24 := word.bit_eq_true_iff.mp set24
  rw [← one24] at five
  have set21 : word.bit 21 = true := by
    cases set21 : word.bit 21 with
    | true => rfl
    | false => exact absurd ⟨five, set21⟩ notAdd
  have seven : word.field 24 7 = 0b0101011 := by
    calc word.field 24 7
      _ = word.field 30 1 ++ word.field 26 4 ++ word.field 25 1 ++ word.field 24 1 := by
        simp (disch := rfl) only [Word.field_append]
      _ = 0b0101011 := by
        rw [← word.bit_eq_false_iff.mp clear30, h, ← one25, ← one24]
        rfl
  rw [Word.isExtendedAdd, seven, set21]
  rfl

/-- Such an addition is taken for a pair, with the fields of a pair. -/
theorem decode_eq_pair (extended : word.isExtendedAdd = true) :
    decode word = .ok (.pair (width word) (word.bit 22) (.ofCode (word.field 23 2))
      (word.field 15 7) (word.field 10 5) (rn word) (rd word)) := by
  obtain ⟨family, set⟩ := Bool.and_eq_true_iff.mp extended
  have h : word.field 24 7 = 0b0101011 := of_decide_eq_true family
  have notAdd : ¬(word.field 24 5 = 0b01011 ∧ word.bit 21 = false) :=
    fun both ↦ Bool.false_ne_true (both.2.symm.trans set)
  have pattern : word.field 26 4 = 0b1010 := by
    rw [← @Word.extractLsb'_field word 24 7 2 4 (by decide), h]
    rfl
  have top : 0#1 = word.field 30 1 := by
    rw [← @Word.extractLsb'_field word 24 7 6 1 (by decide), h]
    rfl
  rw [decode_eq_families h (by decide)]
  simp (disch := decide) only [families, skip h, skip_and h]
  rw [if_neg notAdd, if_pos pattern, pair, word.bit_eq_false_iff.mpr top]
  rfl

/-- Such an addition is decoded to a pair, and not to one with the plain offset. -/
theorem decode_of_isExtendedAdd (extended : word.isExtendedAdd = true) :
    ∃ mode offset rt2 rn rt, mode ≠ .plainOffset ∧
      decode word = .ok (.pair (width word) (word.bit 22) mode offset rt2 rn rt) := by
  obtain ⟨family, -⟩ := Bool.and_eq_true_iff.mp extended
  have h : word.field 24 7 = 0b0101011 := of_decide_eq_true family
  have low : 1#1 = word.field 24 1 := by
    rw [← @Word.extractLsb'_field word 24 7 0 1 (by decide), h]
    rfl
  have mode : word.field 23 2 = 1#1 ++ word.field 23 1 := by
    rw [low]
    simp (disch := rfl) only [Word.field_append]
  have offsets : ∀ rest : BitVec 1, PairMode.ofCode (1#1 ++ rest) ≠ .plainOffset := by decide
  refine ⟨_, _, _, _, _, ?_, decode_eq_pair extended⟩
  rw [mode]
  exact offsets _

end Decoding

open Decoding in
/-- A decoded word is the encoding of its instruction, unless it is taken for a pair. -/
theorem Instruction.encode_of_decode {word : Word} {instruction : Instruction}
    (decoded : decode word = .ok instruction) (ordinary : word.isExtendedAdd = false) :
    instruction.encode = word := by
  unfold decode at decoded
  split at decoded
  · rename_i known
    cases decoded
    exact encode_of_system? known
  obtain ⟨family, found⟩ | ⟨-, decoded⟩ := ite_eq_iff.mp decoded
  · cases found
    exact encode_addSubImmediate family
  obtain ⟨⟨family, clear⟩, found⟩ | ⟨notAdd, decoded⟩ := ite_eq_iff.mp decoded
  · exact encode_of_addSubRegister family clear (unknownIfNone_eq_ok.mp found)
  obtain ⟨family, found⟩ | ⟨notLogical, decoded⟩ := ite_eq_iff.mp decoded
  · cases found
    exact encode_logical family
  obtain ⟨family, found⟩ | ⟨-, decoded⟩ := ite_eq_iff.mp decoded
  · exact encode_of_moveWide family (unknownIfNone_eq_ok.mp found)
  obtain ⟨family, found⟩ | ⟨-, decoded⟩ := ite_eq_iff.mp decoded
  · exact encode_of_bitfield family (unknownIfNone_eq_ok.mp found)
  obtain ⟨⟨family, clear⟩, found⟩ | ⟨-, decoded⟩ := ite_eq_iff.mp decoded
  · exact encode_of_extract family clear (unknownIfNone_eq_ok.mp found)
  obtain ⟨family, found⟩ | ⟨-, decoded⟩ := ite_eq_iff.mp decoded
  · exact encode_of_twoSource family (unknownIfNone_eq_ok.mp found)
  obtain ⟨family, found⟩ | ⟨-, decoded⟩ := ite_eq_iff.mp decoded
  · cases found
    exact encode_multiplyAdd family
  obtain ⟨family, found⟩ | ⟨-, decoded⟩ := ite_eq_iff.mp decoded
  · cases found
    exact encode_branch family
  obtain ⟨⟨family, clear⟩, found⟩ | ⟨-, decoded⟩ := ite_eq_iff.mp decoded
  · cases found
    exact encode_branchIf family clear
  obtain ⟨family, found⟩ | ⟨-, decoded⟩ := ite_eq_iff.mp decoded
  · cases found
    exact encode_compareBranch family
  obtain ⟨family, found⟩ | ⟨-, decoded⟩ := ite_eq_iff.mp decoded
  · exact encode_of_scaled family found
  obtain ⟨⟨family, set, mode⟩, found⟩ | ⟨-, decoded⟩ := ite_eq_iff.mp decoded
  · exact encode_of_indexed family set mode found
  obtain ⟨⟨family, clear⟩, found⟩ | ⟨-, decoded⟩ := ite_eq_iff.mp decoded
  · exact encode_of_shortOffset family clear found
  obtain ⟨family, found⟩ | ⟨-, decoded⟩ := ite_eq_iff.mp decoded
  · exact encode_of_loadLiteral family (unknownIfNone_eq_ok.mp found)
  obtain ⟨family, found⟩ | ⟨-, decoded⟩ := ite_eq_iff.mp decoded
  · have known := unknownIfNone_eq_ok.mp found
    have clear : word.bit 25 = false := by
      apply Bool.eq_false_iff.mpr
      intro set
      exact Bool.eq_false_iff.mp ordinary (isExtendedAdd_of_pair notAdd notLogical family known set)
    exact encode_of_pair family clear known
  · cases decoded

end MiniA64
