import MiniA64.Machine.Registers
import MiniA64.Proofs.Isa.RegisterNames

/-!
# Registers by name

A written register name keeps the stack pointer and the zero register apart, which share number
31 in an encoding. Reading and writing by name are stated here without encodings; a slot of an
instruction agrees with them on every name that the slot accepts.
-/

namespace MiniA64

namespace Registers

/-- The number that a named register holds: its low bits at the width of the name. -/
def valueOf (registers : Registers) : RegisterName → Nat
  | .general index width => (registers.general.get index).toNat % 2 ^ width.bits
  | .stackPointer width => (registers.sp % 2 ^ width.bits).toNat
  | .zero _ => 0

/-- Puts a number into a named register, with zeros above. A zero register takes nothing. -/
def store (registers : Registers) (name : RegisterName) (value : Nat) : Registers :=
  match name with
  | .general index _ =>
    { registers with
      general := registers.general.set index.val (BitVec.ofNat 64 value) index.isLt }
  | .stackPointer _ => { registers with sp := value }
  | .zero _ => registers

variable (registers : Registers) {width : Width} {name : RegisterName}

theorem valueOf_lt (name : RegisterName) : registers.valueOf name < 2 ^ name.width.bits := by
  have positive : 0 < 2 ^ name.width.bits := Nat.two_pow_pos _
  cases name with
  | general index width => exact Nat.mod_lt _ positive
  | stackPointer width =>
    simp only [valueOf, RegisterName.width]
    cases width <;> simp only [Width.bits] <;> omega
  | zero width => exact positive

@[simp] theorem pc_store (value : Nat) : (registers.store name value).pc = registers.pc := by
  cases name <;> rfl

/-! ## Slots of instructions -/

theorem readAt_special (width : Width) : registers.readAt width Reg.special = 0 := by
  simp [readAt, read, Reg.special]

theorem toNat_readAt (data : name.DataAt width) :
    (registers.readAt width name.number).toNat = registers.valueOf name := by
  obtain ⟨notStack, rfl⟩ := data
  cases name with
  | general index width =>
    have number := RegisterName.toNat_number_general index width
    simp only [readAt, read, number, index.isLt, dite_true, BitVec.toNat_setWidth, valueOf]
    rfl
  | stackPointer width => cases notStack
  | zero width =>
    have number : (RegisterName.zero width).number.toNat = 31 := rfl
    simp [readAt, read, number, valueOf]

theorem toNat_readSpAt (stack : name.StackAt width) :
    (registers.readSpAt width name.number).toNat = registers.valueOf name := by
  obtain ⟨notZero, rfl⟩ := stack
  cases name with
  | general index width =>
    rw [← registers.toNat_readAt ⟨rfl, rfl⟩, readSpAt, readAt, readSp,
      if_neg (RegisterName.number_general_ne_special index width)]
  | stackPointer width =>
    simp only [readSpAt, readSp, RegisterName.number, if_true, BitVec.toNat_setWidth,
      BitVec.toNat_ofInt, RegisterName.width, valueOf]
    cases width <;> simp only [Width.bits] <;> omega
  | zero width => cases notZero

theorem write_number (notStack : name.isStackPointer = false) (value : BitVec 64) :
    registers.write name.number value = registers.store name value.toNat := by
  cases name with
  | general index width =>
    have number := RegisterName.toNat_number_general index width
    simp only [write, number, index.isLt, dite_true, store, BitVec.ofNat_toNat,
      BitVec.setWidth_eq]
  | stackPointer width => cases notStack
  | zero width =>
    have number : (RegisterName.zero width).number.toNat = 31 := rfl
    simp [write, number, store]

theorem writeAt_number (data : name.DataAt width) (value : BitVec width.bits) :
    registers.writeAt width name.number value = registers.store name value.toNat := by
  have below : value.toNat < 2 ^ 64 :=
    Nat.lt_of_lt_of_le value.isLt (by cases width <;> decide)
  rw [writeAt, registers.write_number data.notStack, BitVec.toNat_setWidth,
    Nat.mod_eq_of_lt below]

theorem writeSpAt_number (stack : name.StackAt width) (value : BitVec width.bits) :
    registers.writeSpAt width name.number value = registers.store name value.toNat := by
  obtain ⟨notZero, rfl⟩ := stack
  cases name with
  | general index width =>
    rw [← registers.writeAt_number ⟨rfl, rfl⟩, writeSpAt, writeAt, writeSp,
      if_neg (RegisterName.number_general_ne_special index width)]
  | stackPointer width =>
    have below : value.toNat < 2 ^ 64 :=
      Nat.lt_of_lt_of_le value.isLt (by cases width <;> decide)
    simp only [writeSpAt, writeSp, RegisterName.number, if_true, store,
      BitVec.toNat_setWidth, Nat.mod_eq_of_lt below]
  | zero width => cases notZero

end Registers

end MiniA64
