import MiniA64.Isa.Register

/-!
# Register names and numbers

A register number has two names, since number 31 is the stack pointer in some slots and the zero
register in others. Each name has the number again, fits the slots that it is the name for, and
is read back from its text.
-/

namespace MiniA64

namespace RegisterName

theorem toNat_number_general (index : Fin 31) (width : Width) :
    (general index width).number.toNat = index.val := by
  simp only [number, BitVec.toNat_ofNat]
  omega

theorem number_general_ne_special (index : Fin 31) (width : Width) :
    (general index width).number ≠ Reg.special := by
  intro equal
  have values := congrArg BitVec.toNat equal
  rw [toNat_number_general] at values
  have special : Reg.special.toNat = 31 := rfl
  omega

/-- The register fits a slot of a width in which number 31 is the zero register. -/
structure DataAt (width : Width) (name : RegisterName) : Prop where
  notStack : name.isStackPointer = false
  width_eq : name.width = width

/-- The register fits a slot of a width in which number 31 is the stack pointer. -/
structure StackAt (width : Width) (name : RegisterName) : Prop where
  notZero : name.isZero = false
  width_eq : name.width = width

end RegisterName

namespace Reg

/-- The name of a number, where 31 is the stack pointer. -/
def stackName (reg : Reg) (width : Width) : RegisterName :=
  if h : reg.toNat < 31 then .general ⟨reg.toNat, h⟩ width else .stackPointer width

/-- The name of a number, where 31 is the zero register. -/
def dataName (reg : Reg) (width : Width) : RegisterName :=
  if h : reg.toNat < 31 then .general ⟨reg.toNat, h⟩ width else .zero width

variable (reg : Reg) (width : Width)

@[simp] theorem number_stackName : (reg.stackName width).number = reg := by
  have below := reg.isLt
  rw [stackName]
  split
  · rw [RegisterName.number, BitVec.ofNat_toNat, BitVec.setWidth_eq]
  · apply BitVec.eq_of_toNat_eq
    show 31 = reg.toNat
    omega

@[simp] theorem number_dataName : (reg.dataName width).number = reg := by
  have below := reg.isLt
  rw [dataName]
  split
  · rw [RegisterName.number, BitVec.ofNat_toNat, BitVec.setWidth_eq]
  · apply BitVec.eq_of_toNat_eq
    show 31 = reg.toNat
    omega

theorem stackAt_stackName : (reg.stackName width).StackAt width := by
  rw [stackName]
  split <;> exact ⟨rfl, rfl⟩

theorem dataAt_dataName : (reg.dataName width).DataAt width := by
  rw [dataName]
  split <;> exact ⟨rfl, rfl⟩

@[simp] theorem width_stackName : (reg.stackName width).width = width :=
  (reg.stackAt_stackName width).width_eq

@[simp] theorem width_dataName : (reg.dataName width).width = width :=
  (reg.dataAt_dataName width).width_eq

@[simp] theorem isZero_stackName : (reg.stackName width).isZero = false :=
  (reg.stackAt_stackName width).notZero

@[simp] theorem isStackPointer_dataName : (reg.dataName width).isStackPointer = false :=
  (reg.dataAt_dataName width).notStack

theorem parse?_nameSp :
    RegisterName.parse? (reg.nameSp width) = some (reg.stackName width) := by
  revert reg
  cases width <;> decide

theorem parse?_name : RegisterName.parse? (reg.name width) = some (reg.dataName width) := by
  revert reg
  cases width <;> decide

end Reg

namespace RegisterName

variable {name : RegisterName} {width : Width}

/-- A register that fits a slot is the one that its number names there. -/
theorem StackAt.eq_stackName (fits : name.StackAt width) : name = name.number.stackName width := by
  obtain ⟨plain, rfl⟩ := fits
  cases name with
  | general index width =>
    have below := toNat_number_general index width
    rw [Reg.stackName, dif_pos (by rw [below]; exact index.isLt)]
    exact congrArg (general · width) (Fin.ext below.symm)
  | stackPointer width => rfl
  | zero width => cases plain

theorem DataAt.eq_dataName (fits : name.DataAt width) : name = name.number.dataName width := by
  obtain ⟨plain, rfl⟩ := fits
  cases name with
  | general index width =>
    have below := toNat_number_general index width
    rw [Reg.dataName, dif_pos (by rw [below]; exact index.isLt)]
    exact congrArg (general · width) (Fin.ext below.symm)
  | stackPointer width => cases plain
  | zero width => rfl

end RegisterName

end MiniA64
