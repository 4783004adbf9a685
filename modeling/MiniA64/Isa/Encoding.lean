import MiniA64.Isa.Instruction

/-!
# The word of an instruction

Encodings are written as concatenations of their fields, highest bits first.
-/

namespace MiniA64

def flag (set : Bool) : BitVec 1 := BitVec.ofBool set

/-- A bit number as a six-bit field. -/
def bitNumber {bits : Nat} (index : Fin bits) : BitVec 6 := BitVec.ofNat 6 index.val

namespace Addressing

/-- Bits 29 to 24 and the fields around the transfer code in bits 23 and 22. -/
def encode (transfer : Transfer) (address : Addressing) (rn rt : Reg) : Word :=
  match address with
  | scaled offset => transfer.sizeCode ++ 0b111001#6 ++ transfer.code ++ offset ++ rn ++ rt
  | unscaled offset =>
    transfer.sizeCode ++ 0b111000#6 ++ transfer.code ++ 0#1 ++ offset ++ 0b00#2 ++ rn ++ rt
  | postIndex offset =>
    transfer.sizeCode ++ 0b111000#6 ++ transfer.code ++ 0#1 ++ offset ++ 0b01#2 ++ rn ++ rt
  | preIndex offset =>
    transfer.sizeCode ++ 0b111000#6 ++ transfer.code ++ 0#1 ++ offset ++ 0b11#2 ++ rn ++ rt
  | index rm extend shifted =>
    transfer.sizeCode ++ 0b111000#6 ++ transfer.code ++ 1#1 ++ rm ++ extend.code ++
      flag shifted ++ 0b10#2 ++ rn ++ rt

end Addressing

namespace Instruction

def encode : Instruction → Word
  | hint code => 0xd5032#20 ++ code ++ 0b11111#5
  | barrier kind option => 0xd5033#20 ++ option ++ kind.code ++ 0b11111#5
  | branchRegister op rn => 0b110101100#9 ++ op.code ++ 0b11111000000#11 ++ rn ++ 0#5
  | exception op number => 0b11010100000#11 ++ number ++ 0#3 ++ op.code
  | addSubImmediate width op setFlags shifted immediate rn rd =>
    width.bit ++ op.bit ++ flag setFlags ++ 0b100010#6 ++ flag shifted ++ immediate ++ rn ++ rd
  | addSubRegister width op setFlags shift amount rm rn rd =>
    width.bit ++ op.bit ++ flag setFlags ++ 0b01011#5 ++ shift.kind.code ++ 0#1 ++ rm ++
      amount ++ rn ++ rd
  | logical width op invert shift amount rm rn rd =>
    width.bit ++ op.code ++ 0b01010#5 ++ shift.code ++ flag invert ++ rm ++ amount ++ rn ++ rd
  | moveWide width op window immediate rd =>
    width.bit ++ op.code ++ 0b100101#6 ++ BitVec.ofNat 2 window.val ++ immediate ++ rd
  | bitfield width signed rotate last rn rd =>
    width.bit ++ flag (!signed) ++ 0#1 ++ 0b100110#6 ++ width.bit ++ bitNumber rotate ++
      bitNumber last ++ rn ++ rd
  | extract width low rm rn rd =>
    width.bit ++ 0b00100111#8 ++ width.bit ++ 0#1 ++ rm ++ bitNumber low ++ rn ++ rd
  | twoSource width op rm rn rd =>
    width.bit ++ 0b0011010110#10 ++ rm ++ op.code ++ rn ++ rd
  | multiplyAdd width subtract rm ra rn rd =>
    width.bit ++ 0b0011011000#10 ++ rm ++ flag subtract ++ ra ++ rn ++ rd
  | branch link offset => flag link ++ 0b00101#5 ++ offset
  | branchIf condition offset => 0x54#8 ++ offset ++ 0#1 ++ condition.code
  | compareBranch width nonzero offset rt =>
    width.bit ++ 0b011010#6 ++ flag nonzero ++ offset ++ rt
  | loadStore transfer address rn rt => address.encode transfer rn rt
  | loadLiteral load offset rt => load.code ++ 0b011000#6 ++ offset ++ rt
  | pair width load mode offset rt2 rn rt =>
    width.bit ++ 0#1 ++ 0b10100#5 ++ mode.code ++ flag load ++ offset ++ rt2 ++ rn ++ rt

end Instruction

end MiniA64
