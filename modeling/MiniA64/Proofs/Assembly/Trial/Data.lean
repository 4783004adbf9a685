import MiniA64.Assembly.Trial.Data
import MiniA64.Proofs.Assembly.Trial.Operands
import MiniA64.Proofs.Bytes

/-!
# Trials of data

The numbers that paddings and data are made of are reduced before they are used: a fill to a byte,
a value to the bytes of its directive. No boundary is zero.
-/

namespace MiniA64

namespace Trial

theorem follows_constant (symbols : SymbolTable) (what : String) (operand : Operand) :
    Follows (constant symbols what operand.node) (Padding.constant symbols what operand) := by
  obtain ⟨slot, location, kind⟩ := operand
  cases kind with
  | symbol name =>
    have known : known? symbols ⟨.symbol name, location⟩ = .ok (symbols.constant? name) := rfl
    unfold constant Padding.constant
    rw [Operand.node, known, ok_bind]
    dsimp only
    cases symbols.constant? name <;> rfl
  | _ => rfl

/-- The low byte of a number is a byte. -/
theorem byte_emod (value : Int) :
    byte (value % 256) = .ok (UInt8.ofNat (BitVec.ofInt 8 value).toNat) := by
  rw [byte, if_pos (by omega), BitVec.toNat_ofInt]
  rfl

theorem follows_fill (symbols : SymbolTable) (size : Operand) (argument : Option Operand) :
    Follows (fill symbols ((size :: argument.toList).map Operand.node))
      (Padding.fillOf symbols argument) := by
  cases argument with
  | none => rfl
  | some argument =>
    refine (follows_constant symbols "fill" argument).bind fun value ↦ ?_
    rw [byte_emod]
    rfl

theorem arguments?_of_sized {arguments : List Operand}
    (some : sized (arguments.map Operand.node) = true) :
    ∃ size fill, arguments = size :: fill.toList ∧
      Padding.arguments? arguments = .some (size, fill) := by
  rcases arguments with _ | ⟨size, _ | ⟨fill, _ | ⟨other, rest⟩⟩⟩
  case cons.nil => exact ⟨size, none, rfl, rfl⟩
  case cons.cons.nil => exact ⟨size, .some fill, rfl, rfl⟩
  all_goals simp [sized] at some

theorem arguments?_eq_none {arguments : List Operand}
    (other : ¬sized (arguments.map Operand.node) = true) :
    Padding.arguments? arguments = none := by
  unfold Padding.arguments?
  split
  · simp [sized] at other
  · simp [sized] at other
  · rfl

variable {symbols : SymbolTable} {arguments : List Operand} {location : Location}

theorem keeps_boundary (directive : Directive) (amount : Int) :
    Keeps (fun boundary : Nat ↦ (boundary : Int)) (boundary directive location amount)
      (Padding.boundary directive location amount) := by
  unfold boundary
  split
  · exact (Keeps.settle _).reading fun boundary ↦ rfl
  · rename_i other
    rw [Padding.boundary, if_neg other]
    refine .ite (fun inside ↦ ?_) fun _ ↦ rfl
    have power : ((2 ^ amount.toNat : Nat) : Int) = 2 ^ amount.toNat := Int.natCast_pow ..
    rw [powerOfTwo, if_pos inside.1, ← power]
    rfl

theorem boundary_ne_zero {directive : Directive} {amount : Int} {boundary : Nat}
    (found : Padding.boundary directive location amount = .ok boundary) : (boundary : Int) ≠ 0 := by
  unfold Padding.boundary at found
  split at found
  · split at found <;> cases found
    omega
  · split at found <;> cases found
    have := Nat.two_pow_pos amount.toNat
    omega

theorem follows_alignment (directive : Directive) (address : Nat) :
    Follows (alignment symbols directive location (arguments.map Operand.node) address)
      (Padding.ofAlignment symbols directive location arguments address) := by
  unfold alignment Padding.ofAlignment
  split
  · rename_i some
    obtain ⟨size, fill, rfl, split⟩ := arguments?_of_sized some
    rw [split]
    refine (follows_constant symbols "alignment" size).bind fun amount ↦ ?_
    refine (keeps_boundary directive amount).bind_of fun boundary found ↦ ?_
    refine (follows_fill symbols size fill).bind fun fill ↦ ?_
    rw [modulo, if_neg (boundary_ne_zero found)]
    rfl
  · rename_i other
    rw [arguments?_eq_none other]
    rfl

theorem follows_space :
    Follows (space symbols location (arguments.map Operand.node))
      (Padding.ofSpace symbols location arguments) := by
  unfold space Padding.ofSpace
  split
  · rename_i some
    obtain ⟨size, fill, rfl, split⟩ := arguments?_of_sized some
    rw [split]
    refine (follows_constant symbols "size" size).bind fun count ↦ ?_
    refine .ite (fun _ ↦ rfl) fun _ ↦ ?_
    exact (follows_fill symbols size fill).bind fun fill ↦ rfl
  · rename_i other
    rw [arguments?_eq_none other]
    rfl

/-- A number that has been reduced to a count of bytes fits them. -/
theorem pack_emod (width : Nat) (value : Int) :
    pack width (value % 256 ^ width) =
      .ok (toLittleEndian width (value % 256 ^ width).toNat) := by
  have positive : (0 : Int) < 256 ^ width := Int.pow_pos (by decide)
  rw [pack, if_pos ⟨Int.emod_nonneg _ (Int.ne_of_gt positive), Int.emod_lt_of_pos _ positive⟩]

theorem pack_word (word : Word) : pack 4 word.toNat = .ok word.toBytes := by
  have fits : (0 : Int) ≤ word.toNat ∧ (word.toNat : Int) < 256 ^ 4 := by
    have := word.isLt
    omega
  rw [pack, if_pos fits, Int.toNat_natCast, word.toLittleEndian_toNat]

theorem follows_valueBytes (width : Nat) (argument : Operand) :
    Follows (valueBytes symbols width argument.node) (Data.ofValue symbols width argument) := by
  have fits (value : Int) : Follows
      (if value < -2 ^ (8 * width - 1) ∨ 2 ^ (8 * width) ≤ value then
        outOfRange argument.location value (.data width)
      else pack width (value % 256 ^ width))
      (if value < -2 ^ (8 * width - 1) ∨ 2 ^ (8 * width) ≤ value then
        Selection.outOfRange argument.location value (.data width)
      else return toLittleEndian width (value % 256 ^ width).toNat) :=
    .ite (fun _ ↦ keeps_outOfRange ..) fun _ ↦ by rw [pack_emod]; rfl
  obtain ⟨slot, location, kind⟩ := argument
  cases kind with
  | immediate value => exact fits value
  | symbol name => exact (Keeps.settle (symbols.resolve name location)).bind fits
  | _ => rfl

theorem follows_stringBytes (directive : Directive) (argument : Operand) :
    Follows (stringBytes directive argument.node) (Data.ofString directive argument) := by
  obtain ⟨slot, location, kind⟩ := argument
  cases kind <;> rfl

end Trial

end MiniA64
