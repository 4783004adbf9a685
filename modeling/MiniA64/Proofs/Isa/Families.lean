import MiniA64.Isa.Decoding

/-!
# Encoding families exclude each other

The decoder tries its patterns in a fixed order, so a word that carries the pattern of one family
is decoded by that family only if every earlier pattern fails on it. Two patterns exclude each
other when they name a bit that both fix and fix differently, which is decided on the patterns
alone. The pair pattern leaves bit 25 open and overlaps the logical family there; its statement
fixes that bit, as every pair that is encoded does.
-/

namespace MiniA64

namespace Word

/-- Two patterns, each a value at a lowest bit, fix some bit of a word differently. -/
def clash {a b : Nat} (low₁ : Nat) (value₁ : BitVec a) (low₂ : Nat) (value₂ : BitVec b) : Bool :=
  (List.range 32).any fun i ↦
    low₁ ≤ i && i < low₁ + a && (low₂ ≤ i && i < low₂ + b) &&
      value₁.getLsbD (i - low₁) != value₂.getLsbD (i - low₂)

theorem getLsbD_field {word : Word} {low width i : Nat} (above : low ≤ i)
    (below : i < low + width) : (word.field low width).getLsbD (i - low) = word.getLsbD i := by
  rw [field, BitVec.getLsbD_extractLsb', Nat.add_sub_cancel' above]
  simp [show i - low < width by omega]

theorem field_ne_of_clash {word : Word} {low₁ low₂ width₁ width₂ : Nat} {value₁ : BitVec width₁}
    {value₂ : BitVec width₂} (h : word.field low₁ width₁ = value₁)
    (hclash : clash low₁ value₁ low₂ value₂ = true) : word.field low₂ width₂ ≠ value₂ := by
  rintro rfl
  subst h
  obtain ⟨i, -, hi⟩ := List.any_eq_true.mp hclash
  simp only [Bool.and_eq_true, decide_eq_true_eq, bne_iff_ne, ne_eq] at hi
  obtain ⟨⟨⟨above₁, below₁⟩, above₂, below₂⟩, differ⟩ := hi
  rw [getLsbD_field above₁ below₁, getLsbD_field above₂ below₂] at differ
  exact differ rfl

/-- A part of a field is a field. -/
theorem extractLsb'_field {word : Word} {low width start length : Nat}
    (inside : start + length ≤ width) :
    (word.field low width).extractLsb' start length = word.field (low + start) length := by
  apply BitVec.eq_of_getLsbD_eq
  intro i hi
  simp only [field, BitVec.getLsbD_extractLsb', hi, decide_true, Bool.true_and, Nat.add_assoc]
  simp [show start + i < width by omega]

end Word

namespace Decoding

variable {word : Word}

/-- Every system word begins with the same six bits. -/
theorem system?_eq_none (top : word.field 26 6 ≠ 0b110101) : system? word = none := by
  have outside {low width : Nat} {value : BitVec width} (start : Nat) (inside : start + 6 ≤ width)
      (place : low + start = 26) (covers : value.extractLsb' start 6 = 0b110101) :
      word.field low width ≠ value := by
    rintro rfl
    rw [Word.extractLsb'_field inside, place] at covers
    exact top covers
  have hint : word.field 12 20 ≠ 0xd5032 := outside 14 (by decide) rfl (by decide)
  have barrier : word.field 12 20 ≠ 0xd5033 := outside 14 (by decide) rfl (by decide)
  have branch : word.field 23 9 ≠ 0b110101100 := outside 3 (by decide) rfl (by decide)
  have exception : word.field 21 11 ≠ 0b11010100000 := outside 5 (by decide) rfl (by decide)
  rw [system?, if_neg fun both ↦ hint both.1, barrier?, if_neg fun both ↦ barrier both.1,
    branchRegister?, if_neg fun all ↦ branch all.1, exception?, if_neg fun both ↦ exception both.1]
  rfl

/-- A word with the pattern of a family is decoded by the families. -/
theorem decode_eq_families {low width : Nat} {value : BitVec width}
    (h : word.field low width = value)
    (hclash : Word.clash low value 26 (0b110101 : BitVec 6) = true) :
    decode word = families word := by
  rw [decode, system?_eq_none (Word.field_ne_of_clash h hclash)]

theorem skip {α : Type} {low₁ low₂ width₁ width₂ : Nat} {value₁ : BitVec width₁}
    {value₂ : BitVec width₂} {found others : α} (h : word.field low₁ width₁ = value₁)
    (hclash : Word.clash low₁ value₁ low₂ value₂ = true) :
    (if word.field low₂ width₂ = value₂ then found else others) = others :=
  if_neg (Word.field_ne_of_clash h hclash)

theorem skip_and {α : Type} {low₁ low₂ width₁ width₂ : Nat} {value₁ : BitVec width₁}
    {value₂ : BitVec width₂} {more : Prop} [Decidable more] {found others : α}
    (h : word.field low₁ width₁ = value₁)
    (hclash : Word.clash low₁ value₁ low₂ value₂ = true) :
    (if word.field low₂ width₂ = value₂ ∧ more then found else others) = others :=
  if_neg fun both ↦ Word.field_ne_of_clash h hclash both.1

/-! ## One statement for each family -/

theorem decode_of_hint (h : word.field 12 20 = 0xd5032) (low : word.field 0 5 = 31) :
    decode word = .ok (.hint (word.field 5 7)) := by
  rw [decode, system?, if_pos ⟨h, low⟩]

theorem decode_of_barrier (h : word.field 12 20 = 0xd5033) (low : word.field 0 5 = 31)
    (kind : Barrier) (code : word.field 5 3 = kind.code) :
    decode word = .ok (.barrier kind (word.field 8 4)) := by
  have found : Barrier.all.find? (fun kind ↦ kind.code = word.field 5 3) = some kind := by
    rw [code]
    cases kind <;> rfl
  rw [decode, system?, skip_and h (by decide), barrier?, if_pos ⟨h, low⟩, found]
  rfl

theorem decode_of_branchRegister (h : word.field 23 9 = 0b110101100)
    (middle : word.field 10 11 = 0b11111000000) (low : word.field 0 5 = 0)
    (op : BranchRegisterOp) (code : word.field 21 2 = op.code) :
    decode word = .ok (.branchRegister op (rn word)) := by
  have found : [BranchRegisterOp.br, .blr, .ret].find? (fun op ↦ op.code = word.field 21 2) =
      some op := by
    rw [code]
    cases op <;> rfl
  rw [decode, system?, skip_and h (by decide), barrier?, skip_and h (by decide), branchRegister?,
    if_pos ⟨h, middle, low⟩, found]
  rfl

theorem decode_of_exception (h : word.field 21 11 = 0b11010100000) (middle : word.field 2 3 = 0)
    (op : ExceptionOp) (code : word.field 0 2 = op.code) :
    decode word = .ok (.exception op (word.field 5 16)) := by
  have found : [ExceptionOp.svc, .hvc, .smc].find? (fun op ↦ op.code = word.field 0 2) =
      some op := by
    rw [code]
    cases op <;> rfl
  rw [decode, system?, skip_and h (by decide), barrier?, skip_and h (by decide), branchRegister?,
    skip_and h (by decide), exception?, if_pos ⟨h, middle⟩, found]
  rfl

theorem decode_of_addSubImmediate (h : word.field 23 6 = 0b100010) :
    decode word = .ok (addSubImmediate word) := by
  rw [decode_eq_families h (by decide), families, if_pos h]

theorem decode_of_addSubRegister (h : word.field 24 5 = 0b01011) (clear : word.bit 21 = false) :
    decode word = unknownIfNone (addSubRegister word) := by
  rw [decode_eq_families h (by decide), families, skip h (by decide), if_pos ⟨h, clear⟩]

theorem decode_of_logical (h : word.field 24 5 = 0b01010) : decode word = .ok (logical word) := by
  rw [decode_eq_families h (by decide), families, skip h (by decide), skip_and h (by decide),
    if_pos h]

theorem decode_of_moveWide (h : word.field 23 6 = 0b100101) :
    decode word = unknownIfNone (moveWide word) := by
  rw [decode_eq_families h (by decide)]
  simp (disch := decide) only [families, skip h, skip_and h]
  rw [if_pos h]

theorem decode_of_bitfield (h : word.field 23 6 = 0b100110) :
    decode word = unknownIfNone (bitfield word) := by
  rw [decode_eq_families h (by decide)]
  simp (disch := decide) only [families, skip h, skip_and h]
  rw [if_pos h]

theorem decode_of_extract (h : word.field 23 8 = 0b00100111) (clear : word.bit 21 = false) :
    decode word = unknownIfNone (extract word) := by
  rw [decode_eq_families h (by decide)]
  simp (disch := decide) only [families, skip h, skip_and h]
  rw [if_pos ⟨h, clear⟩]

theorem decode_of_twoSource (h : word.field 21 10 = 0b0011010110) :
    decode word = unknownIfNone (twoSource word) := by
  rw [decode_eq_families h (by decide)]
  simp (disch := decide) only [families, skip h, skip_and h]
  rw [if_pos h]

theorem decode_of_multiplyAdd (h : word.field 21 10 = 0b0011011000) :
    decode word = .ok (multiplyAdd word) := by
  rw [decode_eq_families h (by decide)]
  simp (disch := decide) only [families, skip h, skip_and h]
  rw [if_pos h]

theorem decode_of_branch (h : word.field 26 5 = 0b00101) :
    decode word = .ok (.branch (word.bit 31) (word.field 0 26)) := by
  rw [decode_eq_families h (by decide)]
  simp (disch := decide) only [families, skip h, skip_and h]
  rw [if_pos h]

theorem decode_of_branchIf (h : word.field 24 8 = 0x54) (clear : word.bit 4 = false) :
    decode word = .ok (.branchIf (.ofCode (word.field 0 4)) (word.field 5 19)) := by
  rw [decode_eq_families h (by decide)]
  simp (disch := decide) only [families, skip h, skip_and h]
  rw [if_pos ⟨h, clear⟩]

theorem decode_of_compareBranch (h : word.field 25 6 = 0b011010) :
    decode word =
      .ok (.compareBranch (width word) (word.bit 24) (word.field 5 19) (rd word)) := by
  rw [decode_eq_families h (by decide)]
  simp (disch := decide) only [families, skip h, skip_and h]
  rw [if_pos h]

theorem decode_of_scaled (h : word.field 24 6 = 0b111001) :
    decode word = loadStore word (.scaled (word.field 10 12)) := by
  rw [decode_eq_families h (by decide)]
  simp (disch := decide) only [families, skip h, skip_and h]
  rw [if_pos h]

theorem decode_of_indexed (h : word.field 24 6 = 0b111000) (set : word.bit 21 = true)
    (mode : word.field 10 2 = 0b10) : decode word = indexed word := by
  rw [decode_eq_families h (by decide)]
  simp (disch := decide) only [families, skip h, skip_and h]
  rw [if_pos ⟨h, set, mode⟩]

theorem decode_of_shortOffset (h : word.field 24 6 = 0b111000) (clear : word.bit 21 = false) :
    decode word = shortOffset word := by
  rw [decode_eq_families h (by decide)]
  simp (disch := decide) only [families, skip h, skip_and h]
  rw [if_neg fun all ↦ Bool.false_ne_true (clear.symm.trans all.2.1), if_pos ⟨h, clear⟩]

theorem decode_of_loadLiteral (h : word.field 24 6 = 0b011000) :
    decode word = unknownIfNone (loadLiteral word) := by
  rw [decode_eq_families h (by decide)]
  simp (disch := decide) only [families, skip h, skip_and h]
  rw [if_pos h]

theorem decode_of_pair (h : word.field 25 5 = 0b10100) :
    decode word = unknownIfNone (pair word) := by
  have family : word.field 26 4 = 0b1010 := by
    rw [← @Word.extractLsb'_field word 25 5 1 4 (by decide), h]
    rfl
  rw [decode_eq_families h (by decide)]
  simp (disch := decide) only [families, skip h, skip_and h]
  rw [if_pos family]

end Decoding

end MiniA64
