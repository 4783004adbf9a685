import MiniA64.Proofs.Assembly.Assembled

/-!
# Addresses of an assembled program

The layout gives each label its address before any code is made. In the code that is then made the
label stands at this address, and the code is as long as the layout has counted, if every constant
that tells the length of a padding keeps the value it has there. It may be set before, and so may
every other constant at any place. One that is set again after its use sizes the padding anew when
the code is made, and what comes behind is moved away from its address.
-/

namespace MiniA64

/--
In a program that has been accepted the code is as long as the layout, and the value of every label
is the number of bytes in front of it.
-/
theorem addresses_agree {assembler finished : Assembler} {program : Program}
    (accepted : assembler.generate program = (.ok (), finished))
    (kept : SizesKept assembler.limits finished.symbols .empty program.statements) :
    (∃ layout, Layout.ofStatements assembler.limits program.statements = .ok layout ∧
      layout.symbols = finished.symbols ∧ layout.size = finished.code.length) ∧
    ∀ before label after name, program.statements = before ++ label :: after →
      label.kind = .label name →
      ∃ placed, Emission.ofStatements assembler.limits finished.symbols before = .ok placed ∧
        placed.code.toList <+: finished.code ∧
        finished.symbols.value? name = some (placed.code.toList.length : Int) := by
  obtain ⟨⟨layout, laidOut, symbols⟩, emitted⟩ := Assembler.generate_ok accepted
  constructor
  · have size := address_walk kept laidOut emitted rfl
    refine ⟨layout, laidOut, symbols, ?_⟩
    rw [← size, Emission.address_eq_length]
    rfl
  · intro before label after name split labels
    rw [← symbols] at kept emitted ⊢
    rw [split] at kept emitted laidOut
    obtain ⟨placed, next, placedAt⟩ := Emission.exists_splitAt emitted
    have upToLabel := (Emission.prefix_statement placedAt.statement).trans placedAt.code
    refine ⟨placed, placedAt.before, upToLabel, ?_⟩
    rw [value?_label_of_kept kept laidOut labels placedAt.before, placed.address_eq_length]

/-- A size that is set twice before its use, and another constant that is set after its use. -/
theorem addresses_agree_set_before :
    let name (name : String) : Operand := ⟨0, default, .symbol name⟩
    let set (constant : String) (value : Int) : Statement :=
      ⟨0, default, .directive .set [name constant, ⟨0, default, .immediate value⟩]⟩
    let label : Statement := ⟨0, default, .label "end"⟩
    let before : List Statement :=
      [set "n" 4, set "n" 8, ⟨0, default, .directive .space [name "n"]⟩, set "m" 1,
        ⟨0, default, .directive .byte [name "m"]⟩]
    let program : Program := ⟨"", "", 0, before ++ label :: [set "m" 2], 0⟩
    let assembler := Assembler.new {}
    let finished := (assembler.generate program).2
    assembler.generate program = (.ok (), finished) ∧
      SizesKept assembler.limits finished.symbols .empty program.statements ∧
      (∃ layout, Layout.ofStatements assembler.limits program.statements = .ok layout ∧
        layout.symbols = finished.symbols ∧ layout.size = finished.code.length) ∧
      ∃ placed, Emission.ofStatements assembler.limits finished.symbols before = .ok placed ∧
        placed.code.toList <+: finished.code ∧
        finished.symbols.value? "end" = some (placed.code.toList.length : Int) := by
  intro name set label before program assembler finished
  have result : (assembler.generate program).1 = .ok () := by
    dsimp only [assembler, program, before, label, set, name]
    rfl
  have accepted : assembler.generate program = (.ok (), finished) := by rw [← result]
  have unset : program.statements.Pairwise fun padding later ↦
      ∀ name, padding.sizedBy? = some name → later.assigned? ≠ some name := by
    simp [program, before, label, set, name, Statement.sizedBy?, Statement.assigned?,
      Directive.pads, OperandKind.symbol?]
  obtain ⟨⟨layout, laidOut, symbols⟩, -⟩ := Assembler.generate_ok accepted
  have kept : SizesKept assembler.limits finished.symbols .empty program.statements := by
    rw [← symbols]
    exact sizesKept_of_unset unset laidOut
  have agree := addresses_agree accepted kept
  exact ⟨accepted, kept, agree.1, agree.2 before label _ "end" rfl rfl⟩

/-- A size that is set after its use: the label stands at eight and has the value four. -/
theorem set_after_space_moves_label :
    let size : Operand := ⟨0, default, .symbol "n"⟩
    let set (value : Int) : Statement :=
      ⟨0, default, .directive .set [size, ⟨0, default, .immediate value⟩]⟩
    let label : Statement := ⟨0, default, .label "end"⟩
    let before : List Statement := [set 4, ⟨0, default, .directive .space [size]⟩]
    let program : Program := ⟨"", "", 0, before ++ label :: [set 8], 0⟩
    let assembler := Assembler.new {}
    let finished := (assembler.generate program).2
    assembler.generate program = (.ok (), finished) ∧
      (∃ layout, Layout.ofStatements assembler.limits program.statements = .ok layout ∧
        layout.size = 4 ∧ finished.code.length = 8) ∧
      ∃ placed, Emission.ofStatements assembler.limits finished.symbols before = .ok placed ∧
        placed.code.toList.length = 8 ∧ finished.symbols.value? "end" = some 4 := by
  intro size set label before program assembler finished
  have result : (assembler.generate program).1 = .ok () := by
    dsimp only [assembler, program, before, label, set, size]
    rfl
  have accepted : assembler.generate program = (.ok (), finished) := by rw [← result]
  refine ⟨accepted, ?_, ?_⟩
  · dsimp only [finished, assembler, program, before, label, set, size]
    exact ⟨_, rfl, rfl, rfl⟩
  · dsimp only [finished, assembler, program, before, label, set, size]
    exact ⟨_, rfl, rfl, rfl⟩

end MiniA64
