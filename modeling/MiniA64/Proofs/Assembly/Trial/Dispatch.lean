import MiniA64.Proofs.Assembly.Trial.DataProcessing

/-!
# Trials of instructions

The encoders of branches, of loads and stores and of the system follow the selection, and there is
an encoder for every mnemonic. So a trial to select an instruction ends as the selection does.
-/

namespace MiniA64

namespace Trial

variable {site : Site} {operands : List Operand}

/-! ## Branches -/

/-- Both ways of checking a displacement refuse the same ones. -/
theorem follows_displacement (bits : Nat) (name : String) (offset : Int) :
    Follows (displacement site bits name offset)
      (let fail (problem : BranchProblem) : Selected (BitVec bits) :=
          .error ((AssemblyError.branchRange name offset problem).locatedAt site.location)
        if offset % 4 ≠ 0 then fail .misaligned
        else if offset < -2 ^ (bits + 1) ∨ 2 ^ (bits + 1) ≤ offset then fail .outOfRange
        else return BitVec.ofInt bits (offset / 4)) := by
  unfold displacement
  dsimp only
  split
  · rfl
  · split <;> rfl

theorem follows_branchOffset (bits : Nat) (target : Operand) :
    Follows (branchOffset site bits target.node) (Selection.branchOffset site bits target) := by
  obtain ⟨slot, location, kind⟩ := target
  cases kind with
  | symbol name =>
    exact (Keeps.settle (site.symbols.resolve name location)).bind fun address ↦
      follows_displacement bits name (address - site.address)
  | immediate offset => exact follows_displacement bits ("#" ++ toString offset) offset
  | _ => rfl

theorem follows_branch (link : Bool) :
    Follows (branch (.branch link) site (operands.map Operand.node))
      (Selection.branch site link operands) := by
  unfold branch
  rcases operands with _ | ⟨target, _ | ⟨other, rest⟩⟩
  case cons.nil =>
    refine .counted (by simp) ?_
    refine (follows_branchOffset 26 target).bind fun offset ↦ ?_
    cases link <;> rfl
  all_goals exact .miscounted (by simp)

theorem follows_branchIf (condition : Condition) :
    Follows (branchIf (.branchIf condition) site (operands.map Operand.node))
      (Selection.branchIf site condition operands) := by
  unfold branchIf
  rcases operands with _ | ⟨target, _ | ⟨other, rest⟩⟩
  case cons.nil =>
    refine .counted (by simp) ?_
    exact (follows_branchOffset 19 target).bind fun offset ↦ rfl
  all_goals exact .miscounted (by simp)

theorem follows_compareBranch (nonzero : Bool) :
    Follows (compareBranch (.compareBranch nonzero) site (operands.map Operand.node))
      (Selection.compareBranch site nonzero operands) := by
  unfold compareBranch
  rcases operands with _ | ⟨tested, _ | ⟨target, _ | ⟨other, rest⟩⟩⟩
  case cons.cons.nil =>
    refine .counted (by simp) ?_
    refine (keeps_dataRegister tested).bind fun rt ↦ ?_
    refine (follows_branchOffset 19 target).bind fun offset ↦ ?_
    cases nonzero <;> rfl
  all_goals exact .miscounted (by simp)

theorem follows_branchRegister (op : BranchRegisterOp) :
    Follows (branchRegister (.branchRegister op) site (operands.map Operand.node))
      (Selection.branchRegister site op operands) := by
  unfold branchRegister
  rw [entry_branchRegisterOperations]
  rcases operands with _ | ⟨target, _ | ⟨other, rest⟩⟩
  case nil => cases op <;> rfl
  case cons.nil =>
    cases op <;> exact (keeps_dataRegister target).bind fun rn ↦ rfl
  case cons.cons =>
    cases op <;> exact .miscounted (by simp)

/-! ## Loads and stores -/

theorem literalForm_of_some {name : TransferName} {rt : RegisterOperand} {load : LiteralLoad}
    (chosen : Selection.literalLoad? name rt.width = some load) (target : Node) :
    literalForm (.transfer name) rt.node target = .ok load := by
  unfold literalForm
  rw [width_node]
  cases wide : rt.width <;> rw [wide] at chosen <;> cases name <;> cases chosen <;> rfl

theorem literalForm_of_none {name : TransferName} {rt : RegisterOperand}
    (none : Selection.literalLoad? name rt.width = none) (target : Node) :
    literalForm (.transfer name) rt.node target =
      refuse target.location (.needsMemory name.name) := by
  cases name with
  | ldr | ldrsw => cases wide : rt.width <;> rw [wide] at none <;> cases none
  | _ => rfl

/-- An operand that is no memory operand, in the place of one. -/
theorem follows_literalLoad (name : TransferName) (rt : RegisterOperand) (target : Operand) :
    Follows (literalLoad (.transfer name) site rt.node target.node)
      ((Selection.literalLoad? name rt.width).elim
        (Selection.refuse target.location (.needsMemory name.name))
        fun load ↦ do
          let offset ← Selection.branchOffset site 19 target
          return .loadLiteral load offset rt.number) := by
  unfold literalLoad
  cases chosen : Selection.literalLoad? name rt.width with
  | none =>
    rw [literalForm_of_none chosen]
    rfl
  | some load =>
    rw [literalForm_of_some chosen, ok_bind]
    exact (follows_branchOffset 19 target).bind fun offset ↦ rfl

theorem follows_scaledOffset (name : TransferName) (transfer : Transfer) (location : Location)
    (offset : Int) :
    Follows (scaledOffset (.transfer name) transfer location offset)
      (Selection.scaledOffset name transfer location offset) := by
  have positive : (transfer.byteCount : Int) ≠ 0 := by
    have := Nat.two_pow_pos transfer.size
    unfold Transfer.byteCount
    omega
  unfold scaledOffset Selection.scaledOffset modulo
  dsimp only
  rw [entry_unscaledByScaled, ok_bind, if_neg positive, ok_bind]
  refine .ite (fun _ ↦ keeps_outOfRange ..) fun _ ↦ ?_
  exact .ite (fun _ ↦ keeps_outOfRange ..) fun _ ↦ rfl

theorem follows_addressing (name : TransferName) (transfer : Transfer) (location : Location)
    (operand : MemoryOperand) :
    Follows (addressing (.transfer name) transfer ⟨.memory operand, location⟩)
      (Selection.addressing name transfer location operand.form) := by
  obtain ⟨base, form⟩ := operand
  cases form with
  | index rm => rfl
  | offset bytes =>
    exact (follows_scaledOffset name transfer location bytes).bind fun field ↦ rfl
  | preIndex bytes => exact (Keeps.settle _).bind fun field ↦ rfl
  | postIndex bytes => exact (Keeps.settle _).bind fun field ↦ rfl

theorem follows_transfer (name : TransferName) :
    Follows (transfer (.transfer name) site (operands.map Operand.node))
      (Selection.transfer site name operands) := by
  obtain ⟨forms, found, transfers⟩ := entry_transferForms name
  unfold transfer Selection.transfer
  rcases operands with _ | ⟨data, _ | ⟨target, _ | ⟨other, rest⟩⟩⟩
  case cons.cons.nil =>
    refine .counted (by simp) ?_
    refine (keeps_dataRegister data).bind fun rt ↦ ?_
    rw [found, ok_bind, width_node, ok_bind]
    unfold hasKey entry
    rw [transfers]
    cases name.transfer? rt.width with
    | none => exact keeps_refuse ..
    | some transfer =>
      have literal := @follows_literalLoad site name rt target
      obtain ⟨slot, location, kind⟩ := target
      cases kind with
      | memory operand =>
        exact (follows_addressing name transfer location operand).bind fun address ↦ rfl
      | _ =>
        cases chosen : Selection.literalLoad? name rt.width with
        | none =>
          rw [chosen] at literal
          exact literal
        | some load =>
          rw [chosen] at literal
          exact literal
  all_goals exact .miscounted (by simp)

theorem follows_unscaledTransfer (name : TransferName) :
    Follows (unscaledTransfer (.unscaledTransfer name) site (operands.map Operand.node))
      (Selection.unscaledTransfer site name operands) := by
  obtain ⟨forms, found, transfers⟩ := entry_transferForms name
  unfold unscaledTransfer Selection.unscaledTransfer
  rcases operands with _ | ⟨data, _ | ⟨target, _ | ⟨other, rest⟩⟩⟩
  case cons.cons.nil =>
    refine .counted (by simp) ?_
    refine (keeps_dataRegister data).bind fun rt ↦ ?_
    rw [entry_scaledByUnscaled, ok_bind, found, ok_bind, width_node, ok_bind]
    unfold hasKey entry
    rw [transfers]
    cases name.transfer? rt.width with
    | none => exact keeps_refuse ..
    | some transfer =>
      obtain ⟨slot, location, kind⟩ := target
      cases kind with
      | memory operand =>
        obtain ⟨base, form⟩ := operand
        cases form with
        | offset bytes => exact (Keeps.settle _).bind fun field ↦ rfl
        | _ => exact keeps_refuse ..
      | _ => exact keeps_refuse ..
  all_goals exact .miscounted (by simp)

theorem follows_pair (load : Bool) :
    Follows (pair (.pair load) site (operands.map Operand.node))
      (Selection.pair site load operands) := by
  unfold pair Selection.pair
  rcases operands with _ | ⟨first, _ | ⟨second, _ | ⟨target, _ | ⟨other, rest⟩⟩⟩⟩
  case cons.cons.cons.nil =>
    refine .counted (by simp) ?_
    refine (keeps_dataRegister first).bind fun rt ↦ ?_
    refine (keeps_dataRegister second).bind fun rt2 ↦ ?_
    refine (follows_sameWidth rt [rt2]).bind fun width ↦ ?_
    obtain ⟨slot, location, kind⟩ := target
    cases kind with
    | memory operand =>
      obtain ⟨base, form⟩ := operand
      cases form with
      | index rm => exact keeps_refuse ..
      | _ =>
        refine (Keeps.settle (Selection.pairOffset width location _)).bind fun field ↦ ?_
        cases load <;> rfl
    | _ => exact keeps_refuse ..
  all_goals exact .miscounted (by simp)

/-! ## The system -/

theorem follows_hint (kind : Hint) :
    Follows (hint (.hint kind) site (operands.map Operand.node))
      (Selection.hint site kind operands) := by
  unfold hint
  rw [entry_hints]
  cases operands with
  | nil => rfl
  | cons => exact .miscounted (by simp)

theorem follows_barrierOption (operand : Operand) :
    Follows (barrierOption operand.node) (Selection.barrierOption operand) := by
  obtain ⟨slot, location, kind⟩ := operand
  cases kind with
  | symbol name =>
    show Follows
      (if hasKey Barrier.options (Text.lower name) then
        entry Barrier.options (Text.lower name)
      else refuse location (.expected .barrierOption)) _
    unfold hasKey entry Selection.barrierOption
    dsimp only
    cases Barrier.options.lookup (Text.lower name) <;> rfl
  | immediate value => exact .ite (fun _ ↦ rfl) fun _ ↦ keeps_refuse ..
  | _ => rfl

theorem follows_barrier (kind : Barrier) :
    Follows (barrier (.barrier kind) site (operands.map Operand.node))
      (Selection.barrier site kind operands) := by
  unfold barrier
  rw [entry_barriers]
  rcases operands with _ | ⟨option, _ | ⟨other, rest⟩⟩
  case nil => rfl
  case cons.nil => exact (follows_barrierOption option).bind fun field ↦ rfl
  case cons.cons => exact .miscounted (by simp)

theorem follows_exception (op : ExceptionOp) :
    Follows (exception (.exception op) site (operands.map Operand.node))
      (Selection.exception site op operands) := by
  unfold exception
  rw [entry_exceptions]
  rcases operands with _ | ⟨number, _ | ⟨other, rest⟩⟩
  case cons.nil =>
    refine .counted (by simp) ?_
    refine (follows_value number _).bind fun value ↦ ?_
    split
    · exact keeps_outOfRange ..
    · rfl
  all_goals exact .miscounted (by simp)

theorem follows_service (kind : Service) :
    Follows (service (.service kind) site (operands.map Operand.node))
      (Selection.service site kind operands) := by
  unfold service
  rw [entry_services]
  cases operands with
  | nil => rfl
  | cons => exact .miscounted (by simp)

/-! ## Dispatch -/

/-- The encoder that each family of mnemonics shares. -/
def encoderOf : Mnemonic → Encoder
  | .addSub _ _ => addSub
  | .compare _ | .test => compare
  | .logical _ => logical
  | .negate | .invert => negate
  | .shift _ => shift
  | .divide _ => divide
  | .multiply => multiply
  | .move => move
  | .moveWide _ => moveWide
  | .transfer _ => transfer
  | .unscaledTransfer _ => unscaledTransfer
  | .pair _ => pair
  | .branch _ => branch
  | .branchIf _ => branchIf
  | .compareBranch _ => compareBranch
  | .branchRegister _ => branchRegister
  | .hint _ => hint
  | .barrier _ => barrier
  | .exception _ => exception
  | .service _ => service

/-- No mnemonic is without an encoder. -/
theorem entry_encoders (mnemonic : Mnemonic) :
    entry encoders mnemonic = .ok (encoderOf mnemonic) := by
  cases mnemonic with
  | addSub op setFlags => cases op <;> cases setFlags <;> rfl
  | compare op => cases op <;> rfl
  | logical name => cases name <;> rfl
  | shift kind => cases kind <;> rfl
  | moveWide op => cases op <;> rfl
  | transfer name => cases name <;> rfl
  | unscaledTransfer name => cases name <;> rfl
  | branchIf condition => cases condition <;> rfl
  | branchRegister op => cases op <;> rfl
  | hint kind => cases kind <;> rfl
  | barrier kind => cases kind <;> rfl
  | exception op => cases op <;> rfl
  | service kind => cases kind <;> rfl
  | divide flag | pair flag | branch flag | compareBranch flag => cases flag <;> rfl
  | _ => rfl

/-- A trial to select an instruction does not lapse, whatever the operands are. -/
theorem follows_select (mnemonic : Mnemonic) (site : Site) (operands : List Operand) :
    Follows (select mnemonic site (operands.map Operand.node))
      (mnemonic.select site operands) := by
  unfold select
  rw [entry_encoders, ok_bind]
  cases mnemonic with
  | addSub op setFlags => exact follows_addSub op setFlags
  | compare op => exact follows_compare op
  | test => exact follows_test
  | logical name => exact follows_logical name
  | negate => exact follows_negate
  | invert => exact follows_invert
  | shift kind => exact follows_shift kind
  | divide signed => exact follows_divide signed
  | multiply => exact follows_multiply
  | move => exact follows_move
  | moveWide op => exact follows_moveWide op
  | transfer name => exact follows_transfer name
  | unscaledTransfer name => exact follows_unscaledTransfer name
  | pair load => exact follows_pair load
  | branch link => exact follows_branch link
  | branchIf condition => exact follows_branchIf condition
  | compareBranch nonzero => exact follows_compareBranch nonzero
  | branchRegister op => exact follows_branchRegister op
  | hint kind => exact follows_hint kind
  | barrier kind => exact follows_barrier kind
  | exception op => exact follows_exception op
  | service kind => exact follows_service kind

end Trial

end MiniA64
