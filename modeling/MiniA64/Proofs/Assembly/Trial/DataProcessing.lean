import MiniA64.Assembly.Trial.Selection
import MiniA64.Proofs.Assembly.Trial.Operands

/-!
# Trials of operations on registers

The tables hold an entry for each mnemonic that the encoders of operations on registers are found
under, so that these encoders follow the selection.
-/

namespace MiniA64

namespace Trial

variable {site : Site} {operands : List Operand}

/-! ## Tables -/

theorem entry_addSubOperations (op : AddSubOp) (setFlags : Bool) :
    entry addSubOperations (.addSub op setFlags) = .ok (op, setFlags) := by
  cases op <;> cases setFlags <;> rfl

theorem entry_flipped (op : AddSubOp) (setFlags : Bool) :
    entry flipped (.addSub op setFlags) = .ok (.addSub op.flip setFlags) := by
  cases op <;> cases setFlags <;> rfl

theorem entry_logicalOperations (name : LogicalName) :
    entry logicalOperations (.logical name) = .ok name := by
  cases name <;> rfl

theorem entry_twoSource_divide (signed : Bool) :
    entry twoSourceOperations (.divide signed) = .ok (if signed then .sdiv else .udiv) := by
  cases signed <;> rfl

theorem entry_twoSource_shift (kind : ShiftKind) :
    entry twoSourceOperations (.shift kind) = .ok (.shift kind) := by
  cases kind <;> rfl

theorem entry_moveWideOperations (op : MoveWideOp) :
    entry moveWideOperations (.moveWide op) = .ok op := by
  cases op <;> rfl

theorem entry_branchRegisterOperations (op : BranchRegisterOp) :
    entry branchRegisterOperations (.branchRegister op) = .ok op := by
  cases op <;> rfl

theorem entry_unscaledByScaled (name : TransferName) :
    entry unscaledByScaled (.transfer name) = .ok (.unscaledTransfer name) := by
  cases name <;> rfl

theorem entry_scaledByUnscaled (name : TransferName) :
    entry scaledByUnscaled (.unscaledTransfer name) = .ok (.transfer name) := by
  cases name <;> rfl

theorem entry_hints (kind : Hint) : entry hints (.hint kind) = .ok kind := by
  cases kind <;> rfl

theorem entry_barriers (kind : Barrier) : entry barriers (.barrier kind) = .ok kind := by
  cases kind <;> rfl

theorem entry_exceptions (op : ExceptionOp) : entry exceptions (.exception op) = .ok op := by
  cases op <;> rfl

theorem entry_services (kind : Service) : entry services (.service kind) = .ok kind := by
  cases kind <;> rfl

theorem entry_transferForms (name : TransferName) :
    ∃ forms, entry transferForms (.transfer name) = .ok forms ∧
      ∀ width, forms.lookup width = name.transfer? width := by
  cases name <;> exact ⟨_, rfl, fun width ↦ by cases width <;> rfl⟩

/-! ## Arithmetic -/

theorem follows_linearShift (width : Width) (shift : Option ShiftOperand) :
    Follows (shiftFields linearShifts .lsl width (shift.map ShiftOperand.node))
      (Selection.linearShift width shift) := by
  rcases shift with _ | ⟨kind, amount, location⟩
  · rfl
  · cases kind with
    | ror => rfl
    | _ => exact (Keeps.settle _).bind fun amount ↦ rfl

theorem follows_anyShift (width : Width) (shift : Option ShiftOperand) :
    Follows (shiftFields allShifts .lsl width (shift.map ShiftOperand.node))
      (Selection.anyShift width shift) := by
  rcases shift with _ | ⟨kind, amount, location⟩
  · rfl
  · cases kind <;> exact (Keeps.settle _).bind fun amount ↦ rfl

theorem follows_addSubRegister (op : AddSubOp) (setFlags : Bool) (width : Width) (rd rn rm : Reg)
    (shift : Option ShiftOperand) :
    Follows
      (addSubRegister (.addSub op setFlags) width rd rn rm (shift.map ShiftOperand.node))
      (Selection.addSubRegister op setFlags width rd rn rm shift) := by
  unfold addSubRegister Selection.addSubRegister
  rw [entry_addSubOperations, ok_bind]
  exact (follows_linearShift width shift).bind fun fields ↦ rfl

theorem follows_logicalRegister (name : LogicalName) (width : Width) (rd rn rm : Reg)
    (shift : Option ShiftOperand) :
    Follows (logicalRegister (.logical name) width rd rn rm (shift.map ShiftOperand.node))
      (Selection.logicalRegister name width rd rn rm shift) := by
  unfold logicalRegister Selection.logicalRegister
  rw [entry_logicalOperations, ok_bind]
  exact (follows_anyShift width shift).bind fun fields ↦ rfl

theorem follows_arithmeticField (location : Location) (magnitude : Int)
    (shift : Option ShiftOperand) :
    Follows (arithmeticField location magnitude (shift.map ShiftOperand.node))
      (Selection.arithmeticField location magnitude shift) := by
  cases shift <;> exact .settle _

theorem follows_addSubImmediate (op : AddSubOp) (setFlags : Bool) (width : Width) (rd rn : Reg)
    (value : Int) (shift : Option ShiftOperand) (location : Location) :
    Follows
      (addSubImmediate (.addSub op setFlags) width rd rn value (shift.map ShiftOperand.node)
        location)
      (Selection.addSubImmediate op setFlags width rd rn value shift location) := by
  unfold addSubImmediate Selection.addSubImmediate
  by_cases negative : value < 0
  · simp only [if_pos negative, entry_flipped, ok_bind, entry_addSubOperations]
    exact (follows_arithmeticField location (-value) shift).bind fun field ↦ rfl
  · simp only [if_neg negative, pure_bind, entry_addSubOperations]
    exact (follows_arithmeticField location value shift).bind fun field ↦ rfl

theorem follows_addSub (op : AddSubOp) (setFlags : Bool) :
    Follows (addSub (.addSub op setFlags) site (operands.map Operand.node))
      (Selection.addSub site op setFlags operands) := by
  unfold addSub Selection.addSub
  refine .expect (fun counted ↦ ?_) fun wrong ↦ by rw [arrange?_eq_none wrong]
  obtain ⟨arrangement, rest, arranged, rfl⟩ := arrange?_of_length counted
  rw [arranged]
  refine (keeps_register arrangement.destination).bind fun rd ↦ ?_
  refine (keeps_sources keeps_register rd arranged).bind fun rn ↦ ?_
  refine (keeps_shift?_toList arrangement.shift).bind fun shift ↦ ?_
  cases held : Selection.registerOf? arrangement.second with
  | some rm =>
    rw [node_of_registerOf? held]
    simp only [isRegister_node, if_true, number_node, ok_bind]
    refine (follows_asRegisterForm rd).bind fun _ ↦ ?_
    refine (follows_asRegisterForm rn).bind fun _ ↦ ?_
    refine (follows_asRegisterForm rm).bind fun _ ↦ ?_
    refine (follows_sameWidth rd [rn, rm]).bind fun width ↦ ?_
    exact follows_addSubRegister ..
  | none =>
    have rest : Follows
        (do
          let width ← sameWidth site [rd.node, rn.node]
          let value ← valueOf site.symbols arrangement.second.node .registerOrImmediate
          addSubImmediate (.addSub op setFlags) width rd.number rn.number value
            (shift.map ShiftOperand.node) site.location)
        (do
          let width ← Selection.sameWidth site rd [rn]
          let value ← Selection.value site arrangement.second .registerOrImmediate
          Selection.addSubImmediate op setFlags width rd.number rn.number value shift
            site.location) :=
      (follows_sameWidth rd [rn]).bind fun width ↦ (follows_value _ _).bind fun value ↦
        follows_addSubImmediate ..
    rw [isRegister_of_none held, if_neg Bool.false_ne_true]
    simp only [number_node, ok_bind]
    refine .afterStack ?_
    cases setFlags with
    | true =>
      have flags : Mnemonic.addSub op true = .addSub .add true ∨
          Mnemonic.addSub op true = .addSub .sub true := by
        cases op <;> decide
      rw [if_pos flags, if_pos rfl]
      exact .afterData rest
    | false =>
      rw [if_neg (by simp), if_neg Bool.false_ne_true]
      exact .afterStack rest

theorem follows_compare (op : AddSubOp) :
    Follows (compare (.compare op) site (operands.map Operand.node))
      (Selection.compare site op operands) := by
  unfold compare Selection.compare
  refine .expect (fun counted ↦ ?_) fun wrong ↦ by rw [comparands?_eq_none wrong]
  obtain ⟨left, right, modifier, rfl, compared⟩ := comparands?_of_length counted
  have flagging : (if Mnemonic.compare op = .compare .sub then .addSub .sub true
      else .addSub .add true : Mnemonic) = .addSub op true := by
    cases op <;> rfl
  rw [compared]
  refine (keeps_register left).bind fun rn ↦ ?_
  refine (keeps_shift?_third left right modifier).bind fun shift ↦ ?_
  rw [if_neg (by simp), flagging]
  cases held : Selection.registerOf? right with
  | some rm =>
    rw [node_of_registerOf? held]
    simp only [isRegister_node, if_true, number_node, ok_bind]
    refine .afterData (.afterData ?_)
    exact (follows_sameWidth rn [rm]).bind fun width ↦ follows_addSubRegister ..
  | none =>
    rw [isRegister_of_none held, if_neg Bool.false_ne_true]
    simp only [number_node, width_node, ok_bind]
    refine .afterStack ?_
    exact (follows_value right _).bind fun value ↦ follows_addSubImmediate ..

theorem follows_test :
    Follows (compare .test site (operands.map Operand.node)) (Selection.test site operands) := by
  unfold compare Selection.test
  refine .expect (fun counted ↦ ?_) fun wrong ↦ by rw [comparands?_eq_none wrong]
  obtain ⟨left, right, modifier, rfl, compared⟩ := comparands?_of_length counted
  rw [compared]
  refine (keeps_register left).bind fun rn ↦ ?_
  refine (keeps_shift?_third left right modifier).bind fun shift ↦ ?_
  rw [if_pos rfl]
  refine .afterData ((keeps_dataRegister right).bind fun rm ↦ ?_)
  simp only [number_node, ok_bind]
  exact (follows_sameWidth rn [rm]).bind fun width ↦ follows_logicalRegister ..

theorem follows_logical (name : LogicalName) :
    Follows (logical (.logical name) site (operands.map Operand.node))
      (Selection.logical site name operands) := by
  unfold logical Selection.logical
  refine .expect (fun counted ↦ ?_) fun wrong ↦ by rw [arrange?_eq_none wrong]
  obtain ⟨arrangement, rest, arranged, rfl⟩ := arrange?_of_length counted
  rw [arranged]
  refine (keeps_dataRegister arrangement.destination).bind fun rd ↦ ?_
  refine (keeps_sources keeps_dataRegister rd arranged).bind fun rn ↦ ?_
  dsimp only
  cases held : Selection.registerOf? arrangement.second with
  | some rm =>
    rw [node_of_registerOf? held]
    simp only [isRegister_node, if_true, number_node, ok_bind]
    refine .afterData ((follows_sameWidth rd [rn, rm]).bind fun width ↦ ?_)
    exact (keeps_shift?_toList arrangement.shift).bind fun shift ↦ follows_logicalRegister ..
  | none =>
    rw [isRegister_of_none held, if_neg Bool.false_ne_true]
    exact keeps_refuse ..

theorem follows_negate :
    Follows (negate .negate site (operands.map Operand.node))
      (Selection.negate site operands) := by
  unfold negate Selection.negate Selection.unary
  refine .expect (fun counted ↦ ?_) fun wrong ↦ by rw [comparands?_eq_none wrong]
  obtain ⟨destination, source, modifier, rfl, compared⟩ := comparands?_of_length counted
  rw [compared]
  refine (keeps_dataRegister destination).bind fun rd ↦ ?_
  refine (keeps_dataRegister source).bind fun rm ↦ ?_
  refine (follows_sameWidth rd [rm]).bind fun width ↦ ?_
  refine (keeps_shift?_third destination source modifier).bind fun shift ↦ ?_
  rw [if_neg (by simp)]
  simp only [number_node, ok_bind]
  exact follows_addSubRegister ..

theorem follows_invert :
    Follows (negate .invert site (operands.map Operand.node))
      (Selection.invert site operands) := by
  unfold negate Selection.invert Selection.unary
  refine .expect (fun counted ↦ ?_) fun wrong ↦ by rw [comparands?_eq_none wrong]
  obtain ⟨destination, source, modifier, rfl, compared⟩ := comparands?_of_length counted
  rw [compared]
  refine (keeps_dataRegister destination).bind fun rd ↦ ?_
  refine (keeps_dataRegister source).bind fun rm ↦ ?_
  refine (follows_sameWidth rd [rm]).bind fun width ↦ ?_
  refine (keeps_shift?_third destination source modifier).bind fun shift ↦ ?_
  rw [if_pos rfl]
  simp only [number_node, ok_bind]
  exact follows_logicalRegister ..

/-- Two or three operands, of which the first is also the first source if there are two. -/
theorem binary?_of_length {operands : List Operand} (counted : operands.length ∈ [2, 3]) :
    (∃ first second, operands = [first, second]) ∨
      ∃ first second third, operands = [first, second, third] := by
  rcases operands with _ | ⟨a, _ | ⟨b, _ | ⟨c, _ | ⟨d, rest⟩⟩⟩⟩
  case cons.cons.nil => exact .inl ⟨a, b, rfl⟩
  case cons.cons.cons.nil => exact .inr ⟨a, b, c, rfl⟩
  all_goals simp at counted

theorem binary?_eq_none {operands : List Operand} (wrong : operands.length ∉ [2, 3]) :
    Selection.binary? operands = none := by
  unfold Selection.binary?
  split
  · simp at wrong
  · simp at wrong
  · rfl

theorem follows_shiftByRegister (kind : ShiftKind) (rd rn rm : RegisterOperand) :
    Follows (shiftByRegister (.shift kind) site rd.node rn.node rm.node)
      (do
        let rm ← Selection.asData rm
        let width ← Selection.sameWidth site rd [rn, rm]
        return .twoSource width (.shift kind) rm.number rn.number rd.number) := by
  unfold shiftByRegister
  refine .afterData ((follows_sameWidth rd [rn, rm]).bind fun width ↦ ?_)
  rw [entry_twoSource_shift]
  rfl

theorem follows_shiftByValue (kind : ShiftKind) (rd rn : RegisterOperand) (second : Operand) :
    Follows (shiftByValue (.shift kind) site rd.node rn.node second.node)
      (do
        let width ← Selection.sameWidth site rd [rn]
        let value ← Selection.value site second .registerOrShiftAmount
        let amount ← Selection.shiftAmount width site.location value
        return Selection.shiftImmediate kind width amount rn.number rd.number) := by
  unfold shiftByValue
  refine (follows_sameWidth rd [rn]).bind fun width ↦ ?_
  refine (follows_value second _).bind fun value ↦ (Keeps.settle _).bind fun amount ↦ ?_
  cases kind <;> rfl

theorem follows_shift (kind : ShiftKind) :
    Follows (shift (.shift kind) site (operands.map Operand.node))
      (Selection.shift site kind operands) := by
  unfold shift Selection.shift
  refine .expect (fun counted ↦ ?_) fun wrong ↦ by rw [binary?_eq_none wrong]
  obtain ⟨first, second, rfl⟩ | ⟨first, second, third, rfl⟩ := binary?_of_length counted
  · refine (keeps_dataRegister first).bind fun rd ↦ ?_
    show Follows (shiftBy (.shift kind) site rd.node rd.node second.node) _
    unfold shiftBy
    cases held : Selection.registerOf? second with
    | some rm =>
      rw [node_of_registerOf? held, isRegister_node, if_pos rfl]
      exact follows_shiftByRegister kind rd rd rm
    | none =>
      rw [isRegister_of_none held, if_neg Bool.false_ne_true]
      exact follows_shiftByValue kind rd rd second
  · refine (keeps_dataRegister first).bind fun rd ↦ (keeps_dataRegister second).bind fun rn ↦ ?_
    show Follows (shiftBy (.shift kind) site rd.node rn.node third.node) _
    unfold shiftBy
    cases held : Selection.registerOf? third with
    | some rm =>
      rw [node_of_registerOf? held, isRegister_node, if_pos rfl]
      exact follows_shiftByRegister kind rd rn rm
    | none =>
      rw [isRegister_of_none held, if_neg Bool.false_ne_true]
      exact follows_shiftByValue kind rd rn third

theorem follows_threeRegisters {next : Node × Node × Node → Trial Instruction}
    {select : Width → Reg → Reg → Reg → Instruction} (counted : operands.length ∈ [2, 3])
    (ended : ∀ rd rn rm : RegisterOperand, Follows (next (rd.node, rn.node, rm.node))
      (do
        let width ← Selection.sameWidth site rd [rn, rm]
        return select width rm.number rn.number rd.number)) :
    Follows (threeRegisters (operands.map Operand.node) >>= next)
      (Selection.binary site operands select) := by
  unfold threeRegisters Selection.binary
  obtain ⟨first, second, rfl⟩ | ⟨first, second, third, rfl⟩ := binary?_of_length counted
  · simp only [List.map_cons, List.map_nil, List.mapM_cons, List.mapM_nil, bind_assoc, pure_bind]
    refine (keeps_dataRegister first).bind fun rd ↦ ?_
    refine (keeps_dataRegister second).bind fun rm ↦ ?_
    exact ended rd rd rm
  · simp only [List.map_cons, List.map_nil, List.mapM_cons, List.mapM_nil, bind_assoc, pure_bind]
    refine (keeps_dataRegister first).bind fun rd ↦ ?_
    refine (keeps_dataRegister second).bind fun rn ↦ ?_
    refine (keeps_dataRegister third).bind fun rm ↦ ?_
    exact ended rd rn rm

theorem binary_of_length (wrong : operands.length ∉ [2, 3])
    (select : Width → Reg → Reg → Reg → Instruction) :
    Selection.binary site operands select = Selection.wrongCount site [2, 3] operands := by
  rw [Selection.binary, binary?_eq_none wrong]

theorem follows_multiply :
    Follows (multiply .multiply site (operands.map Operand.node))
      (Selection.multiply site operands) := by
  unfold multiply Selection.multiply
  refine .expect (fun counted ↦ ?_) fun wrong ↦ binary_of_length wrong _
  refine follows_threeRegisters counted fun rd rn rm ↦ ?_
  exact (follows_sameWidth rd [rn, rm]).bind fun width ↦ rfl

theorem follows_divide (signed : Bool) :
    Follows (divide (.divide signed) site (operands.map Operand.node))
      (Selection.divide site signed operands) := by
  unfold divide Selection.divide
  refine .expect (fun counted ↦ ?_) fun wrong ↦ binary_of_length wrong _
  refine follows_threeRegisters counted fun rd rn rm ↦ ?_
  refine (follows_sameWidth rd [rn, rm]).bind fun width ↦ ?_
  rw [entry_twoSource_divide]
  rfl

/-! ## Moves -/

theorem follows_moveImmediate (width : Width) (rd : Reg) (value : Int) (location : Location) :
    Follows (moveImmediate width rd value location)
      ((Selection.moveImmediate width rd value).mapError (·.locatedAt location)) := by
  unfold moveImmediate Selection.moveImmediate
  split
  · rfl
  · cases WindowMove.ofValue? (BitVec.ofInt width.bits value) with
    | none => rfl
    | some move =>
      dsimp only
      rw [entry_moveWideOperations]
      rfl

theorem follows_moveRegister (rd rm : RegisterOperand) :
    Follows (moveRegister site rd.node rm.node) (Selection.moveRegister site rd rm) := by
  unfold moveRegister Selection.moveRegister
  refine (follows_sameWidth rd [rm]).bind fun width ↦ ?_
  simp only [isStackPointer_node, ok_bind]
  split
  · exact .afterStack (.afterStack rfl)
  · rfl

theorem follows_move :
    Follows (move .move site (operands.map Operand.node)) (Selection.move site operands) := by
  unfold move Selection.move
  rcases operands with _ | ⟨destination, _ | ⟨source, _ | ⟨other, rest⟩⟩⟩
  case cons.cons.nil =>
    refine .counted (by simp) ?_
    refine (keeps_register destination).bind fun rd ↦ ?_
    cases held : Selection.registerOf? source with
    | some rm =>
      rw [List.map_cons, List.map_cons, node_of_registerOf? held]
      exact follows_moveRegister rd rm
    | none =>
      show Follows (if source.node.isRegister then moveRegister site rd.node source.node
        else if rd.name.isStackPointer then refuse rd.location .moveToStackPointer
        else do
          let value ← valueOf site.symbols source.node .registerOrImmediate
          moveImmediate rd.width rd.number value site.location) _
      rw [isRegister_of_none held, if_neg Bool.false_ne_true]
      dsimp only
      split
      · exact keeps_refuse ..
      · exact (follows_value source _).bind fun value ↦ follows_moveImmediate ..
  all_goals exact .miscounted (by simp)

theorem follows_window (width : Width) (shift : Option ShiftOperand) :
    Follows (window width (shift.map ShiftOperand.node)) (Selection.window width shift) := by
  cases shift <;> exact .settle _

theorem follows_moveWide (op : MoveWideOp) :
    Follows (moveWide (.moveWide op) site (operands.map Operand.node))
      (Selection.moveWide site op operands) := by
  unfold moveWide Selection.moveWide
  refine .expect (fun counted ↦ ?_) fun wrong ↦ by rw [comparands?_eq_none wrong]
  obtain ⟨destination, source, modifier, rfl, compared⟩ := comparands?_of_length counted
  rw [compared]
  refine (keeps_dataRegister destination).bind fun rd ↦ ?_
  refine (follows_value source _).bind fun value ↦ ?_
  split
  · exact keeps_outOfRange ..
  · refine (keeps_shift?_third destination source modifier).bind fun shift ↦ ?_
    simp only [width_node, number_node, ok_bind, entry_moveWideOperations]
    exact (follows_window rd.width shift).bind fun window ↦ rfl

end Trial

end MiniA64
