import MiniA64.Proofs.Assembly.Derivations

/-!
# Nodes of a program

How many nodes a parser makes does not depend on how many there may be. A parser that comes to an
end under one capacity comes to the same end under every other one that has room for its nodes, and
is refused for the lack of one under all others.
-/

namespace MiniA64

/-- The state with another capacity of the pool. -/
def ParserState.within (state : ParserState) (capacity : Int) : ParserState :=
  { state with pool := { state.pool with capacity } }

theorem ParserState.advance_within (state : ParserState) (capacity : Int) :
    (state.within capacity).advance = state.advance.within capacity := by
  unfold advance
  have same : (state.within capacity).current = state.current := rfl
  rw [same]
  split <;> rfl

namespace Parser

variable {ground : Ground} {α : Type} {parser : Parser α} {good : α → Prop}

/-- A parser that has made its nodes, under other capacities. -/
structure Metered (parser : Parser α) (state : ParserState) (result : α) (after : ParserState) :
    Prop where
  capacity : after.pool.capacity = state.pool.capacity
  grows : state.pool.used ≤ after.pool.used
  room : ∀ capacity, (after.pool.used : Int) ≤ capacity →
    parser (state.within capacity) = .ok (result, after.within capacity)
  lack : ∀ capacity, (state.pool.used : Int) ≤ capacity → capacity < after.pool.used →
    ∃ location, parser (state.within capacity) =
      .error ((AssemblyError.nodePoolExhausted capacity).locatedAt location)

/-- A parser that makes no node. -/
theorem Metered.of_same {state after : ParserState} {result : α}
    (pool : after.pool = state.pool)
    (same : ∀ capacity, parser (state.within capacity) = .ok (result, after.within capacity)) :
    Metered parser state result after := by
  refine ⟨by rw [pool], Nat.le_of_eq (by rw [pool]), fun capacity _ ↦ same capacity,
    fun capacity room lack ↦ ?_⟩
  rw [pool] at lack
  omega

theorem bind_of_error {β : Type} {second : α → Parser β} {state : ParserState}
    {diagnostic : Diagnostic} (failed : parser state = .error diagnostic) :
    (parser >>= second) state = .error diagnostic := by
  show parser state >>= _ = _
  rw [failed]
  rfl

theorem Metered.bind {β : Type} {first : Parser α} {second : α → Parser β}
    {state between after : ParserState} {item : α} {result : β}
    (begun : Metered first state item between)
    (ended : Metered (second item) between result after) :
    Metered (first >>= second) state result after := by
  have both (capacity : Int) : (first >>= second) (state.within capacity) =
    first (state.within capacity) >>= fun pair ↦ second pair.1 pair.2 := rfl
  refine ⟨ended.capacity.trans begun.capacity, Nat.le_trans begun.grows ended.grows, ?_, ?_⟩
  · intro capacity room
    have grows := ended.grows
    rw [both, begun.room capacity (by omega)]
    exact ended.room capacity room
  · intro capacity room lack
    by_cases early : capacity < between.pool.used
    · obtain ⟨location, refused⟩ := begun.lack capacity room early
      exact ⟨location, bind_of_error refused⟩
    · obtain ⟨location, refused⟩ := ended.lack capacity (Int.not_lt.mp early) lack
      exact ⟨location, by
        rw [both, begun.room capacity (Int.not_lt.mp early)]
        exact refused⟩

theorem many_eq (item : Parser (Option α)) (consumes : Consumes item) :
    many item consumes = item >>= fun found ↦
      match found with
      | none => pure []
      | some first => many item consumes >>= fun rest ↦ pure (first :: rest) := by
  funext state
  rw [many]
  show _ = item state >>= _
  split
  · rename_i failed
    rw [failed]
    rfl
  · rename_i ended
    rw [ended]
    rfl
  · rename_i found
    rw [found]
    show _ = many item consumes _ >>= _
    split
    · rename_i failed
      rw [failed]
      rfl
    · rename_i tail
      rw [tail]
      rfl

/-- Every parser that is put together of the steps of the grammar is metered. -/
theorem Built.metered (built : Built ground parser good) {state after : ParserState} {result : α}
    (stocked : Stocked ground state) (ran : parser state = .ok (result, after)) :
    Metered parser state result after := by
  induction built generalizing state after with
  | pure h =>
    cases ran
    exact .of_same rfl fun _ ↦ rfl
  | @bind α β first second between good h₁ h₂ ih₁ ih₂ =>
    obtain ⟨item, middle, begun, ended⟩ := bind_eq_ok ran
    have sound := h₁.sound stocked
    rw [begun] at sound
    exact (ih₁ stocked begun).bind (ih₂ item sound.1 sound.2 ended)
  | current | following =>
    cases ran
    exact .of_same rfl fun _ ↦ rfl
  | advance =>
    cases ran
    refine .of_same ?_ fun capacity ↦ ?_
    · unfold ParserState.advance
      split <;> rfl
    · exact congrArg (fun after ↦ Except.ok ((), after)) (state.advance_within capacity)
  | refuse here => cases ran
  | @allocate location here =>
    have free : (state.pool.used : Int) < state.pool.capacity := by
      refine Int.not_le.mp fun full ↦ ?_
      rw [allocate_full full] at ran
      cases ran
    rw [allocate_free free] at ran
    cases ran
    refine ⟨rfl, Nat.le_succ _, fun capacity room ↦ ?_, fun capacity room lack ↦ ?_⟩
    · have free : ((state.within capacity).pool.used : Int) < capacity :=
        Int.lt_iff_add_one_le.mpr room
      exact allocate_free free
    · have full : capacity ≤ (state.within capacity).pool.used := Int.lt_add_one_iff.mp lack
      exact ⟨location, allocate_full full⟩
  | @many α item consumes good h ih =>
    fun_induction Parser.many item consumes state generalizing after result with
    | case1 state diagnostic step => cases ran
    | case2 state ended step =>
      cases ran
      rw [many_eq]
      exact (ih stocked step).bind (.of_same rfl fun _ ↦ rfl)
    | case3 state first between step diagnostic failed later => cases ran
    | case4 state first between step rest last tail later =>
      cases ran
      have sound := h.sound stocked
      rw [step] at sound
      rw [many_eq]
      exact (ih stocked step).bind ((later sound.2 tail).bind (.of_same rfl fun _ ↦ rfl))

end Parser

/-- A program is read under exactly the capacities that have room for its nodes. -/
theorem Program.parse_metered {source file : String} {capacity : Int} {program : Program}
    (parsed : parse source file capacity = .ok program) (other : Int) :
    (program.nodes ≤ other → parse source file other = .ok program) ∧
      (other < program.nodes → ∃ location, parse source file other =
        .error ((AssemblyError.nodePoolExhausted other).locatedAt location)) := by
  have stocked : Parser.Stocked ⟨fun _ ↦ True, fun _ ↦ True⟩
      ⟨(Cursor.start source 1).tokens file, ⟨capacity, 0⟩⟩ :=
    .tokens (fun _ _ ↦ trivial) fun _ _ ↦ trivial
  have built : Parser.Built ⟨fun _ ↦ True, fun _ ↦ True⟩ (Grammar.program file) _ :=
    Grammar.built_program trivial
  unfold parse at parsed ⊢
  dsimp only at parsed ⊢
  split at parsed
  · rename_i root statements after ran
    cases parsed
    have metered := built.metered stocked ran
    refine ⟨fun room ↦ ?_, fun lack ↦ ?_⟩
    · have again : (Grammar.program file).run ⟨(Cursor.start source 1).tokens file, ⟨other, 0⟩⟩ =
          .ok ((root, statements), after.within other) := metered.room other room
      rw [again]
      rfl
    · have refused : ∃ location,
          (Grammar.program file).run ⟨(Cursor.start source 1).tokens file, ⟨other, 0⟩⟩ =
            .error ((AssemblyError.nodePoolExhausted other).locatedAt location) := by
        by_cases negative : other < 0
        · -- Without room for its own node there is no program at all.
          have root : Parser.allocate ⟨file, 1, 1⟩
              ⟨(Cursor.start source 1).tokens file, ⟨other, 0⟩⟩ =
                .error ((AssemblyError.nodePoolExhausted other).locatedAt ⟨file, 1, 1⟩) :=
            Parser.allocate_full (Int.le_of_lt negative)
          exact ⟨_, Parser.bind_of_error root⟩
        · exact metered.lack other (Int.not_lt.mp negative) lack
      obtain ⟨location, refused⟩ := refused
      exact ⟨location, by rw [refused]; rfl⟩
  · split at parsed <;> cases parsed

end MiniA64
