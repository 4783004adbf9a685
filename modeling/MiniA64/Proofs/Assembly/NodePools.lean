import Mathlib.Data.List.Flatten
import Mathlib.Data.List.Perm.Basic
import MiniA64.Proofs.Assembly.Growing
import MiniA64.Proofs.Assembly.Metering
import MiniA64.Proofs.Assembly.SourceOrder

/-!
# The arena of a program is a tree

The arena that a parser fills holds one tree and nothing else. Its nodes are known with their
numbers, so each handle in it leads to a node of a kind that may stand there, each node but the root
is below exactly one other node, and handles ascend in the order of the source. No handle is ever
looked up in vain.
-/

namespace MiniA64

/-! ## What may be below what -/

namespace OperandKind

/-- Instructions have no string literals. -/
def fitsInstruction : OperandKind → Bool
  | string _ => false
  | _ => true

/-- Directives have names, numbers and string literals. -/
def fitsDirective : OperandKind → Bool
  | symbol _ => true
  | immediate _ => true
  | string _ => true
  | _ => false

end OperandKind

namespace Arena.Content

def isLabel : Content → Bool
  | label _ => true
  | _ => false

/-- An instruction or a directive. -/
def isStatement : Content → Bool
  | instruction _ _ _ => true
  | directive _ _ => true
  | _ => false

def isOperand : Content → Bool
  | operand _ => true
  | _ => false

def isProgram : Content → Bool
  | program _ => true
  | _ => false

/-- A node may be directly below another one. -/
def takes : Content → Content → Bool
  | program _, below => below.isLabel || below.isStatement
  | instruction _ _ _, operand kind => kind.fitsInstruction
  | directive _ _, operand kind => kind.fitsDirective
  | _, _ => false

end Arena.Content

/-- The operands of a statement are of kinds that it may have. -/
def StatementKind.Proper : StatementKind → Prop
  | label _ => True
  | instruction _ _ operands => ∀ operand ∈ operands, operand.kind.fitsInstruction
  | directive _ arguments => ∀ argument ∈ arguments, argument.kind.fitsDirective

namespace Grammar

open MiniA64.Parser

theorem built_kinds (token : Token) :
    Built anywhere (operandKind token) (fun kind ↦ kind.fitsInstruction) ∧
      Built anywhere (argumentKind token) (fun kind ↦ kind.fitsDirective) := by
  constructor
  · have symbol : Built anywhere immediateOrSymbol fun kind ↦ kind.fitsInstruction := by
      refine .bind .current fun token _ ↦ ?_
      split
      · exact .bind .advance fun _ _ ↦ .pure rfl
      · exact .bind (.signedNumber _) fun _ _ ↦ .pure rfl
    have named (name : String) : Built anywhere (named name) fun kind ↦ kind.fitsInstruction := by
      unfold named
      split
      · exact .bind .advance fun _ _ ↦ .pure rfl
      split
      · refine .bind .following fun next _ ↦ ?_
        split
        · exact .bind .advance fun _ _ ↦ .bind .advance fun _ _ ↦
            .bind (.signedNumber _) fun _ _ ↦ .pure rfl
        · exact .bind .advance fun _ _ ↦ .pure rfl
      · exact .bind .advance fun _ _ ↦ .pure rfl
    unfold operandKind
    split
    · exact .bind .advance fun _ _ ↦ .bind (built_memory trivial) fun _ _ ↦ .pure rfl
    · exact .bind .advance fun _ _ ↦ symbol
    · exact named _
    · exact .bind (.signedNumber _) fun _ _ ↦ .pure rfl
    · exact .bind (.signedNumber _) fun _ _ ↦ .pure rfl
    · exact .refuse trivial
  · unfold argumentKind
    split
    · exact .bind .advance fun _ _ ↦ .pure rfl
    · exact .bind .advance fun _ _ ↦ .pure rfl
    · exact .bind .advance fun _ _ ↦ .bind (.identifier _) fun _ _ ↦ .pure rfl
    · exact .bind .advance fun _ _ ↦ .bind (.signedNumber _) fun _ _ ↦ .pure rfl
    · exact .bind (.signedNumber _) fun _ _ ↦ .pure rfl

theorem built_properList {kind : Token → Parser OperandKind} {fits : OperandKind → Bool}
    (built : ∀ token, Built anywhere (kind token) (fun kind ↦ fits kind))
    {item : Parser Operand} {shrinks : Shrinks item}
    (same : item = do
      let token ← current
      let kind ← kind token
      return ⟨← allocate token.location, token.location, kind⟩) :
    Built anywhere (operandList item shrinks) fun operands ↦
      ∀ operand ∈ operands, fits operand.kind := by
  have one : Built anywhere item fun operand ↦ fits operand.kind := by
    rw [same]
    exact .bind .current fun token _ ↦ .bind (built token) fun kind fitting ↦
      .bind (.allocate trivial) fun _ _ ↦ .pure fitting
  refine .bind .current fun token _ ↦ ?_
  split
  · exact .pure nofun
  · exact .pure nofun
  · exact .commaSeparated one

theorem built_proper :
    Built anywhere statement? fun found ↦
      ∀ line ∈ found, ∀ statement ∈ line, statement.kind.Proper := by
  have ended (location : Location) (kind : StatementKind) (proper : kind.Proper) :
      Built anywhere (do
        let slot ← allocate location
        endOfStatement
        return ⟨slot, location, kind⟩) fun statement : Statement ↦ statement.kind.Proper :=
    .bind (.allocate trivial) fun _ _ ↦ .bind built_endOfStatement fun _ _ ↦ .pure proper
  have directive (dot : Token) :
      Built anywhere (directive dot) fun statement ↦ statement.kind.Proper :=
    .bind built_directiveName fun _ _ ↦
      .bind (built_properList (fun token ↦ (built_kinds token).2) rfl) fun arguments proper ↦
        ended _ _ proper
  have named (first : Token) (name : String) (next : TokenKind) :
      Built anywhere (namedStatement first name next) fun statement ↦ statement.kind.Proper := by
    unfold namedStatement
    split
    · exact .bind .advance fun _ _ ↦ .bind (.allocate trivial) fun _ _ ↦ .pure trivial
    · unfold instruction
      split
      · exact .refuse trivial
      · exact .bind (built_properList (fun token ↦ (built_kinds token).1) rfl)
          fun operands proper ↦ ended _ _ proper
  refine .bind .current fun first _ ↦ .bind .following fun next _ ↦ ?_
  split
  · exact .pure (by simp)
  · exact .bind .advance fun _ _ ↦ .pure (by simp)
  · refine .bind .advance fun _ _ ↦ .bind (directive first) fun statement proper ↦ .pure ?_
    simpa using proper
  · refine .bind .advance fun _ _ ↦ .bind (named first _ next) fun statement proper ↦ .pure ?_
    simpa using proper
  · exact .refuse trivial

end Grammar

/-- The operands of all statements of a program are of kinds that may stand there. -/
theorem Program.proper_of_parse {source file : String} {capacity : Int} {program : Program}
    (read : Program.parse source file capacity = .ok program) :
    ∀ statement ∈ program.statements, statement.kind.Proper := by
  obtain ⟨after, ran, -⟩ := exists_run_of_parse read
  have stocked : Parser.Stocked Parser.anywhere
      ⟨(Cursor.start source 1).tokens file, ⟨capacity, 0⟩⟩ :=
    .tokens (fun _ _ ↦ trivial) fun _ _ ↦ trivial
  have built : Parser.Built Parser.anywhere (Grammar.program file) fun result ↦
      ∀ statement ∈ result.2, statement.kind.Proper := by
    refine .bind (.allocate trivial) fun root _ ↦ .bind (.many Grammar.built_proper)
      fun lines proper ↦ .pure fun statement member ↦ ?_
    obtain ⟨line, among, found⟩ := List.mem_filterMap.mp member
    exact proper line among statement found
  have sound := built.sound stocked
  rw [ran] at sound
  exact sound.1

/-! ## Handles and their nodes -/

namespace Statement

/-- The nodes of a statement with their numbers. -/
def numberedNodes (statement : Statement) : List (Nat × Arena.Node) :=
  statement.kind.operands.map (fun operand ↦ (operand.slot, operand.arenaNode)) ++
    [(statement.slot, statement.arenaNode)]

theorem map_fst_numberedNodes (statement : Statement) :
    statement.numberedNodes.map (·.1) = statement.slots := by
  simp [numberedNodes, slots]

theorem map_snd_numberedNodes (statement : Statement) :
    statement.numberedNodes.map (·.2) = statement.arenaNodes := by
  simp [numberedNodes, arenaNodes]

theorem handles_arenaNode (statement : Statement) :
    statement.arenaNode.content.handles = statement.kind.operands.map (·.slot) := by
  obtain ⟨slot, location, _ | _ | _⟩ := statement <;> rfl

/-- Only the statement itself has nodes below it. -/
theorem handles_arenaNodes (statement : Statement) :
    statement.arenaNodes.flatMap (·.content.handles) =
      statement.kind.operands.map (·.slot) := by
  have none : (statement.kind.operands.map Operand.arenaNode).flatMap (·.content.handles) = [] :=
    List.flatMap_eq_nil_iff.mpr fun node member ↦ by
      obtain ⟨operand, -, rfl⟩ := List.mem_map.mp member
      rfl
  rw [arenaNodes, List.flatMap_append, none, List.nil_append, List.flatMap_singleton,
    handles_arenaNode]

/-- No node of a statement is the one of a program. -/
theorem isProgram_eq_false (statement : Statement) :
    ∀ node ∈ statement.arenaNodes, node.content.isProgram = false := by
  intro node member
  obtain below | here := List.mem_append.mp member
  · obtain ⟨operand, -, rfl⟩ := List.mem_map.mp below
    rfl
  · obtain rfl := List.mem_singleton.mp here
    obtain ⟨slot, location, _ | _ | _⟩ := statement <;> rfl

/-- A label, an instruction or a directive takes its operands in. -/
theorem takes_operand {statement : Statement} (proper : statement.kind.Proper) :
    ∀ operand ∈ statement.kind.operands,
      statement.arenaNode.content.takes operand.arenaNode.content := by
  obtain ⟨slot, location, _ | _ | _⟩ := statement
  · exact nofun
  · exact proper
  · exact proper

end Statement

namespace Arena

/-- Each node is of one of four sorts. -/
theorem length_eq_countP (nodes : List Node) :
    nodes.length = nodes.countP (·.content.isProgram) + nodes.countP (·.content.isLabel) +
      nodes.countP (·.content.isStatement) + nodes.countP (·.content.isOperand) := by
  induction nodes with
  | nil => rfl
  | cons node nodes ih =>
    obtain ⟨location, content⟩ := node
    simp only [List.length_cons, List.countP_cons, ih]
    cases content <;>
      simp only [Content.isProgram, Content.isLabel, Content.isStatement, Content.isOperand] <;>
      simp <;> omega

/-- The nodes of an arena are a tree, each with what may be below it. -/
structure Tree.WellFormed (tree : Tree) : Prop where
  /-- The first node is the one of the program, and it is the only one. -/
  root : tree.root = 0 ∧ ∃ handles, tree.arena.node? 0 = some ⟨⟨tree.file, 1, 1⟩, .program handles⟩
  program : ∀ handle node, tree.arena.node? handle = some node →
    node.content.isProgram → handle = tree.root
  /-- Each handle leads to a node of a kind that may be there. -/
  valid : ∀ handle node, tree.arena.node? handle = some node →
    ∀ child ∈ node.content.handles, ∃ below, tree.arena.node? child = some below ∧
      node.content.takes below.content
  /-- Operands are stored in front of their statement. -/
  operands : ∀ handle node, tree.arena.node? handle = some node → handle ≠ tree.root →
    ∀ child ∈ node.content.handles, child < handle
  /-- Handles ascend, and so do the places of their nodes. -/
  ascending : ∀ handle node, tree.arena.node? handle = some node →
    node.content.handles.Pairwise fun first second ↦ first < second ∧
      ∀ earlier ∈ tree.arena.node? first, ∀ later ∈ tree.arena.node? second,
        earlier.location.Before later.location
  /-- Each node but the root is named once. -/
  parents : ∀ handle, (tree.arena.nodes.flatMap (·.content.handles)).count handle =
    if handle ≠ tree.root ∧ handle < tree.arena.nodes.length then 1 else 0
  room : tree.arena.nodes.length ≤ tree.arena.capacity
  size : tree.arena.nodes.length = 1 + tree.arena.nodes.countP (·.content.isLabel) +
    tree.arena.nodes.countP (·.content.isStatement) +
    tree.arena.nodes.countP (·.content.isOperand)

end Arena

namespace Program

variable {source file : String} {capacity : Int} {program : Program}
  (read : Program.parse source file capacity = .ok program)
include read

/-- The numbers of all nodes below the root, in their order. -/
theorem map_fst_nodes :
    (program.statements.flatMap Statement.numberedNodes).map (·.1) =
      List.range' 1 (program.statements.flatMap Statement.numberedNodes).length := by
  obtain ⟨-, numbered, -⟩ := Program.numbered_of_parse read
  have snd : (program.statements.flatMap Statement.numberedNodes).map (·.2) =
      program.statements.flatMap Statement.arenaNodes := by
    simp only [List.map_flatMap, Statement.map_snd_numberedNodes]
  rw [← snd, List.length_map] at numbered
  rw [← numbered, List.map_flatMap]
  simp only [Statement.map_fst_numberedNodes]

/-- A handle leads to a node below the root exactly if it is its number. -/
theorem node?_eq_some_iff {handle : Nat} {node : Arena.Node} :
    (program.arena capacity).node? (handle + 1) = some node ↔
      (handle + 1, node) ∈ program.statements.flatMap Statement.numberedNodes := by
  have slots := map_fst_nodes read
  have stored : (program.arena capacity).node? (handle + 1) =
      ((program.statements.flatMap Statement.numberedNodes).map (·.2))[handle]? := by
    simp only [List.map_flatMap, Statement.map_snd_numberedNodes]
    rfl
  generalize program.statements.flatMap Statement.numberedNodes = nodes at slots stored
  have number (index : Nat) (below : index < nodes.length) : nodes[index].1 = index + 1 := by
    have same := congrArg (·[index]?) slots
    simpa [below, Nat.add_comm 1] using same
  rw [stored, List.getElem?_map, Option.map_eq_some_iff]
  constructor
  · rintro ⟨pair, found, rfl⟩
    obtain ⟨below, rfl⟩ := List.getElem?_eq_some_iff.mp found
    rw [← number handle below]
    exact List.getElem_mem below
  · intro member
    obtain ⟨index, below, found⟩ := List.mem_iff_getElem.mp member
    obtain rfl : handle = index := by
      have here := number index below
      rw [found] at here
      exact Nat.succ.inj here
    exact ⟨_, List.getElem?_eq_getElem below, by rw [found]⟩

/-- The node of a statement, and those of its operands. -/
theorem node?_of_mem {statement : Statement} (member : statement ∈ program.statements) :
    (program.arena capacity).node? statement.slot = some statement.arenaNode ∧
      ∀ operand ∈ statement.kind.operands,
        (program.arena capacity).node? operand.slot = some operand.arenaNode := by
  have stored {pair : Nat × Arena.Node} (among : pair ∈ statement.numberedNodes) :
      (program.arena capacity).node? pair.1 = some pair.2 := by
    have all : pair ∈ program.statements.flatMap Statement.numberedNodes :=
      List.mem_flatMap.mpr ⟨statement, member, among⟩
    have positive : pair.1 ∈ List.range' 1 _ :=
      map_fst_nodes read ▸ List.mem_map_of_mem all
    obtain ⟨handle, same⟩ := Nat.exists_eq_succ_of_ne_zero
      (Nat.ne_of_gt (List.mem_range'_1.mp positive).1)
    rw [same]
    exact (node?_eq_some_iff read).mpr (by rw [Nat.succ_eq_add_one] at same; rw [← same]; exact all)
  constructor
  · exact stored (List.mem_append_right _ List.mem_cons_self)
  · intro operand among
    exact stored (List.mem_append_left _ (List.mem_map_of_mem
      (f := fun operand : Operand ↦ (operand.slot, operand.arenaNode)) among))

/-- A node of an arena is the root, the node of a statement or the one of an operand. -/
theorem node?_cases {handle : Nat} {node : Arena.Node}
    (found : (program.arena capacity).node? handle = some node) :
    (handle = 0 ∧ node = ⟨⟨program.file, 1, 1⟩, .program (program.statements.map (·.slot))⟩) ∨
      (handle ≠ 0 ∧ ∃ statement ∈ program.statements,
        (handle = statement.slot ∧ node = statement.arenaNode) ∨
          ∃ operand ∈ statement.kind.operands,
            handle = operand.slot ∧ node = operand.arenaNode) := by
  cases handle with
  | zero => exact .inl ⟨rfl, (Option.some.inj found).symm⟩
  | succ handle =>
    refine .inr ⟨Nat.succ_ne_zero handle, ?_⟩
    obtain ⟨statement, member, among⟩ :=
      List.mem_flatMap.mp ((node?_eq_some_iff read).mp found)
    refine ⟨statement, member, ?_⟩
    obtain below | here := List.mem_append.mp among
    · obtain ⟨operand, among, same⟩ := List.mem_map.mp below
      obtain ⟨number, node⟩ := Prod.mk.inj same
      exact .inr ⟨operand, among, number.symm, node.symm⟩
    · exact .inl (Prod.mk.inj (List.mem_singleton.mp here))

/-- The numbers of the statements ascend, and within each one those of its operands, which come in
front of it. -/
theorem slots_ascending :
    (program.statements.map (·.slot)).Pairwise (· < ·) ∧
      ∀ statement ∈ program.statements, statement.slots.Pairwise (· < ·) := by
  obtain ⟨-, numbered, -⟩ := Program.numbered_of_parse read
  have all : (program.statements.flatMap Statement.slots).Pairwise (· < ·) :=
    numbered ▸ List.pairwise_lt_range'
  constructor
  · rw [List.map_eq_flatMap]
    exact all.sublist (.flatMap_right _ fun statement _ ↦ List.sublist_append_right _ _)
  · intro statement member
    exact all.sublist (List.sublist_flatten_of_mem (List.mem_map_of_mem member))

/-- The statements stand one behind the other, and so do the operands of each. -/
theorem places_ascending :
    (program.statements.map (·.location)).Pairwise Location.Before ∧
      ∀ statement ∈ program.statements,
        (statement.kind.operands.map (·.location)).Pairwise Location.Before := by
  have all := Program.places_ordered read
  constructor
  · rw [List.map_eq_flatMap]
    exact all.sublist (.flatMap_right _ fun statement _ ↦
      List.singleton_sublist.mpr List.mem_cons_self)
  · intro statement member
    have places : statement.places.Pairwise Location.Before :=
      all.sublist (List.sublist_flatten_of_mem (List.mem_map_of_mem member))
    exact (List.pairwise_cons.mp places).2

/-- What is below some node is the numbers of all nodes but the root, in another order. -/
theorem handles_perm :
    ((program.arena capacity).nodes.flatMap (·.content.handles)).Perm
      (List.range' 1 (program.statements.flatMap Statement.arenaNodes).length) := by
  obtain ⟨-, numbered, -⟩ := Program.numbered_of_parse read
  rw [← numbered]
  have below : (program.statements.flatMap Statement.arenaNodes).flatMap (·.content.handles) =
      program.statements.flatMap fun statement ↦ statement.kind.operands.map (·.slot) := by
    rw [List.flatMap_assoc]
    exact List.flatMap_congr fun statement _ ↦ statement.handles_arenaNodes
  calc (program.arena capacity).nodes.flatMap (·.content.handles)
      = program.statements.map (·.slot) ++
          (program.statements.flatMap Statement.arenaNodes).flatMap (·.content.handles) := rfl
    _ = program.statements.flatMap (fun statement ↦ [statement.slot]) ++
          program.statements.flatMap (fun statement ↦ statement.kind.operands.map (·.slot)) := by
        rw [below, List.map_eq_flatMap]
    _ |>.Perm (program.statements.flatMap (fun statement ↦ statement.kind.operands.map (·.slot)) ++
          program.statements.flatMap (fun statement ↦ [statement.slot])) := List.perm_append_comm
    _ |>.Perm (program.statements.flatMap Statement.slots) := List.flatMap_append_perm _ _ _

theorem file_of_parse : program.file = file := by
  obtain ⟨after, -, same⟩ := exists_run_of_parse read
  rw [same]

/-- Each handle leads to a node that may be there. -/
theorem valid_arena {handle child : Nat} {node : Arena.Node}
    (found : (program.arena capacity).node? handle = some node)
    (member : child ∈ node.content.handles) :
    ∃ below, (program.arena capacity).node? child = some below ∧
      node.content.takes below.content := by
  obtain ⟨rfl, rfl⟩ | ⟨-, statement, among, ⟨rfl, rfl⟩ | ⟨operand, -, rfl, rfl⟩⟩ :=
    node?_cases read found
  · obtain ⟨statement, among, rfl⟩ := List.mem_map.mp member
    refine ⟨_, (node?_of_mem read among).1, ?_⟩
    obtain ⟨slot, location, _ | _ | _⟩ := statement <;> rfl
  · rw [statement.handles_arenaNode] at member
    obtain ⟨operand, within, rfl⟩ := List.mem_map.mp member
    exact ⟨_, (node?_of_mem read among).2 operand within,
      Statement.takes_operand (proper_of_parse read statement among) operand within⟩
  · cases member

/-- Handles ascend, and so do the places that they lead to. -/
theorem ascending_arena {handle : Nat} {node : Arena.Node}
    (found : (program.arena capacity).node? handle = some node) :
    node.content.handles.Pairwise fun first second ↦ first < second ∧
      ∀ earlier ∈ (program.arena capacity).node? first,
        ∀ later ∈ (program.arena capacity).node? second,
          earlier.location.Before later.location := by
  obtain ⟨slots, within⟩ := slots_ascending read
  obtain ⟨places, behind⟩ := places_ascending read
  obtain ⟨rfl, rfl⟩ | ⟨-, statement, among, ⟨rfl, rfl⟩ | ⟨operand, -, rfl, rfl⟩⟩ :=
    node?_cases read found
  · refine List.pairwise_map.mpr ?_
    have both := (List.pairwise_map.mp slots).and (List.pairwise_map.mp places)
    refine both.imp_of_mem fun {first second} here there ordered ↦ ⟨ordered.1, ?_⟩
    rw [(node?_of_mem read here).1, (node?_of_mem read there).1]
    rintro _ ⟨⟩ _ ⟨⟩
    exact ordered.2
  · rw [statement.handles_arenaNode]
    refine List.pairwise_map.mpr ?_
    have slots := (List.pairwise_append.mp (within statement among)).1
    have both := (List.pairwise_map.mp slots).and (List.pairwise_map.mp (behind statement among))
    refine both.imp_of_mem fun {first second} here there ordered ↦ ⟨ordered.1, ?_⟩
    rw [(node?_of_mem read among).2 _ here, (node?_of_mem read among).2 _ there]
    rintro _ ⟨⟩ _ ⟨⟩
    exact ordered.2
  · exact .nil

/-- Operands are stored in front of their statement. -/
theorem operand_before {handle child : Nat} {node : Arena.Node}
    (found : (program.arena capacity).node? handle = some node) (below : handle ≠ 0)
    (member : child ∈ node.content.handles) : child < handle := by
  obtain ⟨rfl, rfl⟩ | ⟨-, statement, among, ⟨rfl, rfl⟩ | ⟨operand, -, rfl, rfl⟩⟩ :=
    node?_cases read found
  · exact absurd rfl below
  · rw [statement.handles_arenaNode] at member
    exact (List.pairwise_append.mp ((slots_ascending read).2 statement among)).2.2 child member _
      List.mem_cons_self
  · cases member

/-- A program that is read has stored its nodes as a tree. -/
theorem wellFormed_arena :
    Arena.Tree.WellFormed ⟨source, file, program.root, program.arena capacity⟩ := by
  obtain ⟨root, -, count⟩ := numbered_of_parse read
  refine ⟨⟨root, _, by rw [← file_of_parse read]; rfl⟩, ?_,
    fun _ _ found _ ↦ valid_arena read found,
    fun _ _ found other _ ↦ operand_before read found (root ▸ other),
    fun _ _ found ↦ ascending_arena read found, fun handle ↦ ?_, ?_, ?_⟩
  · intro handle node found isProgram
    cases handle with
    | zero => exact root.symm
    | succ handle =>
      obtain ⟨statement, -, among⟩ :=
        List.mem_flatMap.mp ((node?_eq_some_iff read).mp found)
      have stored : node ∈ statement.arenaNodes :=
        statement.map_snd_numberedNodes ▸ List.mem_map_of_mem among
      rw [statement.isProgram_eq_false node stored] at isProgram
      cases isProgram
  · have length : (program.arena capacity).nodes.length =
        1 + (program.statements.flatMap Statement.arenaNodes).length := Nat.add_comm _ 1
    rw [(handles_perm read).count_eq, List.count_range_1', root, length]
    simp only [Nat.one_le_iff_ne_zero]
  · by_contra full
    have lack : capacity < program.nodes := by
      rw [count]
      exact Int.not_le.mp full
    obtain ⟨location, refused⟩ := (parse_metered read capacity).2 lack
    cases read.symm.trans refused
  · have only : (program.arena capacity).nodes.countP (·.content.isProgram) = 1 := by
      rw [arena, List.countP_cons_of_pos rfl]
      refine congrArg (· + 1) (List.countP_eq_zero.mpr fun node member ↦ ?_)
      obtain ⟨statement, -, among⟩ := List.mem_flatMap.mp member
      rw [statement.isProgram_eq_false node among]
      exact Bool.false_ne_true
    rw [← only]
    exact Arena.length_eq_countP _

end Program

namespace Arena

/-- A parser that comes to an end with a program has stored a tree, that of the program, within the
capacity. -/
theorem wellFormed_of_parse {source file : String} {capacity : Int} {tree : Tree}
    (read : Arena.parse source file capacity = some (.ok tree)) :
    tree.WellFormed ∧ tree.arena.capacity = capacity ∧
      ∃ program, Program.parse source file capacity = .ok program ∧
        tree = ⟨source, file, program.root, program.arena capacity⟩ ∧
        program.nodes = tree.arena.nodes.length := by
  rw [parse_eq] at read
  cases parsed : Program.parse source file capacity with
  | error diagnostic => rw [parsed] at read; cases read
  | ok program =>
    rw [parsed] at read
    cases read
    exact ⟨Program.wellFormed_arena parsed, rfl, program, rfl, rfl,
      (Program.numbered_of_parse parsed).2.2⟩

/-- A loop of two lines fills an arena of eight nodes. -/
theorem wellFormed_of_parse_loop :
    ∃ tree, Arena.parse "loop: add x0, x0, #1\nb loop" "<input>" 8 = some (.ok tree) ∧
      tree.WellFormed ∧ tree.arena.nodes.length = 8 := by
  have nodes : (Program.parse "loop: add x0, x0, #1\nb loop" "<input>" 8).toOption.map (·.nodes) =
      some 8 := by decide +kernel
  cases parsed : Program.parse "loop: add x0, x0, #1\nb loop" "<input>" 8 with
  | error diagnostic => rw [parsed] at nodes; cases nodes
  | ok program =>
    have read := parse_eq "loop: add x0, x0, #1\nb loop" "<input>" 8
    rw [parsed] at read
    obtain ⟨tree, -, other, same, -, count⟩ := wellFormed_of_parse read
    cases parsed.symm.trans same
    rw [parsed] at nodes
    exact ⟨_, read, tree, count.symm.trans (Option.some.inj nodes)⟩

end Arena

end MiniA64
