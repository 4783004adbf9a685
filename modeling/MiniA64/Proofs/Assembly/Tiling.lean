import Mathlib.Data.List.Forall2
import MiniA64.Proofs.Assembly.Limits
import MiniA64.Proofs.Assembly.SourceOrder

/-!
# The listing tiles the code

Whatever is emitted goes to the end of the code, and one entry at that address goes to the end of
the listing. So the entries cover the code from its first byte to its last one, in order and without
gaps. Each statement has a part of the listing of its own, with entries at the statement or at its
arguments only; the parts stand in the order of the statements, and so the entries in that of the
source.
-/

namespace MiniA64

/-! ## Entries -/

namespace ListingEntry

/-- The bytes of all entries. -/
def bytes (entries : List ListingEntry) : List UInt8 := entries.flatMap (·.data)

/-- Each entry has the address at which those before it end, the first one a given address. -/
def TileFrom (address : Nat) : List ListingEntry → Prop
  | [] => True
  | entry :: rest => entry.address = address ∧ TileFrom (address + entry.data.length) rest

variable {address : Nat} {front back : List ListingEntry}

@[simp] theorem bytes_append : bytes (front ++ back) = bytes front ++ bytes back :=
  List.flatMap_append

theorem tileFrom_append : TileFrom address (front ++ back) ↔
    TileFrom address front ∧ TileFrom (address + (bytes front).length) back := by
  induction front generalizing address with
  | nil => simp [TileFrom, bytes]
  | cons entry rest ih =>
    have sum : address + entry.data.length + (bytes rest).length =
        address + (bytes (entry :: rest)).length := by
      rw [bytes, bytes, List.flatMap_cons, List.length_append, Nat.add_assoc]
    rw [List.cons_append, TileFrom, TileFrom, ih, sum, and_assoc]

theorem TileFrom.address_eq {entry : ListingEntry}
    (tile : TileFrom address (front ++ entry :: back)) :
    entry.address = address + (bytes front).length :=
  (tileFrom_append.mp tile).2.1

end ListingEntry

/-- The part of the listing that a statement has. -/
def Statement.Lists (statement : Statement) (part : List ListingEntry) : Prop :=
  match statement.kind with
  | .label _ => part = []
  | .instruction _ _ _ =>
    ∃ entry, part = [entry] ∧ entry.location = statement.location ∧ entry.data.length = 4
  | .directive .align _ | .directive .balign _ | .directive .p2align _ =>
    part.map (·.location) = [] ∨ part.map (·.location) = [statement.location]
  | .directive .space _ | .directive .skip _ => part.map (·.location) = [statement.location]
  | .directive .byte arguments | .directive .hword arguments | .directive .word arguments
  | .directive .quad arguments | .directive .ascii arguments | .directive .asciz arguments
  | .directive .string arguments =>
    part.map (·.location) = arguments.map (·.location)
  | .directive _ _ => part = []

/-- Entries stand at the places of their statement, and in the same order. -/
theorem Statement.Lists.sublist {statement : Statement} {part : List ListingEntry}
    (lists : statement.Lists part) : (part.map (·.location)).Sublist statement.places := by
  obtain ⟨slot, location, kind⟩ := statement
  have none : ([] : List Location).Sublist (places ⟨slot, location, kind⟩) := List.nil_sublist _
  have here : [location].Sublist (places ⟨slot, location, kind⟩) :=
    (List.nil_sublist _).cons_cons location
  cases kind with
  | label name =>
    cases lists
    exact none
  | instruction mnemonic spelling operands =>
    obtain ⟨entry, rfl, place, -⟩ := lists
    rw [List.map_singleton, place]
    exact here
  | directive name arguments =>
    cases name with
    | align | balign | p2align =>
      obtain unused | used := lists
      · rw [unused]
        exact none
      · rw [used]
        exact here
    | space | skip =>
      rw [show part.map (·.location) = [location] from lists]
      exact here
    | byte | hword | word | quad | ascii | asciz | string =>
      rw [show part.map (·.location) = arguments.map (·.location) from lists]
      exact List.sublist_cons_self _ _
    | _ =>
      cases lists
      exact none

/-! ## One walk -/

namespace Emission

/-- An emission has grown by a part of the listing and by the bytes of its entries. -/
structure Adds (limits : Limits) (emission : Emission) (part : List ListingEntry)
    (emission' : Emission) : Prop where
  listing : emission'.listing.toList = emission.listing.toList ++ part
  code : emission'.code.toList = emission.code.toList ++ ListingEntry.bytes part
  tile : ListingEntry.TileFrom emission.address part
  room : part = [] ∨ (emission'.address : Int) ≤ limits.capacity

variable {limits : Limits} {symbols : SymbolTable} {emission between emission' : Emission}
  {part more : List ListingEntry}

theorem Adds.refl : Adds limits emission [] emission where
  listing := (List.append_nil _).symm
  code := (List.append_nil _).symm
  tile := trivial
  room := .inl rfl

theorem Adds.address (adds : Adds limits emission part emission') :
    emission'.address = emission.address + (ListingEntry.bytes part).length := by
  rw [address_eq_length, adds.code, List.length_append, address_eq_length]

theorem Adds.trans (first : Adds limits emission part between)
    (second : Adds limits between more emission') :
    Adds limits emission (part ++ more) emission' where
  listing := by rw [second.listing, first.listing, List.append_assoc]
  code := by rw [second.code, first.code, ListingEntry.bytes_append, List.append_assoc]
  tile := ListingEntry.tileFrom_append.mpr ⟨first.tile, first.address ▸ second.tile⟩
  room := by
    obtain rfl | room := second.room
    · -- Nothing has been added since the first part, so there is room still.
      rw [List.append_nil, second.address]
      exact first.room
    · exact .inr room

theorem adds_append {location : Location} {data : List UInt8} {size : Nat}
    (room : emission.fits limits size = true) (length : data.length = size) :
    Adds limits emission [⟨emission.address, data, location⟩] (emission.append location data) where
  listing := Array.toList_push
  code := by rw [code_append, ListingEntry.bytes, List.flatMap_singleton]
  tile := ⟨rfl, trivial⟩
  room := by
    rw [address_append, length]
    exact .inr (by simpa [fits] using room)

theorem adds_emit {location : Location} {data : List UInt8}
    (h : emission.emit limits location data = .ok emission') :
    Adds limits emission [⟨emission.address, data, location⟩] emission' := by
  rw [emit] at h
  split at h
  · rename_i room
    cases h
    exact adds_append room rfl
  · cases h

theorem adds_emitPadding {location : Location} {padding : Padding}
    (h : emission.emitPadding limits location padding = .ok emission') :
    Adds limits emission [⟨emission.address, padding.bytes, location⟩] emission' := by
  rw [emitPadding] at h
  split at h
  · rename_i room
    cases h
    exact adds_append room padding.length_bytes
  · cases h

theorem adds_each {location : Location} {absent : DirectiveError} {arguments : List Operand}
    {data : Operand → Except Diagnostic (List UInt8)}
    (h : emission.each limits location absent arguments data = .ok emission') :
    ∃ part, part.map (·.location) = arguments.map (·.location) ∧
      Adds limits emission part emission' := by
  replace h := each_ok h
  induction arguments generalizing emission with
  | nil =>
    cases h
    exact ⟨[], rfl, .refl⟩
  | cons argument rest ih =>
    rw [List.foldlM_cons] at h
    obtain ⟨next, first, h⟩ := Selection.bind_eq_ok.mp h
    obtain ⟨bytes, -, emitted⟩ := Selection.bind_eq_ok.mp first
    obtain ⟨part, places, adds⟩ := ih h
    refine ⟨⟨emission.address, bytes, argument.location⟩ :: part, ?_,
      (adds_emit emitted).trans adds⟩
    rw [List.map_cons, List.map_cons, places]

theorem adds_align {location : Location} {result : Except Diagnostic Padding}
    (h : (do
      let padding ← result
      if padding.count = 0 then return emission
      else emission.emitPadding limits location padding) = .ok emission') :
    ∃ part, (part.map (·.location) = [] ∨ part.map (·.location) = [location]) ∧
      Adds limits emission part emission' := by
  obtain ⟨padding, -, h⟩ := Selection.bind_eq_ok.mp h
  split at h
  · cases Selection.pure_eq_ok.mp h
    exact ⟨[], .inl rfl, .refl⟩
  · exact ⟨[⟨emission.address, padding.bytes, location⟩], .inr rfl, adds_emitPadding h⟩

/-- Every statement adds its part to the code and to the listing. -/
theorem adds_statement {statement : Statement}
    (h : emission.statement limits symbols statement = .ok emission') :
    ∃ part, statement.Lists part ∧ Adds limits emission part emission' := by
  obtain ⟨slot, location, kind⟩ := statement
  cases kind with
  | label name =>
    cases h
    exact ⟨[], rfl, .refl⟩
  | instruction mnemonic spelling operands =>
    obtain ⟨instruction, -, emitted⟩ := Selection.bind_eq_ok.mp h
    exact ⟨_, ⟨_, rfl, rfl, Word.length_toBytes _⟩, adds_emit emitted⟩
  | directive name arguments =>
    cases name with
    | text | data | bss | external | global | globl | equ | set =>
      cases h
      exact ⟨[], rfl, .refl⟩
    | namedSection =>
      obtain ⟨_, -, result⟩ := Selection.bind_eq_ok.mp h
      cases Selection.pure_eq_ok.mp result
      exact ⟨[], rfl, .refl⟩
    | align | balign | p2align => exact adds_align h
    | byte | hword | word | quad | ascii | asciz | string => exact adds_each h
    | space | skip =>
      obtain ⟨padding, -, padded⟩ := Selection.bind_eq_ok.mp h
      exact ⟨[⟨emission.address, padding.bytes, location⟩], rfl, adds_emitPadding padded⟩

/-- Statements add one part each, one behind the other. -/
theorem adds_walk {statements : List Statement}
    (h : statements.foldlM (statement limits symbols) emission = .ok emission') :
    ∃ parts, List.Forall₂ Statement.Lists statements parts ∧
      Adds limits emission parts.flatten emission' := by
  induction statements generalizing emission with
  | nil =>
    cases h
    exact ⟨[], .nil, .refl⟩
  | cons statement rest ih =>
    rw [List.foldlM_cons] at h
    obtain ⟨next, first, h⟩ := Selection.bind_eq_ok.mp h
    obtain ⟨part, lists, adds⟩ := adds_statement first
    obtain ⟨parts, others, more⟩ := ih h
    exact ⟨part :: parts, .cons lists others, adds.trans more⟩

end Emission

/-- The entries of all parts stand at places of the statements, and in the same order. -/
theorem Statement.sublist_of_lists {statements : List Statement} {parts : List (List ListingEntry)}
    (lists : List.Forall₂ Statement.Lists statements parts) :
    (parts.flatten.map (·.location)).Sublist (statements.flatMap Statement.places) := by
  induction lists with
  | nil => exact List.nil_sublist _
  | cons first _ ih =>
    rw [List.flatten_cons, List.map_append, List.flatMap_cons]
    exact first.sublist.append ih

/-! ## Sources -/

namespace Generator

variable {generator : Generator} {source file : String} {code : List UInt8}

/--
The listing of a source that is assembled tiles the code: the data of its entries make up the code,
each of them has the total length of those before it as its address, and they stand in the order of
the source. They fit into the capacity if there is any entry. Each statement has its part of the
listing, which for an instruction is one entry of four bytes at its own place.
-/
theorem listing_tiles_code (done : (generator.after (assemble source file)).1 = .ok code) :
    let later := (generator.after (assemble source file)).2
    let entries := later.listing.toList
    later.code.toList = code ∧ entries.flatMap (·.data) = code ∧
      (∀ before entry after, entries = before ++ entry :: after →
        entry.address = (before.flatMap (·.data)).length) ∧
      (entries = [] ∨ code.length ≤ generator.limits.capacity) ∧
      entries.Pairwise (fun first second ↦ first.location.Before second.location) ∧
      ∃ program parts, Program.parse source file generator.limits.nodes = .ok program ∧
        entries = parts.flatten ∧ List.Forall₂ Statement.Lists program.statements parts := by
  intro later entries
  obtain ⟨program, layout, emission, read, -, emitted, code_eq, -, listing⟩ :=
    exists_program_of_ok done
  obtain ⟨parts, lists, adds⟩ := Emission.adds_walk emitted
  have entries_eq : entries = parts.flatten :=
    (congrArg Array.toList listing).trans adds.listing
  have bytes : entries.flatMap (·.data) = code := by
    rw [entries_eq, ← code_eq]
    exact adds.code.symm
  refine ⟨code_of_ok done, bytes, fun before entry after split ↦ ?_, ?_, ?_,
    program, parts, read, entries_eq, lists⟩
  · have tile := adds.tile
    rw [← entries_eq, split] at tile
    exact tile.address_eq.trans (Nat.zero_add _)
  · rw [entries_eq, ← code_eq, ← Emission.address_eq_length]
    exact adds.room
  · have ordered := (Program.places_ordered read).sublist (Statement.sublist_of_lists lists)
    rw [← entries_eq] at ordered
    exact List.pairwise_map.mp ordered

/-- An instruction, two bytes, a padding and an empty string have five entries. -/
theorem listing_tiles_code_five :
    let source := "nop\n.byte 1, 2\n.align 2\nend: .ascii \"\""
    let later := ((new {}).after (assemble source "<input>")).2
    ∃ code, ((new {}).after (assemble source "<input>")).1 = .ok code ∧
      later.listing.toList.flatMap (·.data) = code ∧ code.length = 8 ∧
      later.listing.toList.map (fun entry ↦ (entry.address, entry.data.length)) =
        [(0, 4), (4, 1), (5, 1), (6, 2), (8, 0)] ∧
      later.listing.toList.Pairwise
        fun first second ↦ first.location.Before second.location := by
  intro source later
  have length : ((new {}).after (assemble source "<input>")).1.toOption.map List.length =
      some 8 := by decide +kernel
  have entries : later.listing.toList.map (fun entry ↦ (entry.address, entry.data.length)) =
      [(0, 4), (4, 1), (5, 1), (6, 2), (8, 0)] := by decide +kernel
  obtain ⟨code, done, eight⟩ := exists_ok_of_toOption length
  obtain ⟨-, bytes, -, -, ordered, -⟩ := listing_tiles_code done
  exact ⟨code, done, bytes, eight, entries, ordered⟩

/-- A source that emits nothing is not refused, so no bytes may exceed a negative capacity. -/
theorem empty_exceeds_negative_capacity :
    let answer := ((new { capacity := -1 }).after (assemble "" "<input>")).1
    answer.toOption = some [] ∧ ¬(([] : List UInt8).length : Int) ≤ -1 := by
  decide +kernel

end Generator

end MiniA64
