import MiniA64.Host.Memory
import MiniA64.Proofs.Machine.ServiceCalls

/-!
# Line input

A line is edited while it is typed: a backspace or a delete takes its last character away, a
carriage return or a line feed ends it, and any other character is stored behind the others. The
service goes on until the line ends, the buffer has one place left or there is no more input. The
length that it returns, the buffer, the screen and the input that is left are those of a fold over
the characters that it has taken.
-/

namespace MiniA64

/-- A console that never fails, with the input it still has and the output it has been given. -/
structure Console.Faithful {κ : Type} [Console κ] (pending shown : κ → List UInt8) : Prop where
  write : ∀ data (console : κ), (Console.write data console).1 = .ok ()
  pending_write : ∀ data (console : κ), pending (Console.write data console).2 = pending console
  shown_write : ∀ data (console : κ), shown (Console.write data console).2 = shown console ++ data
  readByte : ∀ console : κ, (Console.readByte console).1 = .ok (pending console).head?
  pending_readByte : ∀ console : κ, pending (Console.readByte console).2 = (pending console).tail
  shown_readByte : ∀ console : κ, shown (Console.readByte console).2 = shown console

namespace Console.Faithful

variable {κ φ τ : Type} [Console κ] {pending shown : κ → List UInt8}
  (faithful : Console.Faithful pending shown) (world : World κ φ τ)

include faithful

theorem input : world.input.1 = .ok (pending world.host.console).head? := by
  unfold World.input
  simp only [faithful.readByte]

theorem pending_input :
    pending world.input.2.host.console = (pending world.host.console).tail :=
  faithful.pending_readByte world.host.console

theorem shown_input : shown world.input.2.host.console = shown world.host.console :=
  faithful.shown_readByte world.host.console

theorem print (data : List UInt8) : (world.print data).1 = .ok () := by
  unfold World.print
  simp only [faithful.write]

theorem pending_print (data : List UInt8) :
    pending (world.print data).2.host.console = pending world.host.console :=
  faithful.pending_write data world.host.console

theorem shown_print (data : List UInt8) :
    shown (world.print data).2.host.console = shown world.host.console ++ data :=
  faithful.shown_write data world.host.console

variable {world}

/-- The byte that is read was the first one of the input. -/
theorem pending_eq_cons {byte : UInt8} (answer : world.input.1 = .ok (some byte)) :
    pending world.host.console = byte :: pending world.input.2.host.console := by
  rw [faithful.input, Except.ok.injEq, List.head?_eq_some_iff] at answer
  obtain ⟨rest, held⟩ := answer
  rw [faithful.pending_input, held, List.tail_cons]

theorem pending_eq_nil (answer : world.input.1 = .ok none) :
    pending world.host.console = [] := by
  rw [faithful.input, Except.ok.injEq, List.head?_eq_none_iff] at answer
  exact answer

end Console.Faithful

theorem BufferConsole.faithful :
    Console.Faithful BufferConsole.input fun console ↦ console.output.toList where
  write _ _ := rfl
  pending_write _ _ := rfl
  shown_write data console := by
    simp [Console.write, BufferConsole.write]
  readByte := by
    rintro ⟨_ | _, _⟩ <;> rfl
  pending_readByte := by
    rintro ⟨_ | _, _⟩ <;> rfl
  shown_readByte := by
    rintro ⟨_ | _, _⟩ <;> rfl

/-! ## Editing -/

namespace LineInput

/-- The line after a character, where backspace and delete take the last one away. -/
def press (line : List UInt8) (char : UInt8) : List UInt8 :=
  if char = 8 ∨ char = 127 then line.dropLast else line ++ [char]

/-- The line after all characters in turn. -/
def edited (line typed : List UInt8) : List UInt8 := typed.foldl press line

/-- What the screen is sent for a character. There is nothing to take away from an empty line. -/
def echo (line : List UInt8) (char : UInt8) : List UInt8 :=
  if char = 8 ∨ char = 127 then if line = [] then [] else [8, 32, 8] else [char]

def echoed (line : List UInt8) : List UInt8 → List UInt8
  | [] => []
  | char :: rest => echo line char ++ echoed (press line char) rest

/-- Why no more characters are taken: the next one ends the line, the line leaves one place of the
limit, or there is no more input. -/
def Stops (limit : Nat) (line ending rest : List UInt8) : Prop :=
  ((ending = [13] ∨ ending = [10]) ∧ line.length + 1 < limit) ∨
    (ending = [] ∧ (line.length + 1 = limit ∨ rest = []))

/-- The input is divided into characters that edit the line, the one that ends it, and the rest. The
line ends where it can do so for the first time. -/
structure Divides (limit : Nat) (line input typed ending rest : List UInt8) : Prop where
  input_eq : input = typed ++ ending ++ rest
  no_end : ∀ char ∈ typed, char ≠ 13 ∧ char ≠ 10
  has_room : ∀ count < typed.length, (edited line (typed.take count)).length + 1 < limit
  stops : Stops limit (edited line typed) ending rest

variable {limit : Nat} {line input typed typed' ending ending' rest rest' : List UInt8}
  {char : UInt8}

theorem Divides.nil (input_eq : input = ending ++ rest) (stops : Stops limit line ending rest) :
    Divides limit line input [] ending rest :=
  ⟨input_eq, List.forall_mem_nil _, fun _ within ↦ absurd within (Nat.not_lt_zero _), stops⟩

theorem Divides.cons (divides : Divides limit (press line char) input typed ending rest)
    (goes : char ≠ 13 ∧ char ≠ 10) (room : line.length + 1 < limit) :
    Divides limit line (char :: input) (char :: typed) ending rest where
  input_eq := congrArg (char :: ·) divides.input_eq
  no_end := List.forall_mem_cons.mpr ⟨goes, divides.no_end⟩
  has_room count within := by
    cases count with
    | zero => exact room
    | succ count => exact divides.has_room count (Nat.lt_of_succ_lt_succ within)
  stops := divides.stops

/-- A division without a character leaves no other one a character. -/
theorem Divides.typed_eq_nil (stopped : Divides limit line input [] ending rest)
    (divides : Divides limit line input typed ending' rest') : typed = [] := by
  cases typed with
  | nil => rfl
  | cons char typed =>
    have head := stopped.input_eq.symm.trans divides.input_eq
    have goes := divides.no_end char List.mem_cons_self
    have room : line.length + 1 < limit := divides.has_room 0 (Nat.zero_lt_succ _)
    obtain ⟨rfl | rfl, -⟩ | ⟨rfl, full | rfl⟩ := stopped.stops
    · exact absurd (List.cons.inj head).1.symm goes.1
    · exact absurd (List.cons.inj head).1.symm goes.2
    · exact absurd room (Nat.not_lt_of_le (Nat.le_of_eq full.symm))
    · cases head

/-- Where no character is left to take, the input and the line tell what ends the line. -/
theorem Divides.ending_eq (stopped : Divides limit line input [] ending rest) :
    ending = if line.length + 1 < limit then input.take 1 else [] := by
  rw [stopped.input_eq]
  obtain ⟨rfl | rfl, room⟩ | ⟨rfl, full | rfl⟩ := stopped.stops
  · exact (if_pos room).symm
  · exact (if_pos room).symm
  · exact (if_neg (Nat.not_lt_of_le (Nat.le_of_eq full.symm))).symm
  · split <;> rfl

theorem Divides.tail (divides : Divides limit line input (char :: typed) ending rest) :
    Divides limit (press line char) (typed ++ ending ++ rest) typed ending rest where
  input_eq := rfl
  no_end := (List.forall_mem_cons.mp divides.no_end).2
  has_room count within := divides.has_room (count + 1) (Nat.succ_lt_succ within)
  stops := divides.stops

/-- The input is divided in one way only. -/
theorem Divides.unique (first : Divides limit line input typed ending rest)
    (second : Divides limit line input typed' ending' rest') :
    typed = typed' ∧ ending = ending' ∧ rest = rest' := by
  have same := first.input_eq.symm.trans second.input_eq
  induction typed generalizing line input typed' with
  | nil =>
    cases first.typed_eq_nil second
    have ends : ending = ending' := first.ending_eq.trans second.ending_eq.symm
    subst ends
    exact ⟨rfl, rfl, List.append_cancel_left same⟩
  | cons char typed ih =>
    cases typed' with
    | nil => cases second.typed_eq_nil first
    | cons char' typed' =>
      obtain rfl : char = char' := (List.cons.inj same).1
      have tails : typed ++ ending ++ rest = typed' ++ ending' ++ rest' := (List.cons.inj same).2
      have shorter := second.tail
      rw [← tails] at shorter
      obtain ⟨rfl, rfl, rfl⟩ := ih first.tail shorter tails
      exact ⟨rfl, rfl, rfl⟩

theorem length_press_le (line : List UInt8) (char : UInt8) :
    (press line char).length ≤ line.length + 1 := by
  unfold press
  split
  · have shorter := line.length_dropLast
    omega
  · exact Nat.le_of_eq List.length_append

/-- There is a place left behind the line. -/
theorem Divides.length_lt (divides : Divides limit line input typed ending rest)
    (short : line.length < limit) : (edited line typed).length < limit := by
  obtain rfl | ⟨before, char, rfl⟩ := List.eq_nil_or_concat' typed
  · exact short
  · have room := divides.has_room before.length (by simp)
    rw [List.take_left] at room
    calc (edited line (before ++ [char])).length
      _ = (press (edited line before) char).length := by rw [edited, List.foldl_append]; rfl
      _ ≤ (edited line before).length + 1 := length_press_le _ _
      _ < limit := room

/-- A console before and after a line has been taken from it. -/
structure Takes {κ : Type} (pending shown : κ → List UInt8) (limit : Nat) (line : List UInt8)
    (before after : κ) (typed ending rest : List UInt8) : Prop where
  divides : Divides limit line (pending before) typed ending rest
  pending_eq : pending after = rest
  shown_eq : shown after = shown before ++ echoed line typed ++ if ending = [] then [] else [10]

variable {κ : Type} {pending shown : κ → List UInt8} {before between after : κ}

theorem Takes.nil (read : pending before = ending ++ pending after)
    (sent : shown after = shown before ++ if ending = [] then [] else [10])
    (stops : Stops limit line ending (pending after)) :
    Takes pending shown limit line before after [] ending (pending after) where
  divides := .nil read stops
  pending_eq := rfl
  shown_eq := by rw [sent, echoed, List.append_nil]

theorem Takes.cons
    (takes : Takes pending shown limit (press line char) between after typed ending rest)
    (read : pending before = char :: pending between)
    (echoes : shown between = shown before ++ echo line char) (goes : char ≠ 13 ∧ char ≠ 10)
    (room : line.length + 1 < limit) :
    Takes pending shown limit line before after (char :: typed) ending rest where
  divides := read ▸ takes.divides.cons goes room
  pending_eq := takes.pending_eq
  shown_eq := by
    rw [takes.shown_eq, echoes, echoed, List.append_assoc (shown before)]

end LineInput

/-! ## The buffer -/

namespace Memory

variable {before after : Memory} {place room : Nat} {data : List UInt8}

/-- The memory has some data at a place, and outside of the room for it nothing has changed. -/
structure Receives (before after : Memory) (place room : Nat) (data : List UInt8) : Prop
    extends SameWindow before after where
  fits : data.length ≤ room
  holds : ∀ k < data.length, after.bytes[place + k]? = data[k]?
  outside : ∀ index, ¬(place ≤ index ∧ index < place + room) →
    after.bytes[index]? = before.bytes[index]?

theorem Receives.nil (memory : Memory) (place room : Nat) : memory.Receives memory place room [] :=
  ⟨.refl memory, Nat.zero_le _, fun _ within ↦ absurd within (Nat.not_lt_zero _), fun _ _ ↦ rfl⟩

theorem Receives.dropLast (receives : before.Receives after place room data) :
    before.Receives after place room data.dropLast := by
  have shorter := data.length_dropLast
  have fits := receives.fits
  refine { receives with fits := by omega, holds := ?_ }
  intro k within
  rw [receives.holds k (by omega), List.getElem?_dropLast, if_pos (by omega)]

/-- One more byte behind the data, as long as there is room. -/
theorem Receives.concat (receives : before.Receives after place room data) (byte : UInt8)
    (base : before.base = 0) (inside : place + room ≤ before.size) (short : data.length < room) :
    after.translate (place + data.length) 1 = some (place + data.length) ∧
      before.Receives (after.put (place + data.length) [byte]) place room (data ++ [byte]) := by
  have size := receives.size
  have zero := receives.base
  have there : after.InWindow (place + data.length) ([byte].length : Nat) := by
    refine ⟨by omega, ?_⟩
    rw [List.length_singleton]
    omega
  have accepted := translate_of_inWindow there
  have offset : ((place : Int) + data.length - after.base).toNat = place + data.length := by omega
  rw [offset] at accepted
  have written := overwritten_put accepted
  refine ⟨accepted, { receives.toSameWindow.trans written.toSameWindow with
    fits := ?_, holds := ?_, outside := ?_ }⟩
  · rw [List.length_append, List.length_singleton]
    exact short
  · intro k within
    rw [List.length_append, List.length_singleton] at within
    by_cases last : k = data.length
    · subst last
      rw [List.getElem?_concat_length]
      exact written.inside 0 (Nat.zero_lt_one)
    · rw [List.getElem?_append_left (by omega), ← receives.holds k (by omega)]
      exact written.outside _ (by simp only [List.length_singleton]; omega)
  · intro index apart
    rw [← receives.outside index apart]
    exact written.outside index (by simp only [List.length_singleton]; omega)

end Memory

/-! ## The service -/

namespace Service

open LineInput

theorem isLineEnd_iff {byte : UInt8} : isLineEnd byte = true ↔ byte = 13 ∨ byte = 10 := by
  simp [isLineEnd]

theorem not_lineEnd {byte : UInt8} (goes : ¬isLineEnd byte = true) : byte ≠ 13 ∧ byte ≠ 10 :=
  not_or.mp (isLineEnd_iff.not.mp goes)

theorem isErase_iff {byte : UInt8} : isErase byte = true ↔ byte = 8 ∨ byte = 127 := by
  simp [isErase]

variable {κ φ τ : Type} {pending shown : κ → List UInt8} {original : Memory} {buffer limit : Nat}
  {line : List UInt8} {world : World κ φ τ}

/-- The service returns the length of the edited line, with the input taken and the line stored. -/
def Finishes (pending shown : κ → List UInt8) (original : Memory) (buffer limit : Nat)
    (line : List UInt8) (world : World κ φ τ) (outcome : Except FaultCause Nat × World κ φ τ) :
    Prop :=
  ∃ typed ending rest memory console,
    outcome = (.ok (edited line typed).length,
      { world with memory, host := { world.host with console } }) ∧
    Takes pending shown limit line world.host.console console typed ending rest ∧
    original.Receives memory buffer limit (edited line typed)

/-- The line is as it was when there is nothing more to take. -/
theorem Finishes.nil {ending rest : List UInt8} {console : κ}
    (takes : Takes pending shown limit line world.host.console console [] ending rest)
    (receives : original.Receives world.memory buffer limit line) :
    Finishes pending shown original buffer limit line world
      (.ok line.length, { world with host := { world.host with console } }) :=
  ⟨[], ending, rest, world.memory, console, rfl, takes, receives⟩

theorem Finishes.cons {memory : Memory} {char : UInt8} {console : κ}
    {outcome : Except FaultCause Nat × World κ φ τ}
    (finishes : Finishes pending shown original buffer limit (press line char)
      { world with memory, host := { world.host with console } } outcome)
    (read : pending world.host.console = char :: pending console)
    (sent : shown console = shown world.host.console ++ echo line char)
    (goes : char ≠ 13 ∧ char ≠ 10) (room : line.length + 1 < limit) :
    Finishes pending shown original buffer limit line world outcome := by
  obtain ⟨typed, ending, rest, memory, console, given, takes, receives⟩ := finishes
  exact ⟨char :: typed, ending, rest, memory, console, given,
    takes.cons read sent goes room, receives⟩

variable [Console κ] (faithful : Console.Faithful pending shown)

include faithful

/-- A character that the screen is sent something for. -/
theorem Finishes.print {memory : Memory} {data : List UInt8} {char : UInt8}
    {outcome : Except FaultCause Nat × World κ φ τ}
    (finishes : Finishes pending shown original buffer limit (press line char)
      { (world.input.2.print data).2 with memory } outcome)
    (answer : world.input.1 = .ok (some char)) (echoes : echo line char = data)
    (goes : char ≠ 13 ∧ char ≠ 10) (room : line.length + 1 < limit) :
    Finishes pending shown original buffer limit line world outcome := by
  have read := calc pending world.host.console
    _ = char :: pending world.input.2.host.console := faithful.pending_eq_cons answer
    _ = char :: pending (world.input.2.print data).2.host.console := by
      rw [faithful.pending_print]
  have sent := calc shown (world.input.2.print data).2.host.console
    _ = shown world.input.2.host.console ++ data := faithful.shown_print world.input.2 data
    _ = shown world.host.console ++ echo line char := by rw [faithful.shown_input, echoes]
  exact Finishes.cons finishes read sent goes room

/-- The rest of the input is taken into the buffer behind the line that is there already. -/
theorem finishes_readLine (base : original.base = 0) (inside : buffer + limit ≤ original.size)
    (length : Nat) (world : World κ φ τ) (line : List UInt8) (long : length = line.length)
    (room : line.length < limit) (receives : original.Receives world.memory buffer limit line) :
    Finishes pending shown original buffer limit line world
      (readLine buffer limit length world) := by
  fun_induction readLine (buffer : Int) (limit : Int) length world generalizing line with
  | case1 length world short cause answer =>
    rw [faithful.input] at answer
    cases answer
  | case2 length world short answer =>
    have read := faithful.pending_eq_nil answer
    have left : pending world.input.2.host.console = [] := by
      rw [faithful.pending_input, read, List.tail_nil]
    have sent : shown world.input.2.host.console = shown world.host.console ++ [] := by
      rw [faithful.shown_input, List.append_nil]
    have takes : Takes pending shown limit line world.host.console world.input.2.host.console [] []
        (pending world.input.2.host.console) :=
      .nil (read.trans left.symm) sent (.inr ⟨rfl, .inr left⟩)
    subst long
    exact .nil takes receives
  | case3 length world short byte answer ends echoed =>
    have ending : [byte] = [13] ∨ [byte] = [10] := by simpa using isLineEnd_iff.mp ends
    have read : pending world.host.console = [byte] ++ pending echoed.2.host.console := by
      rw [faithful.pending_eq_cons answer, faithful.pending_print]
      rfl
    have sent : shown echoed.2.host.console = shown world.host.console ++ [10] := by
      rw [faithful.shown_print, faithful.shown_input]
    have takes : Takes pending shown limit line world.host.console echoed.2.host.console [] [byte]
        (pending echoed.2.host.console) :=
      .nil read sent (.inl ⟨ending, by omega⟩)
    have printed : echoed.1 = .ok () := faithful.print world.input.2 [10]
    subst long
    rw [printed]
    exact .nil takes receives
  | case4 world byte answer goes erases short ih =>
    obtain rfl : line = [] := List.length_eq_zero_iff.mp long.symm
    have erase := isErase_iff.mp erases
    have same : press [] byte = [] := if_pos erase
    have silent : echo [] byte = [] := if_pos erase
    have sent : shown world.input.2.host.console = shown world.host.console ++ echo [] byte := by
      rw [faithful.shown_input, silent, List.append_nil]
    have finishes := ih [] rfl room receives
    rw [← same] at finishes
    exact .cons finishes (faithful.pending_eq_cons answer) sent (not_lineEnd goes) (by omega)
  | case5 length world short byte answer goes erases some cause failed =>
    rw [faithful.print] at failed
    cases failed
  | case6 length world short byte answer goes erases some _ echoed ih =>
    have erase := isErase_iff.mp erases
    have nonempty : line ≠ [] := fun empty ↦ some (long.trans (congrArg List.length empty))
    have shorter : press line byte = line.dropLast := if_pos erase
    have echoes : echo line byte = eraseEcho := by
      rw [echo, if_pos erase, if_neg nonempty]
      rfl
    have fewer := line.length_dropLast
    have finishes := ih line.dropLast (by omega) (by omega) receives.dropLast
    rw [← shorter] at finishes
    exact .print faithful finishes answer echoes (not_lineEnd goes) (by omega)
  | case7 length world short byte answer goes stays cause failed =>
    rw [faithful.print] at failed
    cases failed
  | case8 length world short byte answer goes stays _ echoed ih =>
    have stored := isErase_iff.not.mp stays
    have longer : press line byte = line ++ [byte] := if_neg stored
    have echoes : echo line byte = [byte] := if_neg stored
    obtain ⟨accepted, kept⟩ := receives.concat byte base inside room
    subst long
    have written : ((world.input.2.print [byte]).2.write (buffer + line.length) [byte]) =
        { (world.input.2.print [byte]).2 with
          memory := world.memory.put (buffer + line.length) [byte] } :=
      World.write_of_translate accepted
    rw [written] at ih ⊢
    have grown : (line ++ [byte]).length = line.length + 1 := List.length_append
    have finishes := ih (line ++ [byte]) grown.symm (by omega) kept
    rw [← longer] at finishes
    exact .print faithful finishes answer echoes (not_lineEnd goes) (by omega)
  | case9 length world full =>
    have all : line.length + 1 = limit := by omega
    have takes : Takes pending shown limit line world.host.console world.host.console [] []
        (pending world.host.console) :=
      .nil rfl (List.append_nil _).symm (.inr ⟨rfl, .inl all⟩)
    subst long
    exact .nil takes receives

/-- A whole line is taken into the buffer, with a zero byte behind it. -/
theorem runInputLine_takes {config : Config} {argument : Arguments} (world : World κ φ τ)
    (place : argument 0 = buffer)
    (limited : min (if argument 1 = 0 then config.lineDefault else argument 1) config.lineLimit =
      limit)
    (positive : 1 ≤ limit) (base : world.memory.base = 0)
    (inside : buffer + limit ≤ world.memory.size) :
    ∃ typed ending rest memory console,
      runInputLine config argument world = (.done (some (edited [] typed).length),
        { world with memory, host := { world.host with console } }) ∧
      Takes pending shown limit [] world.host.console console typed ending rest ∧
      world.memory.Receives memory buffer limit (edited [] typed ++ [0]) := by
  obtain ⟨typed, ending, rest, memory, console, read, takes, receives⟩ :=
    finishes_readLine faithful base inside 0 world [] rfl positive (.nil ..)
  have short : (edited [] typed).length < limit := takes.divides.length_lt positive
  obtain ⟨accepted, terminated⟩ := receives.concat 0 base inside short
  refine ⟨typed, ending, rest, _, console, ?_, takes, terminated⟩
  unfold runInputLine
  dsimp only
  rw [place, limited, read]
  exact congrArg (Prod.mk _) (World.write_of_translate accepted)

end Service

namespace Machine

open LineInput

variable {κ φ τ : Type} [Console κ] [FileStore φ] [Clock τ]

/--
A call for a line takes characters up to a line end, a line that fills the buffer or the end of the
input, whichever comes first. The first register gets the length of the edited line. The buffer gets
the line with a zero byte behind it, and no byte outside of the buffer changes. The screen is sent
each stored character, what erases a character for each one that is taken away, and a line feed if
the line has been ended.
-/
theorem execute_inputLine {pending shown : κ → List UInt8}
    (faithful : Console.Faithful pending shown) (machine : Machine κ φ τ) {buffer limit : Nat}
    (place : (machine.registers.read 0).toNat = buffer)
    (limited : min (if (machine.registers.read 1).toNat = 0 then machine.config.lineDefault
      else (machine.registers.read 1).toNat) machine.config.lineLimit = limit)
    (positive : 1 ≤ limit) (base : machine.world.memory.base = 0)
    (inside : buffer + limit ≤ machine.world.memory.size) :
    ∃ typed ending rest memory console,
      machine.execute (.exception .svc Service.inputLine.id) =
        { machine with
          world := { machine.world.noteCall .inputLine with
            memory, host := { machine.world.host with console } }
          registers := { machine.registers.write 0 (BitVec.ofNat 64 (edited [] typed).length) with
            pc := Registers.wrap (machine.registers.pc + 4) } } ∧
      Takes pending shown limit [] machine.world.host.console console typed ending rest ∧
      machine.world.memory.Receives memory buffer limit (edited [] typed ++ [0]) := by
  have bounded : min (if machine.arguments 1 = 0 then machine.config.lineDefault
      else machine.arguments 1) machine.config.lineLimit = limit := by
    rw [← limited]
    congr 1
    exact if_congr Int.natCast_eq_zero rfl rfl
  have address : machine.arguments 0 = buffer := congrArg Nat.cast place
  obtain ⟨typed, ending, rest, memory, console, answer, takes, receives⟩ :=
    Service.runInputLine_takes faithful (machine.world.noteCall .inputLine) address bounded positive
      base inside
  refine ⟨typed, ending, rest, memory, console, ?_, takes, receives⟩
  rw [execute_call, Service.run, answer]
  rfl

/-- A backspace before the line, a deletion in it and input that is left behind its end. -/
theorem execute_inputLine_edited :
    let machine : Machine BufferConsole MemoryStore ManualClock :=
      ((ofMemory {} ⟨0, Array.replicate 16 0, 4⟩
        ⟨.ofInput [8, 97, 98, 127, 99, 13, 122], .empty, .startingAt 0⟩ #[]).write .w64 0 4).write
          .w64 1 8
    let shown : BufferConsole → List UInt8 := fun console ↦ console.output.toList
    Console.Faithful BufferConsole.input shown ∧ (machine.registers.read 0).toNat = 4 ∧
      min (if (machine.registers.read 1).toNat = 0 then machine.config.lineDefault
        else (machine.registers.read 1).toNat) machine.config.lineLimit = (8 : Nat) ∧
      1 ≤ 8 ∧ machine.world.memory.base = 0 ∧ 4 + 8 ≤ machine.world.memory.size ∧
      ∃ typed ending rest memory console,
        machine.execute (.exception .svc Service.inputLine.id) =
          { machine with
            world := { machine.world.noteCall .inputLine with
              memory, host := { machine.world.host with console } }
            registers := { machine.registers.write 0 (BitVec.ofNat 64 (edited [] typed).length) with
              pc := Registers.wrap (machine.registers.pc + 4) } } ∧
        Takes BufferConsole.input shown 8 [] machine.world.host.console console typed ending rest ∧
        machine.world.memory.Receives memory 4 8 (edited [] typed ++ [0]) := by
  intro machine shown
  have place : (machine.registers.read 0).toNat = 4 := by decide
  have limited : min (if (machine.registers.read 1).toNat = 0 then machine.config.lineDefault
      else (machine.registers.read 1).toNat) machine.config.lineLimit = (8 : Nat) := by decide
  have inside : 4 + 8 ≤ machine.world.memory.size := by decide
  exact ⟨BufferConsole.faithful, place, limited, by decide, rfl, inside,
    execute_inputLine BufferConsole.faithful machine place limited (by decide) rfl inside⟩

end Machine

end MiniA64
