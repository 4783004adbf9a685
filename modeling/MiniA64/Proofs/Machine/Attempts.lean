import MiniA64.Proofs.Machine.Screens
import MiniA64.Proofs.Machine.Translation

/-!
# Attempts that do not escape

An attempted step is the step, if the framebuffer is sound, the instruction ceiling can be printed
and there are rounds enough for the loops. Rounds run out nowhere: a string in memory passes each
mapped address at most once, and every round of a line takes a byte from the input that is left.
-/

namespace MiniA64

variable {κ φ τ : Type}

theorem Text.printableNumber_of_lt {number : Int} (short : number.natAbs < 10 ^ 20) :
    PrintableNumber number :=
  Nat.lt_of_lt_of_le short (Nat.pow_le_pow_right (by decide) (show 20 ≤ digitLimit by decide))

theorem Text.not_printableNumber_neg_pow :
    (-10 ^ digitLimit : Int) ≤ 0 ∧ ¬PrintableNumber (-10 ^ digitLimit) := by
  constructor
  · generalize digitLimit = digits
    exact Int.neg_nonpos_of_nonneg (Int.pow_nonneg (by decide))
  · unfold PrintableNumber
    rw [Int.natAbs_neg, Int.natAbs_pow, show Int.natAbs 10 = 10 from rfl]
    exact Nat.lt_irrefl _

namespace Memory

/-- The number of mapped addresses from one on, in the window and among the plain offsets. -/
def mappedFrom (memory : Memory) (address : Int) : Nat :=
  (memory.base + memory.size - max address memory.base).toNat +
    (memory.size - max address 0 : Int).toNat

variable {memory : Memory} {address : Int}

theorem mappedFrom_le (memory : Memory) (address : Int) :
    memory.mappedFrom address ≤ 2 * memory.size := by
  unfold mappedFrom
  omega

/-- Going past a mapped address leaves fewer of them. -/
theorem mappedFrom_succ_lt {offset : Nat} (mapped : memory.translate address 1 = some offset) :
    memory.mappedFrom (address + 1) < memory.mappedFrom address := by
  unfold mappedFrom
  unfold translate at mapped
  split at mapped
  · omega
  split at mapped
  · omega
  · cases mapped

theorem getElem?_of_translate {offset : Nat} (mapped : memory.translate address 1 = some offset) :
    ∃ byte, memory.bytes[offset]? = some byte := by
  have below : offset < memory.bytes.size := by
    rw [← Memory.size]
    unfold translate at mapped
    split at mapped
    · cases mapped
      omega
    split at mapped
    · cases mapped
      omega
    · cases mapped
  exact ⟨_, Array.getElem?_eq_getElem below⟩

theorem stringFrom_of_unmapped (unmapped : memory.translate address 1 = none) (count : Nat) :
    memory.stringFrom count address = [] := by
  cases count with
  | zero => rfl
  | succ count =>
    have none : memory.byteAt? address = none := by rw [byteAt?, unmapped, Option.bind_none]
    rw [stringFrom, none]

end Memory

namespace Attempt

theorem string_eq {memory : Memory} {rounds bound : Nat} {address : Int} (limit : Option Nat)
    (enough : memory.mappedFrom address < rounds) (large : memory.mappedFrom address ≤ bound) :
    string memory rounds limit address =
      .ok (memory.stringFrom (limit.elim bound (min · bound)) address) := by
  induction rounds generalizing limit bound address with
  | zero => exact absurd enough (Nat.not_lt_zero _)
  | succ rounds ih =>
    unfold string
    split
    · rename_i exhausted
      rw [exhausted, Option.elim_some, Nat.zero_min, Memory.stringFrom]
    · rename_i remains
      cases mapped : memory.translate address 1 with
      | none => rw [Memory.stringFrom_of_unmapped mapped]
      | some offset =>
        have fewer := Memory.mappedFrom_succ_lt mapped
        obtain ⟨byte, held⟩ := Memory.getElem?_of_translate mapped
        have read : memory.byteAt? address = some byte := by
          rw [Memory.byteAt?, mapped, Option.bind_some, held]
        have count : limit.elim bound (min · bound) =
            (limit.map (· - 1)).elim (bound - 1) (min · (bound - 1)) + 1 := by
          cases limit with
          | none =>
            show bound = bound - 1 + 1
            omega
          | some limit =>
            have positive : limit ≠ 0 := fun zero ↦ remains (congrArg some zero)
            show min limit bound = min (limit - 1) (bound - 1) + 1
            omega
        rw [count, Memory.stringFrom, read]
        simp only [element, held, bind, Except.bind]
        split
        · rfl
        · have short : memory.mappedFrom (address + 1) ≤ bound - 1 := by omega
          rw [ih (limit.map (· - 1)) (by omega) short]

section Console

variable [Console κ]

theorem read_eq (world : World κ φ τ) : read world = world.input := rfl

theorem write_eq (world : World κ φ τ) (data : List UInt8) :
    write world data = world.print data := rfl

/-- Every round but the last takes a byte from the input. -/
theorem readLine_eq {buffer limit : Int} {rounds length : Nat} {world : World κ φ τ}
    (enough : world.inputLeft < rounds) :
    readLine buffer limit rounds length world =
      .ok (Service.readLine buffer limit length world) := by
  fun_induction Service.readLine buffer limit length world generalizing rounds
  all_goals obtain ⟨rounds, rfl⟩ := Nat.exists_eq_add_one.mpr (Nat.zero_lt_of_lt enough)
  case case1 length world short cause answer =>
    rw [readLine, if_pos short, read_eq, answer]
  case case2 length world short answer =>
    rw [readLine, if_pos short, read_eq, answer]
  case case3 length world short byte answer ends echoed =>
    simp only [readLine, if_pos short, read_eq, answer, if_pos ends]
    rfl
  case case4 world byte answer goes erases short ih =>
    have shrinks := world.inputLeft_input byte answer
    rw [← ih (by omega : world.input.2.inputLeft < rounds)]
    simp only [readLine, if_pos short, read_eq, answer, if_neg goes, if_pos erases]
    rfl
  case case5 length world short byte answer goes erases some cause failed =>
    simp only [readLine, if_pos short, read_eq, answer, if_neg goes, if_pos erases, if_neg some]
    rw [write_eq, failed]
  case case6 length world short byte answer goes erases some _ echoed ih =>
    have shrinks := world.inputLeft_input byte answer
    have echo := world.input.2.inputLeft_print Service.eraseEcho
    rw [← ih (by omega : (world.input.2.print Service.eraseEcho).2.inputLeft < rounds)]
    simp only [readLine, if_pos short, read_eq, answer, if_neg goes, if_pos erases, if_neg some]
    rw [write_eq, echoed]
  case case7 length world short byte answer goes stays cause failed =>
    simp only [readLine, if_pos short, read_eq, answer, if_neg goes, if_neg stays]
    rw [write_eq, failed]
  case case8 length world short byte answer goes stays _ echoed ih =>
    have shrinks := world.inputLeft_input byte answer
    have echo := world.input.2.inputLeft_print [byte]
    have left : ((world.input.2.print [byte]).2.write (buffer + length) [byte]).inputLeft <
        rounds := by
      rw [World.inputLeft_write]
      omega
    rw [← ih left]
    simp only [readLine, if_pos short, read_eq, answer, if_neg goes, if_neg stays]
    rw [write_eq, echoed]
  case case9 length world full =>
    rw [readLine, if_neg full]

end Console

/-! ## Services -/

theorem text_eq {memory : Memory} {rounds : Nat} (enough : 2 * memory.size < rounds)
    (address : Int) : string memory rounds none address = .ok (memory.string address none) := by
  have mapped := memory.mappedFrom_le address
  exact string_eq none (by omega) mapped

theorem name_eq {rounds : Nat} {config : Config} {world : World κ φ τ}
    (enough : 2 * world.memory.size < rounds) (address : Int) :
    name rounds config world address = .ok (Service.readName config world address) := by
  have mapped := world.memory.mappedFrom_le address
  unfold name
  rw [string_eq (some config.nameLimit.toNat) (by omega) mapped]
  rfl

theorem print_signed (value : Int) : print (Service.signed value) = .ok () := by
  have lower := BitVec.le_toInt (BitVec.ofInt 64 value)
  have upper := BitVec.toInt_lt (x := BitVec.ofInt 64 value)
  apply if_pos
  apply Text.printableNumber_of_lt
  unfold Service.signed
  omega

theorem char_byteArgument (argument : Service.Arguments) (index : Nat) :
    0 ≤ Service.byteArgument argument index ∧ Service.byteArgument argument index < 256 := by
  unfold Service.byteArgument
  omega

/-- As many bytes as an access spans can be read at its address. -/
theorem read_of_span {memory : Memory} {address length : Int} {count : Nat}
    (positive : count ≠ 0) (spanned : count ≤ memory.span address length) :
    ∃ data, memory.read address count = some data := by
  obtain ⟨offset, first, -, inside⟩ := Memory.exists_first (by omega :
    memory.span address length ≠ 0)
  obtain ⟨data, read, -⟩ := Memory.read_of_first first (by omega : 0 < count) (by omega)
  exact ⟨data, read⟩

theorem copyBytes_eq (argument : Service.Arguments) (world : World κ φ τ) :
    copyBytes argument world = .ok (Service.copyBytes argument world) := by
  unfold copyBytes Service.copyBytes
  dsimp only
  split
  · rfl
  · rename_i positive
    obtain ⟨data, held⟩ := read_of_span positive (Nat.min_le_right _ _)
    simp only [World.read, held, present, bind, Except.bind]

theorem fillBytes_eq (argument : Service.Arguments) (world : World κ φ τ) :
    fillBytes argument world = .ok (Service.fillBytes argument world) := by
  unfold fillBytes Service.fillBytes
  dsimp only
  split
  · rfl
  · rw [byte_eq (by omega) (by omega)]
    rfl

theorem randomBelow_eq (seed limit : Int) :
    randomBelow seed limit = .ok (Service.randomBelow seed limit) := by
  have positive : (if limit % 2 ^ 32 = 0 then 1 else limit % 2 ^ 32) ≠ 0 := by
    split
    · decide
    · assumption
  exact if_neg positive

theorem inputLine_eq [Console κ] {rounds : Nat} (config : Config) (argument : Service.Arguments)
    {world : World κ φ τ} (enough : world.inputLeft < rounds) :
    inputLine rounds config argument world =
      .ok (Service.runInputLine config argument world) := by
  unfold inputLine Service.runInputLine
  dsimp only
  rw [readLine_eq enough]
  generalize Service.readLine _ _ 0 world = outcome
  obtain ⟨_ | _, _⟩ := outcome <;> rfl

/-- An operation that does not escape hands its result on. -/
theorem bind_eq {α β : Type} {operation : Except Escape α} {value : α}
    (result : operation = .ok value) (next : α → Except Escape β) :
    (operation >>= next) = next value := by
  rw [result]
  rfl

theorem char_drawLine (argument : Service.Arguments) :
    ∀ dot ∈ Service.drawLine argument, 0 ≤ dot.char ∧ dot.char < 256 := by
  intro dot mem
  have char := char_byteArgument argument 4
  rw [Drawing.char_of_mem_line mem]
  split
  · decide
  · exact char

/-- A service finds all that it needs if the framebuffer is sound and its loops can end. -/
theorem run_eq [Console κ] [FileStore φ] [Clock τ] {rounds : Nat} (config : Config)
    (service : Service) (argument : Service.Arguments) {world : World κ φ τ}
    (sound : world.screen.Sound) (strings : 2 * world.memory.size < rounds)
    (lines : world.inputLeft < rounds) :
    run rounds config service argument world =
      .ok (Service.run config service argument world) := by
  cases service with
  | printString => exact bind_eq (text_eq strings (argument 0)) _
  | printChar => exact bind_eq (byte_eq (by omega) (by omega)) _
  | printNumber => exact bind_eq (print_signed (argument 0)) _
  | inputChar =>
    simp only [run, Service.run, read_eq]
    generalize world.input = reply
    obtain ⟨_ | _, _⟩ := reply <;> rfl
  | inputLine => exact inputLine_eq config argument lines
  | clearScreen => exact bind_eq (clear_eq sound) _
  | setColors => exact bind_eq (setColors_eq sound (argument 0) (argument 1)) _
  | plot =>
    exact bind_eq (draw_eq sound (List.forall_mem_singleton.mpr (char_byteArgument argument 2))) _
  | line => exact bind_eq (draw_eq sound (char_drawLine argument)) _
  | box => exact bind_eq (draw_eq sound fun _ ↦ Drawing.char_of_mem_box) _
  | canvas => exact bind_eq (setCanvas_eq sound (argument 0) (argument 1)) _
  | fileCreate | fileWrite | fileRead | fileDelete | fileExists =>
    exact bind_eq (name_eq strings (argument 0)) _
  | fileCopy | fileMove =>
    exact (bind_eq (name_eq strings (argument 0)) _).trans
      (bind_eq (name_eq strings (argument 1)) _)
  | stringLength => exact bind_eq (text_eq strings (argument 0)) _
  | copyMemory => exact bind_eq (copyBytes_eq argument world) _
  | fillMemory => exact bind_eq (fillBytes_eq argument world) _
  | random => exact bind_eq (randomBelow_eq _ (argument 0)) _
  | printHex | resetColors | absolute | sleep | uptime | halt => rfl

theorem dispatch_eq [Console κ] [FileStore φ] [Clock τ] {rounds : Nat} (config : Config)
    (number : Int) (argument : Service.Arguments) {world : World κ φ τ}
    (sound : world.screen.Sound) (strings : 2 * world.memory.size < rounds)
    (lines : world.inputLeft < rounds) :
    dispatch rounds config number argument world =
      .ok (Service.dispatch config number argument world) := by
  unfold dispatch Service.dispatch
  cases Service.ofNumber? number with
  | none => rfl
  | some service => exact run_eq config service argument sound strings lines

/-! ## Instructions -/

section

variable [Console κ] [FileStore φ] [Clock τ] {rounds : Nat} {machine : Machine κ φ τ}

/-- A call goes on from its dispatch without a further partial operation. -/
theorem serviceCall_of_dispatch {number : BitVec 16}
    (dispatched : dispatch rounds machine.config number.toNat
        (fun index ↦ (machine.registers.read (BitVec.ofNat 5 index)).toNat) machine.world =
      .ok (Service.dispatch machine.config number.toNat
        (fun index ↦ (machine.registers.read (BitVec.ofNat 5 index)).toNat) machine.world)) :
    serviceCall rounds number machine = .ok (machine.serviceCall number) := by
  unfold serviceCall Machine.serviceCall
  dsimp only
  rw [dispatched]
  generalize Service.dispatch machine.config _ _ machine.world = answer
  obtain ⟨(none | value) | _ | cause, world⟩ := answer <;> rfl

theorem serviceCall_eq (sound : machine.world.screen.Sound)
    (strings : 2 * machine.world.memory.size < rounds) (lines : machine.world.inputLeft < rounds)
    (number : BitVec 16) :
    serviceCall rounds number machine = .ok (machine.serviceCall number) :=
  serviceCall_of_dispatch (dispatch_eq _ _ _ sound strings lines)

theorem nonneg_rotation (width : Width) (amount : Nat) :
    ∀ count ∈ rotation width amount, 0 ≤ count := by
  have below : amount % width.bits < width.bits := Nat.mod_lt _ (by cases width <;> decide)
  intro count mem
  simp only [rotation, List.mem_cons, List.not_mem_nil, or_false] at mem
  omega

/-- The operands of an instruction keep its shifts within its width. -/
theorem nonneg_shiftCounts (registers : Registers) (instruction : Instruction) :
    ∀ count ∈ shiftCounts registers instruction, 0 ≤ count := by
  cases instruction with
  | addSubRegister width _ _ _ amount => exact nonneg_rotation width amount.toNat
  | logical width _ _ _ amount => exact nonneg_rotation width amount.toNat
  | bitfield width _ rotate last =>
    intro count mem
    simp only [shiftCounts] at mem
    split at mem <;> simp only [List.mem_cons, List.not_mem_nil, or_false] at mem <;> omega
  | extract _ low => exact List.forall_mem_singleton.mpr (Int.natCast_nonneg low.val)
  | twoSource width op rm =>
    cases op with
    | udiv | sdiv => exact List.forall_mem_nil _
    | shift => exact nonneg_rotation width _
  | _ => exact List.forall_mem_nil _

/-- Only a supervisor call asks the console. -/
theorem execute_silent {instruction : Instruction}
    (quiet : ∀ number, instruction ≠ .exception .svc number) :
    (let _ := Console.silent κ; machine.execute instruction) = machine.execute instruction := by
  cases instruction with
  | exception op number =>
    cases op with
    | svc => exact absurd rfl (quiet number)
    | hvc | smc => rfl
  | _ => rfl

theorem execute_eq (sound : machine.world.screen.Sound)
    (strings : 2 * machine.world.memory.size < rounds) (lines : machine.world.inputLeft < rounds)
    (instruction : Instruction) :
    execute rounds instruction machine = .ok (machine.execute instruction) := by
  have shifted : shifts (shiftCounts machine.registers instruction) = .ok () :=
    if_pos (List.all_eq_true.mpr fun count mem ↦
      decide_eq_true (nonneg_shiftCounts machine.registers instruction count mem))
  unfold execute
  split
  · exact serviceCall_eq sound strings lines _
  · rename_i quiet
    rw [bind_eq shifted]
    exact congrArg Except.ok (execute_silent quiet)

theorem perform_eq (sound : machine.world.screen.Sound)
    (strings : 2 * machine.world.memory.size < rounds) (lines : machine.world.inputLeft < rounds)
    (word : Word) : perform rounds word machine = .ok (machine.perform word) := by
  unfold perform Machine.perform
  cases decode word with
  | ok instruction => exact bind_eq (execute_eq sound strings lines instruction) _
  | error error => rfl

end

theorem ceiling_eq {machine : Machine κ φ τ}
    (printable : Text.PrintableNumber machine.config.maxInstructions) :
    ceiling machine = .ok () := by
  unfold ceiling
  split
  · exact if_pos printable
  · rfl

/-- A word that is fetched can be read as a number at the counter. -/
theorem readNat_of_fetch {machine : Machine κ φ τ} {word : Word}
    (fetched : machine.fetch = .ok word) :
    ∃ raw, machine.world.memory.readNat machine.registers.pc 4 = some raw ∧
      BitVec.ofNat 32 raw = word := by
  unfold Machine.fetch at fetched
  dsimp only at fetched
  split at fetched
  · cases fetched
  split at fetched
  · cases fetched
  split at fetched
  · cases fetched
  split at fetched
  · rename_i offset mapped
    split at fetched
    · rw [Memory.readNat, Memory.read, mapped]
      exact ⟨_, rfl, Except.ok.inj fetched⟩
    · cases fetched
  · cases fetched

theorem fetch_eq {machine : Machine κ φ τ}
    (printable : Text.PrintableNumber machine.config.maxInstructions) :
    fetch machine = .ok machine.fetch := by
  unfold fetch
  rw [bind_eq (ceiling_eq printable)]
  cases fetched : machine.fetch with
  | error stopped => rfl
  | ok word =>
    obtain ⟨raw, held, rfl⟩ := readNat_of_fetch fetched
    rw [held]
    rfl

end Attempt

/-- A step on a sound framebuffer, with rounds enough, does not escape. -/
theorem Machine.attempt_eq [Console κ] [FileStore φ] [Clock τ] {rounds : Nat}
    {machine : Machine κ φ τ} (sound : machine.world.screen.Sound)
    (printable : Text.PrintableNumber machine.config.maxInstructions)
    (enough : machine.rounds ≤ rounds) : machine.attempt rounds = .ok machine.step := by
  unfold Machine.rounds at enough
  unfold attempt step
  rw [Attempt.bind_eq (Attempt.fetch_eq printable)]
  cases machine.fetch with
  | error stopped => rfl
  | ok word =>
    exact Attempt.bind_eq (Attempt.perform_eq sound (by omega) (by omega) word) _

end MiniA64
