import Mathlib.Data.ZMod.Basic
import Mathlib.Dynamics.PeriodicPts.Lemmas
import Mathlib.Tactic.LinearCombination
import Mathlib.Tactic.Ring
import MiniA64.Proofs.Machine.Invariants
import MiniA64.Proofs.Machine.ServiceCalls

/-!
# Random numbers

The seed is the state of a linear congruence modulo a power of two. Its multiplier leaves one modulo
four and its increment is odd, so a power of two of rounds adds an odd multiple of this power to
the state. From any seed whatever, the seeds after the draws are therefore all words, each of them
once, before they repeat.

Nothing but a draw changes the seed, so in a run it is the one that belongs to the number of draws
so far. The numbers that are drawn are below the limit that was asked for.
-/

namespace MiniA64

open Function

/-! ## Linear congruences -/

/-- A sequence that takes each number below a bound once in as many places, and then repeats. -/
structure Cycles (sequence : Nat → Int) (bound : Nat) : Prop where
  range : ∀ place, 0 ≤ sequence place ∧ sequence place < bound
  once : ∀ (first : Nat) (value : Fin bound),
    ∃! place, first ≤ place ∧ place < first + bound ∧ sequence place = value
  again : ∀ place, sequence (place + bound) = sequence place

/-- A power of two of rounds adds an odd multiple of this power. -/
theorem exists_iterate_two_pow {R : Type} [CommRing R] (t s : R) (k : Nat) :
    ∃ u v : R, ∀ x, (fun x ↦ (1 + 4 * t) * x + (1 + 2 * s))^[2 ^ k] x =
      x + 2 ^ k * (1 + 2 * v + 4 * u * x) := by
  induction k with
  | zero => exact ⟨t, s, fun x ↦ by rw [pow_zero, iterate_one]; ring⟩
  | succ k ih =>
    obtain ⟨u, v, rounds⟩ := ih
    refine ⟨u + 2 * u * u * 2 ^ k, v + u * 2 ^ k * (1 + 2 * v), fun x ↦ ?_⟩
    rw [pow_succ, mul_two, iterate_add_apply, rounds, rounds]
    ring

/-- The modulus is a number of rounds that comes back, and half of it is none. -/
theorem minimalPeriod_congruence {k : Nat} (t s x : ZMod (2 ^ (k + 1))) :
    minimalPeriod (fun x ↦ (1 + 4 * t) * x + (1 + 2 * s)) x = 2 ^ (k + 1) := by
  have zero : (2 : ZMod (2 ^ (k + 1))) ^ (k + 1) = 0 := by
    exact_mod_cast ZMod.natCast_self (2 ^ (k + 1))
  have half : (2 : ZMod (2 ^ (k + 1))) ^ k ≠ 0 := by
    intro none
    have divides : 2 ^ (k + 1) ∣ 2 ^ k :=
      (ZMod.natCast_eq_zero_iff _ _).mp (by exact_mod_cast none)
    have short := (Nat.pow_dvd_pow_iff_le_right (by decide)).mp divides
    omega
  have prime : Fact (Nat.Prime 2) := ⟨Nat.prime_two⟩
  refine minimalPeriod_eq_prime_pow (fun early ↦ half ?_) ?_
  · obtain ⟨u, v, rounds⟩ := exists_iterate_two_pow t s k
    have moved : 2 ^ k * (1 + 2 * v + 4 * u * x) = 0 := by
      simpa using (rounds x).symm.trans early
    linear_combination moved - (v + 2 * u * x) * zero
  · obtain ⟨u, v, rounds⟩ := exists_iterate_two_pow t s (k + 1)
    exact (rounds x).trans (by rw [zero, zero_mul, add_zero])

/-- A period as long as there are residues leads to each of them once. -/
theorem existsUnique_iterate {bound : Nat} [NeZero bound] {f : ZMod bound → ZMod bound}
    {x : ZMod bound} (period : minimalPeriod f x = bound) (y : ZMod bound) :
    ∃! n, n < bound ∧ f^[n] x = y := by
  have injective : Injective fun n : Fin bound ↦ f^[n] x := by
    intro n m same
    refine Fin.ext (iterate_injOn_Iio_minimalPeriod ?_ ?_ same)
    · rw [period]
      exact n.isLt
    · rw [period]
      exact m.isLt
  have bijective : Bijective fun n : Fin bound ↦ f^[n] x :=
    (Fintype.bijective_iff_injective_and_card _).mpr ⟨injective, by simp [ZMod.card]⟩
  obtain ⟨n, reached, unique⟩ := bijective.existsUnique y
  refine ⟨n, ⟨n.isLt, reached⟩, ?_⟩
  rintro m ⟨below, same⟩
  exact congrArg Fin.val (unique ⟨m, below⟩ same)

theorem cycles_of_minimalPeriod {sequence : Nat → Int} {bound : Nat} [NeZero bound]
    {f : ZMod bound → ZMod bound}
    (range : ∀ place, 0 ≤ sequence place ∧ sequence place < bound)
    (next : ∀ place, (sequence (place + 1) : ZMod bound) = f (sequence place))
    (period : ∀ x, minimalPeriod f x = bound) : Cycles sequence bound := by
  have later (first n : Nat) :
      (sequence (first + n) : ZMod bound) = f^[n] (sequence first) := by
    induction n with
    | zero => rfl
    | succ n ih => rw [← Nat.add_assoc, next, ih, iterate_succ_apply']
  -- Numbers below the bound are told apart by their residues.
  have eq_of_cast {a b : Int} (ha : 0 ≤ a ∧ a < bound) (hb : 0 ≤ b ∧ b < bound)
      (same : (a : ZMod bound) = b) : a = b := by
    have residues := (ZMod.intCast_eq_intCast_iff' a b bound).mp same
    rwa [Int.emod_eq_of_lt ha.1 ha.2, Int.emod_eq_of_lt hb.1 hb.2] at residues
  refine ⟨range, fun first value ↦ ?_, fun place ↦ ?_⟩
  · have bounds : 0 ≤ (value : Int) ∧ (value : Int) < bound := by
      have := value.isLt
      omega
    obtain ⟨n, ⟨below, reached⟩, unique⟩ :=
      existsUnique_iterate (period (sequence first)) (value : Int)
    refine ⟨first + n, ⟨by omega, by omega, ?_⟩, ?_⟩
    · exact eq_of_cast (range _) bounds ((later first n).trans reached)
    · rintro place ⟨behind, within, here⟩
      obtain ⟨m, rfl⟩ := Nat.exists_eq_add_of_le behind
      rw [unique m ⟨by omega, by rw [← later, here]⟩]
  · have back := iterate_minimalPeriod (f := f) (x := sequence place)
    rw [period] at back
    exact eq_of_cast (range _) (range _) ((later place bound).trans back)

/-! ## Services and the seed -/

variable {κ φ τ : Type}

namespace Service

theorem id_injective {first second : Service} (same : first.id = second.id) : first = second := by
  have found := first.ofNumber?_id
  rw [same, ofNumber?_id] at found
  exact (Option.some.inj found).symm

theorem nextSeed_bounds (seed : Int) : 0 ≤ nextSeed seed ∧ nextSeed seed < (2 ^ 32 : Nat) := by
  unfold nextSeed
  omega

/-- A limit of zero counts as one. -/
theorem randomBelow_bounds (seed limit : Int) :
    0 ≤ randomBelow seed limit ∧ randomBelow seed limit < max 1 (limit % 2 ^ 32) := by
  have positive : 0 ≤ limit % 2 ^ 32 := Int.emod_nonneg _ (by decide)
  unfold randomBelow
  dsimp only
  split
  · rename_i zero
    rw [zero]
    omega
  · rename_i nonzero
    have below := Int.emod_lt_of_pos (seed / 2 ^ 16) (show 0 < limit % 2 ^ 32 by omega)
    exact ⟨Int.emod_nonneg _ nonzero, by omega⟩

variable (config : Config) (argument : Arguments) (world : World κ φ τ)
variable [Console κ] [FileStore φ] [Clock τ]

/-- Of all services only the random one changes the seed. -/
theorem seed_run (service : Service) :
    (run config service argument world).2.seed =
      if service = random then nextSeed world.seed else world.seed := by
  by_cases draws : service = random
  · rw [draws]
    rfl
  rw [if_neg draws]
  obtain accessed | ⟨drawn, -⟩ | ⟨screen, -, shown⟩ := run_cases config argument world service
  · exact accessed.seed
  · exact absurd drawn draws
  · rw [shown]

theorem seed_dispatch (number : BitVec 16) :
    (dispatch config number.toNat argument world).2.seed =
      if number = random.id then nextSeed world.seed else world.seed := by
  unfold dispatch
  split
  · rename_i unknown
    have other : number ≠ random.id := by
      rintro rfl
      cases (ofNumber?_id random).symm.trans unknown
    rw [if_neg other]
  · rename_i service known
    have found : (service.id.toNat : Int) = number.toNat := by
      simpa using List.find?_some known
    obtain rfl : service.id = number := BitVec.eq_of_toNat_eq (by exact_mod_cast found)
    rw [seed_run]
    by_cases drawn : service = random
    · rw [if_pos drawn, drawn, if_pos rfl]
      rfl
    · rw [if_neg drawn, if_neg fun same ↦ drawn (id_injective same)]
      rfl

/-- A draw answers with a number that is made of the next seed. -/
theorem dispatch_random :
    (dispatch config random.id.toNat argument world).1 =
      .done (some (randomBelow (nextSeed world.seed) (argument 0))) := by
  rw [dispatch_of_known random.ofNumber?_id]
  rfl

/-! ## Draws one after the other -/

/-- The world after a number of draws, each with arguments of its own. -/
def draws (arguments : Nat → Arguments) : Nat → World κ φ τ
  | 0 => world
  | count + 1 => (dispatch config random.id.toNat (arguments count) (draws arguments count)).2

variable (arguments : Nat → Arguments)

theorem seed_draws_succ (count : Nat) :
    (draws config world arguments (count + 1)).seed =
      nextSeed (draws config world arguments count).seed :=
  (seed_dispatch config _ _ random.id).trans (if_pos rfl)

/-- The seeds from the first draw on are all words in turn. -/
theorem cycles_draws :
    Cycles (fun place ↦ (draws config world arguments (place + 1)).seed) (2 ^ 32) := by
  have residue (value : Int) : ((value % 2 ^ 32 : Int) : ZMod (2 ^ 32)) = value :=
    ZMod.intCast_mod value (2 ^ 32)
  refine @cycles_of_minimalPeriod _ _ _
    (fun x ↦ (1 + 4 * 275878811) * x + (1 + 2 * 6172)) (fun place ↦ ?_) (fun place ↦ ?_)
    fun x ↦ minimalPeriod_congruence 275878811 6172 x
  · rw [seed_draws_succ]
    exact nextSeed_bounds _
  · rw [seed_draws_succ config world arguments (place + 1), nextSeed, residue]
    push_cast
    ring

end Service

/-! ## Instructions and the seed -/

/-- The instruction calls the random service. -/
def Instruction.isDraw : Instruction → Bool
  | exception .svc number => number = Service.random.id
  | _ => false

namespace Machine

variable [Console κ] [FileStore φ] [Clock τ]

theorem seed_serviceCall (machine : Machine κ φ τ) (number : BitVec 16) :
    (machine.serviceCall number).world.seed =
      if number = Service.random.id then Service.nextSeed machine.world.seed
      else machine.world.seed := by
  obtain ⟨argument, result, world, dispatched, done⟩ := machine.serviceCall_cases number
  have seed := Service.seed_dispatch machine.config argument machine.world number
  rw [dispatched] at seed
  rw [← seed, done]
  obtain (none | value) | _ | cause := result <;> rfl

/-- Of all instructions only a draw changes the seed. -/
theorem seed_execute (machine : Machine κ φ τ) (instruction : Instruction) :
    (machine.execute instruction).world.seed =
      if instruction.isDraw then Service.nextSeed machine.world.seed
      else machine.world.seed := by
  by_cases call : ∃ number, instruction = .exception .svc number
  · obtain ⟨number, rfl⟩ := call
    simp only [Instruction.isDraw, decide_eq_true_eq]
    exact machine.seed_serviceCall number
  have quiet := not_exists.mp call
  have other : instruction.isDraw = false := by
    cases instruction with
    | exception op number =>
      cases op with
      | svc => exact absurd rfl (quiet number)
      | hvc | smc => rfl
    | _ => rfl
  rw [other]
  obtain ⟨after, confined, done | halted⟩ := machine.confined_execute quiet
  · exact done ▸ confined.seed
  · exact halted ▸ confined.seed

/-! ## Runs -/

variable {η : Type} (hook : Hook η)

/-- A step changes the seed if it executes a draw. -/
theorem seed_stepWatched (state : η) (machine : Machine κ φ τ) :
    (machine.stepWatched hook state).2.1.world.seed =
      if (machine.executes hook state).any Instruction.isDraw then
        Service.nextSeed machine.world.seed
      else machine.world.seed := by
  unfold executes stepWatched
  cases fetched : machine.fetch with
  | error stopped => obtain rfl | ⟨cause, rfl⟩ | rfl := eq_of_fetch_error fetched <;> rfl
  | ok word =>
    dsimp only
    by_cases goes : (hook machine.registers.pc word state).1 = true
    · simp only [if_pos goes]
      unfold perform
      cases decode word with
      | error error => rfl
      | ok instruction =>
        obtain ⟨executed, -, counted⟩ := (machine.execute instruction).count_eq
        dsimp only
        rw [counted]
        exact machine.seed_execute instruction
    · simp only [if_neg goes]
      rfl

/-- A step that draws leaves a number below the limit in the first register. -/
theorem read_step_draw {machine : Machine κ φ τ} {state : η}
    (draws : (machine.executes hook state).any Instruction.isDraw = true) :
    ((machine.stepWatched hook state).2.1.registers.read 0).toNat <
      max 1 ((machine.registers.read 0).toNat % 2 ^ 32) := by
  obtain ⟨none, -⟩ | ⟨instruction, some, -, -, next⟩ := stepWatched_cases hook state machine
  · rw [none] at draws
    cases draws
  rw [some, Option.any_some] at draws
  obtain ⟨executed, -, counted⟩ := (machine.execute instruction).count_eq
  rw [next, counted]
  show ((machine.execute instruction).registers.read 0).toNat < _
  unfold Instruction.isDraw at draws
  split at draws
  · rename_i number
    obtain rfl : number = Service.random.id := of_decide_eq_true draws
    obtain ⟨answer, -⟩ := @call_answered κ φ τ _ _ _ .random machine _ _ rfl
    rw [call] at answer
    rw [answer, BitVec.toNat_ofInt]
    have bounds := Service.randomBelow_bounds
      (Service.nextSeed (machine.world.noteCall .random).seed) (machine.arguments 0)
    have argument : machine.arguments 0 = ((machine.registers.read 0).toNat : Int) := rfl
    omega
  · cases draws

/-- The step with a number, counted from zero, executes a draw. -/
def drawsAt (start : Machine κ φ τ × η) (step : Nat) : Bool :=
  let now := afterSteps hook start step
  (now.1.executes hook now.2).any Instruction.isDraw

/-- The draws in a number of steps. -/
def drawn (start : Machine κ φ τ × η) (steps : Nat) : Nat :=
  Nat.count (drawsAt hook start · = true) steps

/-- The seed in a run is the one after as many draws as there have been. -/
theorem seed_afterSteps (start : Machine κ φ τ) (state : η) (config : Config)
    (arguments : Nat → Service.Arguments) (steps : Nat) :
    (afterSteps hook (start, state) steps).1.world.seed =
      (Service.draws config start.world arguments (drawn hook (start, state) steps)).seed := by
  induction steps with
  | zero => rfl
  | succ steps ih =>
    rw [afterSteps_succ, seed_stepWatched, drawn, Nat.count_succ, ← drawn, ih]
    show (if drawsAt hook (start, state) steps = true then _ else _) = _
    split
    · rw [Service.seed_draws_succ]
    · rfl

/--
Whatever seed a machine is configured with, from the first draw on the seeds are all words in turn,
each of them once in every `2 ^ 32` draws, whatever arguments the draws have. Every draw answers
with a number below its limit, or with zero if the limit is zero. In a run nothing but the draws
changes the seed.
-/
theorem random_full_period (config : Config) (memory : Memory) (host : Host κ φ τ)
    (log : Array LogRecord) :
    let start := ofMemory config memory host log
    (∀ arguments : Nat → Service.Arguments,
      let world := Service.draws config start.world arguments
      Cycles (fun place ↦ (world (place + 1)).seed) (2 ^ 32) ∧
      (∀ count, ∃ number,
        (Service.dispatch config Service.random.id.toNat (arguments count) (world count)).1 =
            .done (some number) ∧
          0 ≤ number ∧ number < max 1 (arguments count 0 % 2 ^ 32)) ∧
      ∀ {η : Type} (hook : Hook η) (state : η) (steps : Nat),
        (afterSteps hook (start, state) steps).1.world.seed =
          (world (drawn hook (start, state) steps)).seed) ∧
    ∀ {η : Type} (hook : Hook η) (state : η) (step : Nat),
      drawsAt hook (start, state) step = true →
        ((afterSteps hook (start, state) (step + 1)).1.registers.read 0).toNat <
          max 1 (((afterSteps hook (start, state) step).1.registers.read 0).toNat % 2 ^ 32) := by
  intro start
  refine ⟨fun arguments ↦ ⟨?_, fun count ↦ ?_, fun hook state steps ↦ ?_⟩,
    fun hook state step draws ↦ ?_⟩
  · exact Service.cycles_draws config start.world arguments
  · exact ⟨_, Service.dispatch_random .., Service.randomBelow_bounds ..⟩
  · exact seed_afterSteps hook start state config arguments steps
  · rw [afterSteps_succ]
    exact read_step_draw hook draws

/-- A draw with a limit of zero, from a negative seed. -/
theorem random_full_period_negative :
    let draw : Word := (Instruction.exception .svc Service.random.id).encode
    let host : Host BufferConsole MemoryStore ManualClock := ⟨.ofInput [], .empty, .startingAt 0⟩
    let start := ofMemory { seed := -1 } ⟨0, draw.toBytes.toArray, 4⟩ host #[]
    drawsAt unwatched (start, ()) 0 = true ∧
      ((afterSteps unwatched (start, ()) 1).1.registers.read 0).toNat <
        max 1 ((start.registers.read 0).toNat % 2 ^ 32) ∧
      ∃! place, place < 2 ^ 32 ∧ (Service.draws { seed := -1 } start.world (fun _ _ ↦ 0)
        (place + 1)).seed = 0 := by
  intro draw host start
  have draws : drawsAt unwatched (start, ()) 0 = true := by decide +kernel
  obtain ⟨draw, run⟩ :=
    random_full_period { seed := -1 } ⟨0, draw.toBytes.toArray, 4⟩ host #[]
  have once := (draw fun _ _ ↦ 0).1.once 0 ⟨0, by decide⟩
  simp only [Nat.zero_le, true_and, Nat.zero_add] at once
  exact ⟨draws, run unwatched () 0 draws, once⟩

end Machine

end MiniA64
