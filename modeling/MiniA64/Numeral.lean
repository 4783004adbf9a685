/-!
# Numerals

Numbers are read the same way in every module, also where a library is in scope that has powers
and zeros for whole classes of structures: a power of numbers is the one of the core library, and
the bounds of the small numbers (sizes of transfers, colors, general registers) are positive in
the sense in which the core library reads a literal below a bound.
-/

attribute [instance (2000), default_instance 20000] instPowNat

namespace MiniA64

instance twoNeZero : @NeZero Nat Zero.ofOfNat0 2 := ⟨Nat.succ_ne_zero 1⟩

instance threeNeZero : @NeZero Nat Zero.ofOfNat0 3 := ⟨Nat.succ_ne_zero 2⟩

instance fourNeZero : @NeZero Nat Zero.ofOfNat0 4 := ⟨Nat.succ_ne_zero 3⟩

instance eightNeZero : @NeZero Nat Zero.ofOfNat0 8 := ⟨Nat.succ_ne_zero 7⟩

instance thirtyOneNeZero : @NeZero Nat Zero.ofOfNat0 31 := ⟨Nat.succ_ne_zero 30⟩

end MiniA64
