/-!
# Binary floating point, taken apart

A finite double is a natural number times a power of two, with a sign. The decomposition is read
off the bits and is exact.
-/

namespace RecencyCache.Decimal

/-- A double by its meaning. -/
inductive Binary where
  /-- The value `significand * 2 ^ exponent`, negated if `negative` holds. -/
  | finite (negative : Bool) (significand : Nat) (exponent : Int)
  | infinite (negative : Bool)
  | notANumber
  deriving DecidableEq

namespace Binary

/-- The significand bit that a double of full precision does not store. -/
def hiddenBit : Nat := 0x10000000000000

/-- Reads the sign, the eleven bits of exponent and the 52 bits of fraction. -/
def ofBits (bits : UInt64) : Binary :=
  let word : Nat := bits.toNat
  let negative := word.testBit 63
  let biased : Nat := word / hiddenBit % 0x800
  let fraction : Nat := word % hiddenBit
  if biased = 0x7FF then
    if fraction = 0 then .infinite negative else .notANumber
  else if biased = 0 then .finite negative fraction (-1074)
  else .finite negative (hiddenBit + fraction) ((biased : Int) - 1075)

/-- The meaning of a double. -/
def ofFloat (number : Float) : Binary := ofBits number.toBits

/-- The least magnitude that rounds to infinity: half a step above the largest finite double. Being
a tie, it goes to the even side, which is away from that double. -/
def overflowBound : Nat := Nat.pow 2 1024 - Nat.pow 2 970

end Binary

end RecencyCache.Decimal
