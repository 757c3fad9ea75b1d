import RecencyCache.Duration

/-!
# Faults

An operation is broken off by a fault: it disposed of a faulty value, a chain held a dangling
reference, a sweeper was to be named by text that no thread can bear, or the time of day was asked
for while it could not be told.
-/

namespace RecencyCache

/-- What breaks an operation off. -/
inductive Fault where
  /-- The operation disposed of a faulty value. All its other effects are complete. -/
  | disposal
  /-- A chain referred to a slot without an entry. -/
  | danglingSlot
  /-- The name of a thread contains the character NUL. -/
  | nameWithNul (name : String)
  /-- The clock lies this many nanoseconds before the start of 1970. -/
  | clockTooEarly (lead : Nat)
  /-- The clock lies after the last day of the calendar. -/
  | clockTooLate
  deriving DecidableEq

namespace Fault

/-- The place of the first NUL byte and all bytes in decimal. -/
def describeNul (name : String) : String :=
  let bytes := name.toUTF8.toList.map (·.toNat)
  let position := bytes.takeWhile (· ≠ 0) |>.length
  "NulError(" ++ Decimal.padded 1 position ++ ", ["
    ++ ", ".intercalate (bytes.map (Decimal.padded 1)) ++ "])"

/-- The text that goes with a fault. -/
def message : Fault → String
  | .disposal => "bomb"
  | .danglingSlot => "recency slot referenced after being freed"
  | .nameWithNul name =>
      "thread name may not contain interior null bytes: " ++ describeNul name
  | .clockTooEarly lead =>
      "system time before Unix epoch: SystemTimeError(" ++ Duration.render lead ++ ")"
  | .clockTooLate => "called \x60Option::unwrap()\x60 on a \x60None\x60 value"

end Fault

end RecencyCache
