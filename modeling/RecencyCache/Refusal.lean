import RecencyCache.Decimal.Digits
import RecencyCache.Entry

/-!
# Refusals

The reasons for which a well-formed call is turned down. A lookup that finds nothing is no refusal
for the cache itself; only its front end turns it into one.
-/

namespace RecencyCache

/-- An integer in decimal. -/
def integerText (number : Int) : String :=
  (if number < 0 then "-" else "") ++ Decimal.padded 1 number.natAbs

/-- The reason why a call is turned down. -/
inductive Refusal where
  /-- The capacity asked for is negative. -/
  | invalidCapacity (capacity : Int)
  /-- There is no live entry of this key. -/
  | notFound (key : Key)
  /-- A request breaks a rule on its content. -/
  | invalidRequest (reason : String)
  deriving DecidableEq

namespace Refusal

/-- The text that goes with a refusal. -/
def message : Refusal → String
  | .invalidCapacity capacity => "Invalid capacity: " ++ integerText capacity ++ " (must be >= 0)"
  | .notFound key => "Key not found: " ++ key
  | .invalidRequest reason => "Invalid request: " ++ reason

end Refusal

end RecencyCache
