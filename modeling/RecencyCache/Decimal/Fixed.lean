import RecencyCache.Decimal.Binary
import RecencyCache.Decimal.Digits

/-!
# Fixed places

Doubles with a given number of decimal places and never an exponent. The digits are those of the
exact value, rounded to the nearest, a tie to the even neighbour. The sign stays when the value is
or rounds to zero.
-/

namespace RecencyCache.Decimal

/-- The natural number nearest to `numerator / denominator`; a tie goes to the even one. -/
def roundHalfEven (numerator denominator : Nat) : Nat :=
  let whole := numerator / denominator
  let twice := 2 * (numerator % denominator)
  if denominator < twice || (twice == denominator && whole % 2 == 1) then whole + 1 else whole

/-- The nearest number of units of `10 ^ (-places)` in `significand * 2 ^ exponent`. -/
def unitsOf (places significand : Nat) (exponent : Int) : Nat :=
  match exponent with
  | .ofNat shift => significand * Nat.pow 10 places * Nat.pow 2 shift
  | .negSucc shift => roundHalfEven (significand * Nat.pow 10 places) (Nat.pow 2 (shift + 1))

/-- A number with `places` decimal places, which must be more than none. -/
def fixed (places : Nat) (number : Float) : String :=
  let signText (negative : Bool) := if negative then "-" else ""
  match Binary.ofFloat number with
  | .notANumber => "NaN"
  | .infinite negative => signText negative ++ "inf"
  | .finite negative significand exponent =>
      let units := unitsOf places significand exponent
      let one := Nat.pow 10 places
      signText negative ++ padded 1 (units / one) ++ "."
        ++ padded places (units % one)

end RecencyCache.Decimal
