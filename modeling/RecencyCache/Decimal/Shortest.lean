import RecencyCache.Decimal.Binary

/-!
# Shortest decimals

The decimal with the fewest digits that lies so near to a double that reading it gives the double
back; of several with as few digits, the nearest one.

A decimal reads back as the double when it lies between the midpoints to the two neighbouring
doubles, the midpoints included when the significand is even. All comparisons are made between
natural numbers: the double, the midpoints and the candidates are counted in one unit.
-/

namespace RecencyCache.Decimal

/-- The positive decimal `digits * 10 ^ exponent`. -/
structure Scientific where
  digits : Nat
  exponent : Int
  deriving DecidableEq

/-- The numbers that read back as one double, counted in one unit. The midpoints `low` and `high`
belong to them when `closed` holds. -/
structure Basin where
  low : Nat
  value : Nat
  high : Nat
  closed : Bool

namespace Basin

/-- The basin of the double with this significand whose last binary place is `4 * quarter` units.
The lower neighbour of a power of two is half as far away as the upper one, unless the double is
among the smallest. -/
def ofSignificand (significand quarter : Nat) (smallest : Bool) : Basin where
  low :=
    if significand = Binary.hiddenBit ∧ !smallest then (4 * significand - 1) * quarter
    else (4 * significand - 2) * quarter
  value := 4 * significand * quarter
  high := (4 * significand + 2) * quarter
  closed := significand % 2 == 0

/-- The number of units belongs to the basin. -/
def holds (basin : Basin) (units : Nat) : Bool :=
  if basin.closed then decide (basin.low ≤ units ∧ units ≤ basin.high)
  else decide (basin.low < units ∧ units < basin.high)

/-- The multiple of `step` in the basin that is nearest to its value, by its factor; a tie goes to
the even factor. Only the two multiples around the value can be nearest. -/
def nearestMultiple? (basin : Basin) (step : Nat) : Option Nat :=
  let below := basin.value / step
  let above := below + 1
  let toBelow := basin.value - below * step
  let toAbove := above * step - basin.value
  match basin.holds (below * step), basin.holds (above * step) with
  | false, false => none
  | true, false => some below
  | false, true => some above
  | true, true =>
      if toBelow < toAbove || (toBelow == toAbove && below % 2 == 0) then some below
      else some above

/-- The nearest multiple on the coarsest of the grids with the steps `unit * 10 ^ place`, from the
given place down to zero. A coarser grid means fewer digits. -/
def coarsest? (basin : Basin) (unit : Nat) : Nat → Option Scientific
  | 0 => (basin.nearestMultiple? unit).map fun digits => { digits, exponent := 0 }
  | place + 1 =>
      match basin.nearestMultiple? (unit * Nat.pow 10 (place + 1)) with
      | some digits => some { digits, exponent := (place + 1 : Nat) }
      | none => basin.coarsest? unit place

end Basin

/-- The shortest decimal of the positive double `significand * 2 ^ exponent`.

With a negative exponent `-depth` the double is a multiple of `10 ^ (-depth)`, namely
`significand * 5 ^ depth` times, so a grid no finer than that is found. -/
def shortest (significand : Nat) (exponent : Int) : Scientific :=
  let smallest := exponent == -1074
  match exponent with
  | .ofNat shift =>
      let basin := Basin.ofSignificand significand (Nat.pow 2 shift) smallest
      (basin.coarsest? 4 (20 + shift)).getD
        { digits := significand * Nat.pow 2 shift, exponent := 0 }
  | .negSucc shift =>
      let depth := shift + 1
      let basin := Basin.ofSignificand significand (Nat.pow 5 depth) smallest
      let scaled := (basin.coarsest? 4 (20 + depth)).getD
        { digits := significand * Nat.pow 5 depth, exponent := 0 }
      { scaled with exponent := scaled.exponent - depth }

end RecencyCache.Decimal
