import RecencyCache.Decimal.Digits
import RecencyCache.Word

/-!
# Durations

Every time in the library is a natural number of nanoseconds: a length of time, or a reading
of the monotonic clock, which starts at zero. Configuration and reports count in milliseconds;
the text of a duration is exact.
-/

namespace RecencyCache

namespace Duration

/-- The duration of `millis` milliseconds. -/
def ofMillis (millis : Nat) : Nat :=
  -- The literal comes first, because evaluation by definition recurs on the second factor.
  1000000 * millis

/-- The whole milliseconds of a duration, saturating at the largest word. -/
def wholeMillis (duration : Nat) : Nat :=
  min (duration / 1000000) largestWord

/-- A duration in units of `10 ^ places` nanoseconds. The fraction has no more digits than needed,
and no point without digits. -/
def inUnits (places : Nat) (unit : String) (duration : Nat) : String :=
  let one := Nat.pow 10 places
  let reversed := (Decimal.padded places (duration % one)).toList.reverse
  let fraction := (reversed.dropWhile (· == '0')).reverse
  let point := if fraction.isEmpty then "" else "."
  Decimal.padded 1 (duration / one) ++ point ++ String.ofList fraction ++ unit

/-- A duration in the largest unit, up to the second, of which it has at least one. -/
def render (duration : Nat) : String :=
  if 1000000000 ≤ duration then inUnits 9 "s" duration
  else if 1000000 ≤ duration then inUnits 6 "ms" duration
  else if 1000 ≤ duration then inUnits 3 "µs" duration
  else inUnits 0 "ns" duration

theorem wholeMillis_le_largestWord (duration : Nat) :
    wholeMillis duration ≤ largestWord :=
  Nat.min_le_right _ _

theorem wholeMillis_ofMillis {millis : Nat} (fits : millis ≤ largestWord) :
    wholeMillis (ofMillis millis) = millis := by
  simp [wholeMillis, ofMillis, Nat.min_eq_left fits]

end Duration

end RecencyCache
