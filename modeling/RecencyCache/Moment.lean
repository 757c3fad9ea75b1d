import RecencyCache.Fault
import RecencyCache.Timestamp

/-!
# Moments

What the clocks show at one time. The monotonic clock can always be read. The clock for the time of
day is set from outside and may stand anywhere, but can be read only from the start of 1970 to the
end of the calendar.
-/

namespace RecencyCache

/-- A moment on both clocks. -/
structure Moment where
  now : Nat
  /-- The time of day, or the fault that befalls whoever asks for it. -/
  timeOfDay : Except Fault Timestamp

namespace Moment

/-- The reading of a clock that stands `elapsed` nanoseconds after the start of 1970. -/
def readClock (elapsed : Int) : Except Fault Timestamp :=
  let time := Timestamp.ofNanos elapsed
  if elapsed < 0 then .error (.clockTooEarly elapsed.natAbs)
  else if Timestamp.lastSecond < time.seconds then .error .clockTooLate
  else .ok time

/-- The moment `now` nanoseconds after the clock for the time of day stood at `epoch`. -/
def after (epoch : Int) (now : Nat) : Moment where
  now
  timeOfDay := readClock (epoch + now)

end Moment

end RecencyCache
