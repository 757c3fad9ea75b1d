import RecencyCache.Counters
import RecencyCache.Decimal.Fixed

/-!
# Reports

The two summaries of a cache that are handed out: its statistics, and a diagnosis that also tells
how it is swept and has a one-line text.
-/

namespace RecencyCache

/-- The counters of a cache with its size and rates. -/
structure Statistics where
  requests : Nat
  hits : Nat
  misses : Nat
  evictions : Nat
  expirations : Nat
  size : Nat
  capacity : Nat
  hitRate : Float
  fillRate : Float

/-- A diagnosis of a cache. -/
structure Diagnosis where
  capacity : Nat
  size : Nat
  fillRate : Float
  hitRate : Float
  sweepRunning : Bool
  /-- Time between two sweeps in milliseconds, zero if never set. -/
  intervalMillis : Nat
  /-- Default survive time in milliseconds, zero if never set. -/
  surviveMillis : Nat

/-- The word for a truth value. -/
def truthText (truth : Bool) : String := if truth then "true" else "false"

namespace Diagnosis

/-- The diagnosis in one line; rates have three decimal places. -/
def render (diagnosis : Diagnosis) : String :=
  "capacity=" ++ Decimal.padded 1 diagnosis.capacity
    ++ " size=" ++ Decimal.padded 1 diagnosis.size
    ++ " fill_rate=" ++ Decimal.fixed 3 diagnosis.fillRate
    ++ " hit_rate=" ++ Decimal.fixed 3 diagnosis.hitRate
    ++ " sweep_running=" ++ truthText diagnosis.sweepRunning
    ++ " interval_ms=" ++ Decimal.padded 1 diagnosis.intervalMillis
    ++ " survive_time_ms=" ++ Decimal.padded 1 diagnosis.surviveMillis

end Diagnosis

end RecencyCache
