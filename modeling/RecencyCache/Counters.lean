/-!
# Counters

What a cache counts: lookups, lookups that found something, and entries that left because room was
needed or because their time was over. The rates derived from them are doubles.
-/

namespace RecencyCache

/-- The quotient of two counts as a double, or one if there is nothing to divide by. -/
def rate (part whole : Nat) : Float :=
  if whole = 0 then 1.0 else Float.ofNat part / Float.ofNat whole

/-- The running counts of a cache. They stand for 64-bit words, and are exact as long as fewer than
`2 ^ 64` lookups, evictions and expirations each have been counted. -/
structure Counters where
  /-- Lookups. -/
  requests : Nat := 0
  /-- Lookups that found a live entry. -/
  hits : Nat := 0
  /-- Entries that left to make room. -/
  evictions : Nat := 0
  /-- Entries that left because their time was over. -/
  expirations : Nat := 0
  deriving DecidableEq

namespace Counters

/-- Counts one lookup. -/
def request (counters : Counters) : Counters :=
  { counters with requests := counters.requests + 1 }

/-- Counts one lookup that found something. -/
def hit (counters : Counters) : Counters :=
  { counters with hits := counters.hits + 1 }

/-- Counts entries that made room. -/
def evicted (counters : Counters) (count : Nat) : Counters :=
  { counters with evictions := counters.evictions + count }

/-- Counts entries whose time was over. -/
def expired (counters : Counters) (count : Nat) : Counters :=
  { counters with expirations := counters.expirations + count }

/-- Lookups that found nothing. -/
def misses (counters : Counters) : Nat := counters.requests - counters.hits

/-- The share of lookups that found something, one before the first lookup. -/
def hitRate (counters : Counters) : Float := rate counters.hits counters.requests

end Counters

end RecencyCache
