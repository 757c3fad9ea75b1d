import RecencyCache.Entry
import RecencyCache.Json.Document
import RecencyCache.Report

/-!
# Response bodies

The documents that responses carry, with their members in a fixed order.
-/

namespace RecencyCache.Http

open Json (Document)

/-- A member that is left out if there is no value. -/
def optionalMember (name : String) (number : Option Nat) : List (String × Document) :=
  (number.map fun number => (name, Document.natural number)).toList

/-- The answer to storing a value. -/
def storedDocument (key : Key) (lifetimeMillis surviveMillis : Option Nat) (size : Nat) :
    Document :=
  .object <|
    [("key", .text key)]
      ++ optionalMember "ttl_ms" lifetimeMillis
      ++ optionalMember "survive_ms" surviveMillis
      ++ [("size", .natural size)]

/-- The answer to getting a value. What is left of its time to live is counted in milliseconds. -/
def foundDocument (key : Key) (text : String) (snapshot : Snapshot) : Document :=
  .object <|
    [("key", .text key), ("value", .text text), ("hit_count", .natural snapshot.hitCount)]
      ++ optionalMember "ttl_remaining_ms" (snapshot.remaining.map Duration.wholeMillis)
      ++ [("inserted_at", .text snapshot.insertedAt.render)]

/-- The answer to taking a value out. -/
def removedDocument (key : Key) (size : Nat) : Document :=
  .object [("key", .text key), ("removed", .truth true), ("size", .natural size)]

/-- The statistics of a cache. -/
def statisticsDocument (statistics : Statistics) : Document :=
  .object
    [("requests", .natural statistics.requests), ("hits", .natural statistics.hits),
      ("misses", .natural statistics.misses), ("evictions", .natural statistics.evictions),
      ("expirations", .natural statistics.expirations), ("size", .natural statistics.size),
      ("capacity", .natural statistics.capacity), ("hit_rate", .double statistics.hitRate),
      ("fill_rate", .double statistics.fillRate)]

/-- The diagnosis of a cache. -/
def diagnosisDocument (diagnosis : Diagnosis) : Document :=
  .object
    [("capacity", .natural diagnosis.capacity), ("size", .natural diagnosis.size),
      ("fill_rate", .double diagnosis.fillRate), ("hit_rate", .double diagnosis.hitRate),
      ("sweep_running", .truth diagnosis.sweepRunning),
      ("interval_ms", .natural diagnosis.intervalMillis),
      ("survive_time_ms", .natural diagnosis.surviveMillis)]

/-- The sign of life of a cache. -/
def healthDocument (sweepRunning : Bool) (now : Timestamp) : Document :=
  .object
    [("status", .text "healthy"), ("sweep_running", .truth sweepRunning),
      ("timestamp", .text now.render)]

/-- The answer that turns a request down. -/
def refusalDocument (message : String) : Document := .object [("error", .text message)]

end RecencyCache.Http
