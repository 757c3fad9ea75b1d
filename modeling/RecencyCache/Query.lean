import RecencyCache.Engine

/-!
# Queries

The questions that can be put to an engine without changing it, as data, and their answers. A
traversal visits every live entry and puts further questions during each visit.
-/

namespace RecencyCache

/-- A question about an engine. -/
inductive Query where
  | contains (key : Key)
  | peek (key : Key)
  | snapshot (key : Key)
  | keysByRecency
  | mostRecent
  | leastRecent
  | capacity
  | size
  | isEmpty
  | refreshOnHit
  | sweepRunning
  | fillRate
  | hitRate
  | statistics
  | diagnosis
  | diagnosisText
  | debugText
  | sleepTimes
  /-- Visits the live entries in the order of their keys, with questions put in each visit. -/
  | traverse (questions : List Query)

/-- The answer to a question. -/
inductive Finding where
  | flag (truth : Bool)
  | count (number : Nat)
  | text (text : String)
  | optionalText (text : Option String)
  | snapshot (snapshot : Option Snapshot)
  | keys (keys : List Key)
  | rate (rate : Float)
  | statistics (statistics : Statistics)
  | diagnosis (diagnosis : Diagnosis)
  | sleepTimes (times : List (String × Nat))
  /-- Key and text of each visited entry with the findings of its visit. -/
  | visits (visits : List (Key × String × List Finding))

namespace Query

mutual

/-- The answer of an engine to a question. -/
def ask : Query → Engine → Finding
  | .contains key, engine => .flag (engine.store.live? key engine.now).isSome
  | .peek key, engine =>
      .optionalText ((engine.store.live? key engine.now).map (·.value.text))
  | .snapshot key, engine =>
      .snapshot ((engine.store.live? key engine.now).map (·.snapshot engine.now))
  | .keysByRecency, engine => .keys (engine.store.keysByRecency engine.now)
  | .mostRecent, engine => .optionalText (engine.store.mostRecentKey? engine.now)
  | .leastRecent, engine => .optionalText (engine.store.leastRecentKey? engine.now)
  | .capacity, engine => .count engine.store.capacity
  | .size, engine => .count engine.store.size
  | .isEmpty, engine => .flag (engine.store.size == 0)
  | .refreshOnHit, engine => .flag engine.store.refreshOnHit
  | .sweepRunning, engine => .flag engine.control.running
  | .fillRate, engine => .rate engine.store.fillRate
  | .hitRate, engine => .rate engine.store.counters.hitRate
  | .statistics, engine => .statistics engine.store.statistics
  | .diagnosis, engine => .diagnosis engine.diagnosis
  | .diagnosisText, engine => .text engine.diagnosis.render
  | .debugText, engine => .text engine.debugText
  | .sleepTimes, engine => .sleepTimes engine.sleepTimes
  | .traverse questions, engine =>
      let findings := askAll questions engine
      .visits ((engine.store.liveEntriesByKey engine.now).map fun entry =>
        (entry.key, entry.value.text, findings))

/-- The answers to several questions. -/
def askAll : List Query → Engine → List Finding
  | [], _ => []
  | question :: questions, engine => ask question engine :: askAll questions engine

end

end Query

end RecencyCache
