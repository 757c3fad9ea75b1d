import RecencyCache.Decimal.Digits
import RecencyCache.Duration
import RecencyCache.Text.Blank

/-!
# Configuration

The settings of a cache and its server, and how they are read from environment variables. Each
setting depends on one variable only, whose text is trimmed of blanks. A variable that is unset,
is no text, or does not denote a value in range leaves its setting at the default.
-/

namespace RecencyCache

/-- Variables by name; contents are bytes and need not be text. -/
structure Environment where
  bindings : List (String × ByteArray)

namespace Environment

/-- The characters of a variable that is set and is text. -/
def text? (environment : Environment) (name : String) : Option (List Char) :=
  (environment.bindings.lookup name).bind fun bytes =>
    (String.fromUTF8? bytes).map (·.toList)

end Environment

/-- Reads an optional plus sign and one or more decimal digits that denote at most `limit`. -/
def readNatural (limit : Nat) (text : List Char) : Option Nat :=
  let digits := match text with
    | '+' :: rest => rest
    | _ => text
  let number := Decimal.digitsValue digits
  if digits ≠ [] ∧ digits.all Char.isDigit ∧ number ≤ limit then some number
  else none

/-- Reads one of the two words for a truth value. -/
def readTruth (text : List Char) : Option Bool :=
  if text = "true".toList then some true
  else if text = "false".toList then some false
  else none

/-- The settings of a cache and its server. -/
structure Config where
  capacity : Nat := 1000
  /-- Whether a hit refreshes the access time of its entry. -/
  refreshOnHit : Bool := true
  /-- Time between two sweeps; zero turns sweeping off. -/
  intervalMillis : Nat := 1000
  /-- Default survive time of an entry. -/
  surviveMillis : Nat := 300000
  serverPort : Nat := 3000
  deriving DecidableEq

namespace Config

/-- The settings of an environment. -/
def ofEnvironment (environment : Environment) : Config :=
  let setting {α : Type} (name : String) (read : List Char → Option α) (default : α) : α :=
    (((environment.text? name).map Text.trimmed).bind read).getD default
  let defaults : Config := {}
  { capacity := setting "CACHE_CAPACITY" (readNatural largestWord) defaults.capacity
    refreshOnHit := setting "UPDATE_TIME_ON_HIT" readTruth defaults.refreshOnHit
    intervalMillis :=
      setting "SWEEP_INTERVAL_MS" (readNatural largestWord) defaults.intervalMillis
    surviveMillis := setting "SURVIVE_TIME_MS" (readNatural largestWord) defaults.surviveMillis
    serverPort := setting "SERVER_PORT" (readNatural 65535) defaults.serverPort }

/-- Time between two sweeps. -/
def interval (config : Config) : Nat := Duration.ofMillis config.intervalMillis

/-- Default survive time of an entry. -/
def surviveTime (config : Config) : Nat := Duration.ofMillis config.surviveMillis

end Config

end RecencyCache
