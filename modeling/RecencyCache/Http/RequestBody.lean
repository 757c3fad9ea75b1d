import RecencyCache.Entry
import RecencyCache.Json.Record

/-!
# Request bodies

The two bodies that requests carry, as records in JSON.
-/

namespace RecencyCache.Http

/-- The number in an optional field. -/
def naturalMember (members : Json.Members) (name : String) : Option Nat :=
  match members.lookup name with
  | some (.integer number) => some number.toNat
  | _ => none

/-- The longest key that is accepted, in bytes. -/
def longestKey : Nat := 256

/-- The body of a request to store a value. -/
structure SetRequest where
  key : Key
  value : String
  /-- Lifetime in milliseconds. -/
  lifetimeMillis : Option Nat := none
  /-- Survive time in milliseconds. -/
  surviveMillis : Option Nat := none
  deriving DecidableEq

namespace SetRequest

/-- The request of the members that were read. -/
def ofMembers (members : Json.Members) : Except Json.Cause SetRequest :=
  match members.lookup "key", members.lookup "value" with
  | some (.text key), some (.text value) =>
      .ok
        { key
          value
          lifetimeMillis := naturalMember members "ttl_ms"
          surviveMillis := naturalMember members "survive_ms" }
  | some (.text _), _ => .error (.missingField "value")
  | _, _ => .error (.missingField "key")

/-- The request as a record in JSON. -/
def record : Json.Record SetRequest where
  fields :=
    [⟨"key", .text⟩, ⟨"value", .text⟩, ⟨"ttl_ms", .optionalInteger 0 largestWord⟩,
      ⟨"survive_ms", .optionalInteger 0 largestWord⟩]
  make := ofMembers

/-- What is wrong with the key, if anything. -/
def objection? (request : SetRequest) : Option String :=
  if request.key.isEmpty then some "Key cannot be empty"
  else if longestKey < request.key.utf8ByteSize then
    some ("Key exceeds maximum length of " ++ Decimal.padded 1 longestKey ++ " characters")
  else none

/-- The settings with which the value is stored. -/
def options (request : SetRequest) : EntryOptions where
  timeToLive := request.lifetimeMillis.map Duration.ofMillis
  surviveTime := request.surviveMillis.map Duration.ofMillis

end SetRequest

/-- The body of a request to change the capacity. -/
structure CapacityRequest where
  capacity : Int
  deriving DecidableEq

namespace CapacityRequest

/-- The request of the members that were read. -/
def ofMembers (members : Json.Members) : Except Json.Cause CapacityRequest :=
  match members.lookup "capacity" with
  | some (.integer capacity) => .ok { capacity }
  | _ => .error (.missingField "capacity")

/-- The request as a record in JSON. -/
def record : Json.Record CapacityRequest where
  fields := [⟨"capacity", .integer (-0x8000000000000000) 0x7FFFFFFFFFFFFFFF⟩]
  make := ofMembers

end CapacityRequest

end RecencyCache.Http
