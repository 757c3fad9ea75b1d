import RecencyCache.Json.Skip

/-!
# Records in JSON

Reading a value with a fixed set of fields. It is written as an object, with the fields in any
order among members that are skipped, or as an array of the fields in their order. The text is read
from left to right and the first cause of failure met is reported: a wrong type once its scalar has
been read or at its opening bracket, a second member of a field at its name, and a missing field at
the closing brace.
-/

namespace RecencyCache.Json

/-- What a field holds. -/
inductive FieldType where
  /-- A string. -/
  | text
  /-- An integer within bounds. -/
  | integer (low high : Int)
  /-- An integer within bounds, or null. An array may end before it. -/
  | optionalInteger (low high : Int)
  deriving DecidableEq

/-- The value of a field. -/
inductive Scalar where
  | text (text : String)
  | integer (number : Int)
  | absent
  deriving DecidableEq

/-- A field of a record. -/
structure Field where
  name : String
  type : FieldType
  deriving DecidableEq

/-- The values of fields by name, in the order in which they were read. -/
abbrev Members := List (String × Scalar)

namespace FieldType

/-- An array may end before a field of this type. -/
def isOptional : FieldType → Bool
  | .optionalInteger _ _ => true
  | .text | .integer _ _ => false

end FieldType

/-! ## Scalars -/

/-- Refuses a number, as too large for any type or as one of the wrong type. -/
def refuseNumeral {α : Type} (number : Numeral) (rest : List Char) : Except Failure α :=
  fail (if number.isOversized then .numberOutOfRange else .wrongType) rest

/-- Refuses a value of the wrong type. A scalar is read first, and its own faults come before. -/
def refuseValue {α : Type} : List Char → Except Failure α
  | [] => fail .endOfValue []
  | '[' :: rest | '{' :: rest => fail .wrongType rest
  | '"' :: rest => do
      let (_, rest) ← content rest
      fail .wrongType rest
  | 'n' :: rest => do fail .wrongType (← expectWord ['u', 'l', 'l'] rest)
  | 't' :: rest => do fail .wrongType (← expectWord ['r', 'u', 'e'] rest)
  | 'f' :: rest => do fail .wrongType (← expectWord ['a', 'l', 's', 'e'] rest)
  | c :: rest =>
      if startsNumeral c then do
        let (number, rest) ← numeral .endOfValue (c :: rest)
        refuseNumeral number rest
      else fail .expectedValue rest

/-- Reads a string. -/
def readText (text : List Char) : Except Failure (Scalar × List Char) :=
  match skipBlanks text with
  | '"' :: rest => do
      let (string, rest) ← content rest
      .ok (.text string, rest)
  | other => refuseValue other

/-- Reads an integer within bounds. -/
def readInteger (low high : Int) (text : List Char) : Except Failure (Scalar × List Char) :=
  match skipBlanks text with
  | [] => refuseValue []
  | c :: rest =>
      if startsNumeral c then do
        let (number, rest) ← numeral .endOfValue (c :: rest)
        match number.integer? with
        | none => refuseNumeral number rest
        | some integer =>
            if low ≤ integer ∧ integer ≤ high then .ok (.integer integer, rest)
            else refuseNumeral number rest
      else refuseValue (c :: rest)

/-- Reads an integer within bounds, or null. -/
def readOptionalInteger (low high : Int) (text : List Char) :
    Except Failure (Scalar × List Char) :=
  match skipBlanks text with
  | 'n' :: rest => do .ok (.absent, ← expectWord ['u', 'l', 'l'] rest)
  | other => readInteger low high other

/-- Reads the value of a field. -/
def FieldType.read : FieldType → List Char → Except Failure (Scalar × List Char)
  | .text => readText
  | .integer low high => readInteger low high
  | .optionalInteger low high => readOptionalInteger low high

/-! ## Objects -/

/-- Passes over what stands before the name of a member and its opening quote, or over the closing
brace, and tells whether it was that. -/
def startMember (first : Bool) (text : List Char) : Reading Bool :=
  match skipBlanks text with
  | [] => fail .endOfObject []
  | '}' :: rest => .ok (true, rest)
  | c :: rest =>
      if first then
        if c = '"' then .ok (false, rest) else fail .expectedName rest
      else if c = ',' then
        match skipBlanks rest with
        | [] => fail .endOfValue []
        | '"' :: rest => .ok (false, rest)
        | '}' :: rest => fail .trailingComma rest
        | _ :: rest => fail .expectedName rest
      else fail .expectedCommaInObject rest

/-- Reads the colon and the value of a member with the given name, after the earlier members. The
value of an unknown name is skipped. -/
def readMember (fields : List Field) (name : String) (members : Members) (text : List Char) :
    Except Failure (Members × List Char) :=
  match fields.find? (·.name == name) with
  | none => do
      let rest ← expectColon text
      .ok (members, ← skipValue rest)
  | some field =>
      if (members.lookup name).isSome then fail (.repeatedField name) text
      else do
        let rest ← expectColon text
        let (value, rest) ← field.type.read rest
        .ok (members ++ [(name, value)], rest)

theorem length_lt_of_startMember {first closed : Bool} {text rest : List Char}
    (read : startMember first text = .ok (closed, rest)) : rest.length < text.length := by
  unfold startMember at read
  split at read
  · exact absurd read fail_ne_ok
  · rename_i found
    cases read
    exact length_lt_of_skipBlanks found
  · rename_i found
    have shorter := length_lt_of_skipBlanks found
    split at read
    · split at read
      · cases read
        exact shorter
      · exact absurd read fail_ne_ok
    · split at read
      · split at read
        · exact absurd read fail_ne_ok
        · rename_i quoteFound
          cases read
          exact Nat.lt_trans (length_lt_of_skipBlanks quoteFound) shorter
        · exact absurd read fail_ne_ok
        · exact absurd read fail_ne_ok
      · exact absurd read fail_ne_ok

theorem refuseNumeral_ne_ok {α : Type} {number : Numeral} {rest : List Char} {result : α} :
    refuseNumeral number rest ≠ .ok result :=
  fail_ne_ok

theorem refuseValue_ne_ok {α : Type} {text : List Char} {result : α} :
    refuseValue text ≠ .ok result := by
  intro read
  unfold refuseValue at read
  split at read
  · exact fail_ne_ok read
  · exact fail_ne_ok read
  · exact fail_ne_ok read
  · obtain ⟨_, _, read⟩ := exists_of_bind_eq_ok read
    exact fail_ne_ok read
  · obtain ⟨_, _, read⟩ := exists_of_bind_eq_ok read
    exact fail_ne_ok read
  · obtain ⟨_, _, read⟩ := exists_of_bind_eq_ok read
    exact fail_ne_ok read
  · obtain ⟨_, _, read⟩ := exists_of_bind_eq_ok read
    exact fail_ne_ok read
  · split at read
    · obtain ⟨_, _, read⟩ := exists_of_bind_eq_ok read
      exact refuseNumeral_ne_ok read
    · exact fail_ne_ok read

theorem length_lt_of_readText {text rest : List Char} {value : Scalar}
    (read : readText text = .ok (value, rest)) : rest.length < text.length := by
  unfold readText at read
  split at read
  · rename_i found
    obtain ⟨⟨string, afterString⟩, stringRead, read⟩ := exists_of_bind_eq_ok read
    cases read
    exact Nat.lt_trans (length_lt_of_content stringRead) (length_lt_of_skipBlanks found)
  · exact absurd read refuseValue_ne_ok

theorem length_lt_of_readInteger {low high : Int} {text rest : List Char} {value : Scalar}
    (read : readInteger low high text = .ok (value, rest)) : rest.length < text.length := by
  unfold readInteger at read
  have blanksShorter := length_skipBlanks_le text
  split at read
  · exact absurd read refuseValue_ne_ok
  · rename_i found
    rw [found] at blanksShorter
    split at read
    · obtain ⟨⟨number, afterNumber⟩, numberRead, read⟩ := exists_of_bind_eq_ok read
      have numberShorter := length_lt_of_numeral numberRead
      dsimp only at read
      split at read
      · exact absurd read refuseNumeral_ne_ok
      · split at read
        · cases read
          exact Nat.lt_of_lt_of_le numberShorter blanksShorter
        · exact absurd read refuseNumeral_ne_ok
    · exact absurd read refuseValue_ne_ok

theorem length_lt_of_readOptionalInteger {low high : Int} {text rest : List Char}
    {value : Scalar} (read : readOptionalInteger low high text = .ok (value, rest)) :
    rest.length < text.length := by
  unfold readOptionalInteger at read
  split at read
  · rename_i found
    obtain ⟨afterWord, word, read⟩ := exists_of_bind_eq_ok read
    cases read
    exact Nat.lt_of_le_of_lt (length_le_of_expectWord word) (length_lt_of_skipBlanks found)
  · exact Nat.lt_of_lt_of_le (length_lt_of_readInteger read) (length_skipBlanks_le text)

theorem FieldType.length_lt_of_read {type : FieldType} {text rest : List Char} {value : Scalar}
    (read : type.read text = .ok (value, rest)) : rest.length < text.length := by
  cases type with
  | text => exact length_lt_of_readText read
  | integer => exact length_lt_of_readInteger read
  | optionalInteger => exact length_lt_of_readOptionalInteger read

theorem length_lt_of_readMember {fields : List Field} {name : String} {members after : Members}
    {text rest : List Char} (read : readMember fields name members text = .ok (after, rest)) :
    rest.length < text.length := by
  unfold readMember at read
  split at read
  · obtain ⟨afterColon, colon, read⟩ := exists_of_bind_eq_ok read
    obtain ⟨afterValue, skipped, read⟩ := exists_of_bind_eq_ok read
    cases read
    exact Nat.lt_of_le_of_lt (length_le_of_skipWithin skipped) (length_lt_of_expectColon colon)
  · split at read
    · exact absurd read fail_ne_ok
    · obtain ⟨afterColon, colon, read⟩ := exists_of_bind_eq_ok read
      obtain ⟨⟨value, afterValue⟩, valueRead, read⟩ := exists_of_bind_eq_ok read
      cases read
      exact Nat.lt_trans (FieldType.length_lt_of_read valueRead) (length_lt_of_expectColon colon)

/-- Reads the members up to the closing brace, after the earlier ones. -/
def readMembers (fields : List Field) (members : Members) (first : Bool) (text : List Char) :
    Except Failure (Members × List Char) :=
  match _start : startMember first text with
  | .error failure => .error failure
  | .ok (true, rest) => .ok (members, rest)
  | .ok (false, rest) =>
      match _name : content rest with
      | .error failure => .error failure
      | .ok (name, rest) =>
          match _member : readMember fields name members rest with
          | .error failure => .error failure
          | .ok (members, rest) => readMembers fields members false rest
termination_by text.length
decreasing_by
  exact Nat.lt_trans (length_lt_of_readMember _member)
    (Nat.lt_trans (length_lt_of_content _name) (length_lt_of_startMember _start))

/-! ## Arrays -/

/-- Passes over what stands before an element. At the closing bracket it passes over nothing and
tells that the array ends. -/
def startElement (first : Bool) (text : List Char) : Reading Bool :=
  match skipBlanks text with
  | [] => fail .endOfArray []
  | ']' :: rest => .ok (true, ']' :: rest)
  | c :: rest =>
      if first then .ok (false, c :: rest)
      else if c = ',' then
        match skipBlanks rest with
        | [] => fail .endOfValue []
        | ']' :: rest => fail .trailingComma rest
        | other => .ok (false, other)
      else fail .expectedCommaInArray rest

/-- Reads the closing bracket. -/
def endElements (text : List Char) : Except Failure (List Char) :=
  match skipBlanks text with
  | [] => fail .endOfArray []
  | ']' :: rest => .ok rest
  | ',' :: rest =>
      match skipBlanks rest with
      | ']' :: rest => fail .trailingComma rest
      | _ => fail .trailingCharacters rest
  | _ :: rest => fail .trailingCharacters rest

/-- Reads the elements that stand for the given fields, and the closing bracket. -/
def readElements (first : Bool) : List Field → List Char → Except Failure (Members × List Char)
  | [], text => do .ok ([], ← endElements text)
  | field :: fields, text => do
      let (ended, rest) ← startElement first text
      if ended then
        if (field :: fields).all (·.type.isOptional) then .ok ([], ← endElements rest)
        else fail .tooFewElements rest
      else
        let (value, rest) ← field.type.read rest
        let (members, rest) ← readElements false fields rest
        .ok ((field.name, value) :: members, rest)

/-! ## Records -/

/-- Reads an object or an array as the given fields. -/
def readFields (fields : List Field) (text : List Char) : Except Failure (Members × List Char) :=
  match skipBlanks text with
  | '{' :: rest => readMembers fields [] true rest
  | '[' :: rest => readElements true fields rest
  | other => refuseValue other

/-- A record: its fields, and how it is made of their values. -/
structure Record (α : Type) where
  fields : List Field
  make : Members → Except Cause α

namespace Record

/-- Reads a record at the start of a text. -/
def readStart {α : Type} (record : Record α) (text : List Char) :
    Except Failure (α × List Char) := do
  let (members, rest) ← readFields record.fields text
  match record.make members with
  | .ok value => .ok (value, rest)
  | .error cause => fail cause rest

/-- Reads a record that is the whole text, blanks around it apart. -/
def read {α : Type} (record : Record α) (text : List Char) : Except Failure α := do
  let (value, rest) ← record.readStart text
  match skipBlanks rest with
  | [] => .ok value
  | _ :: rest => fail .trailingCharacters rest

end Record

end RecencyCache.Json
