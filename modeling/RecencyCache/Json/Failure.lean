import RecencyCache.Decimal.Digits

/-!
# Failures of reading JSON

Why a text could not be read, and how far reading had come. The causes fall into three categories:
the text is no JSON, it is JSON of the wrong shape, or it ends too early.
-/

namespace RecencyCache.Json

/-- The categories of failure. -/
inductive Category where
  | wellFormedness
  | shape
  | endOfText
  deriving DecidableEq

/-- Why a text could not be read. -/
inductive Cause where
  | endOfValue
  | endOfString
  | endOfArray
  | endOfObject
  | expectedValue
  | expectedWord
  | expectedColon
  | expectedCommaInArray
  | expectedCommaInObject
  | expectedName
  | trailingComma
  | trailingCharacters
  | invalidNumber
  | numberOutOfRange
  | invalidEscape
  | unpairedSurrogate
  | endOfSurrogatePair
  | controlCharacter
  | wrongType
  | missingField (name : String)
  | repeatedField (name : String)
  | tooFewElements
  deriving DecidableEq

namespace Cause

/-- The category of a cause. -/
def category : Cause → Category
  | .endOfValue | .endOfString | .endOfArray | .endOfObject => .endOfText
  | .wrongType | .missingField _ | .repeatedField _ | .tooFewElements => .shape
  | .expectedValue | .expectedWord | .expectedColon | .expectedCommaInArray
  | .expectedCommaInObject | .expectedName | .trailingComma | .trailingCharacters
  | .invalidNumber | .numberOutOfRange | .invalidEscape | .unpairedSurrogate
  | .endOfSurrogatePair | .controlCharacter => .wellFormedness

/-- The wording of a cause. -/
def message : Cause → String
  | .endOfValue => "EOF while parsing a value"
  | .endOfString => "EOF while parsing a string"
  | .endOfArray => "EOF while parsing a list"
  | .endOfObject => "EOF while parsing an object"
  | .expectedValue => "expected value"
  | .expectedWord => "expected ident"
  | .expectedColon => "expected \x60:\x60"
  | .expectedCommaInArray => "expected \x60,\x60 or \x60]\x60"
  | .expectedCommaInObject => "expected \x60,\x60 or \x60\x7d\x60"
  | .expectedName => "key must be a string"
  | .trailingComma => "trailing comma"
  | .trailingCharacters => "trailing characters"
  | .invalidNumber => "invalid number"
  | .numberOutOfRange => "number out of range"
  | .invalidEscape => "invalid escape"
  | .unpairedSurrogate => "lone leading surrogate in hex escape"
  | .endOfSurrogatePair => "unexpected end of hex escape"
  | .controlCharacter =>
      "control character (\\u0000-\\u001F) found while parsing a string"
  | .wrongType => "invalid type"
  | .missingField name => "missing field \x60" ++ name ++ "\x60"
  | .repeatedField name => "duplicate field \x60" ++ name ++ "\x60"
  | .tooFewElements => "invalid length"

end Cause

/-- A cause, and the characters that had not been read when it was found. -/
structure Failure where
  cause : Cause
  rest : List Char
  deriving DecidableEq

/-- What was read and the characters after it, or why nothing could be read. -/
abbrev Reading (α : Type) := Except Failure (α × List Char)

/-- Breaks reading off. -/
def fail {α : Type} (cause : Cause) (rest : List Char) : Except Failure α :=
  .error { cause, rest }

/-- Two steps of reading succeed together when each of them does. -/
theorem exists_of_bind_eq_ok {α β : Type} {first : Except Failure α}
    {next : α → Except Failure β} {result : β} (read : first >>= next = .ok result) :
    ∃ value, first = .ok value ∧ next value = .ok result := by
  cases first with
  | error failure => cases read
  | ok value => exact ⟨value, rfl, read⟩

/-- What is made of a result has been read if the result has. -/
theorem exists_of_map_eq_ok {ε α β : Type} {first : Except ε α} {change : α → β}
    {result : β} (read : first.map change = .ok result) :
    ∃ value, first = .ok value ∧ change value = result := by
  cases first with
  | error failure => cases read
  | ok value =>
    cases read
    exact ⟨value, rfl, rfl⟩

/-- A failure reads nothing. -/
theorem fail_ne_ok {α : Type} {cause : Cause} {rest : List Char} {result : α} :
    fail cause rest ≠ .ok result := by
  intro read
  cases read

namespace Failure

/-- The bytes of the characters as UTF-8. -/
def byteCount (text : List Char) : Nat := (String.ofList text).utf8ByteSize

/-- The cause with the line and the column, counted in bytes, up to which `text` had been read. -/
def render (failure : Failure) (text : List Char) : String :=
  let consumed := text.take (text.length - failure.rest.length)
  let line := consumed.count '\n' + 1
  let column := byteCount (consumed.reverse.takeWhile (· ≠ '\n'))
  failure.cause.message ++ " at line " ++ Decimal.padded 1 line ++ " column "
    ++ Decimal.padded 1 column

end Failure

end RecencyCache.Json
