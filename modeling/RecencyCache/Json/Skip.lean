import RecencyCache.Json.Numeral
import RecencyCache.Json.Quoted

/-!
# Skipping JSON values

Passing over a value of any kind and depth that must be JSON but is not wanted. The open brackets
are kept in a list, so that depth is no limit; neither is the size of a number.
-/

namespace RecencyCache.Json

/-- The blanks of JSON. -/
def isBlank (c : Char) : Bool := c == ' ' || c == '\t' || c == '\n' || c == '\r'

/-- The text from its first character that is no blank. -/
def skipBlanks (text : List Char) : List Char := text.dropWhile isBlank

/-- Passes over the given characters. -/
def expectWord : List Char → List Char → Except Failure (List Char)
  | [], text => .ok text
  | _ :: _, [] => fail .endOfValue []
  | expected :: word, c :: rest =>
      if c = expected then expectWord word rest else fail .expectedWord rest

/-- Passes over a colon. -/
def expectColon (text : List Char) : Except Failure (List Char) :=
  match skipBlanks text with
  | ':' :: rest => .ok rest
  | _ :: rest => fail .expectedColon rest
  | [] => fail .endOfObject []

/-- Passes over a value without brackets, which starts at once. -/
def skipScalar : List Char → Except Failure (List Char)
  | [] => fail .endOfValue []
  | 'n' :: rest => expectWord ['u', 'l', 'l'] rest
  | 't' :: rest => expectWord ['r', 'u', 'e'] rest
  | 'f' :: rest => expectWord ['a', 'l', 's', 'e'] rest
  | '"' :: rest => skipContent rest
  | c :: rest =>
      if startsNumeral c then (numeral .invalidNumber (c :: rest)).map (·.2)
      else fail .expectedValue rest

/-- The two kinds of brackets. -/
inductive Bracket where
  | square
  | curly
  deriving DecidableEq

namespace Bracket

/-- The character that closes the bracket. -/
def closing : Bracket → Char
  | .square => ']'
  | .curly => '}'

/-- The cause if the text ends within the bracket. -/
def endCause : Bracket → Cause
  | .square => .endOfArray
  | .curly => .endOfObject

/-- The cause if neither a comma nor the end of the bracket is found. -/
def commaCause : Bracket → Cause
  | .square => .expectedCommaInArray
  | .curly => .expectedCommaInObject

end Bracket

/-- Passes over the name of a member and its colon. -/
def skipName (text : List Char) : Except Failure (List Char) :=
  match skipBlanks text with
  | '"' :: rest => do expectColon (← skipContent rest)
  | _ :: rest => fail .expectedName rest
  | [] => fail .endOfObject []

/-- Passes over what stands before the value of an item: nothing in an array, the name and the
colon in an object. -/
def skipItemStart (bracket : Bracket) (text : List Char) : Except Failure (List Char) :=
  match bracket with
  | .square => .ok text
  | .curly => skipName text

theorem length_skipBlanks_le (text : List Char) : (skipBlanks text).length ≤ text.length :=
  (List.dropWhile_sublist isBlank).length_le

theorem length_lt_of_skipBlanks {text rest : List Char} {c : Char}
    (found : skipBlanks text = c :: rest) : rest.length < text.length := by
  have shorter := length_skipBlanks_le text
  rw [found, List.length_cons] at shorter
  exact shorter

theorem length_le_of_expectWord {word text rest : List Char}
    (read : expectWord word text = .ok rest) : rest.length ≤ text.length := by
  induction word generalizing text with
  | nil =>
    cases read
    exact Nat.le_refl _
  | cons expected word ih =>
    cases text with
    | nil => exact absurd read fail_ne_ok
    | cons c afterFirst =>
      rw [expectWord] at read
      split at read
      · exact Nat.le_succ_of_le (ih read)
      · exact absurd read fail_ne_ok

theorem length_lt_of_expectColon {text rest : List Char}
    (read : expectColon text = .ok rest) : rest.length < text.length := by
  unfold expectColon at read
  split at read
  · rename_i found
    cases read
    exact length_lt_of_skipBlanks found
  · exact absurd read fail_ne_ok
  · exact absurd read fail_ne_ok

theorem length_lt_of_skipScalar {text rest : List Char}
    (read : skipScalar text = .ok rest) : rest.length < text.length := by
  unfold skipScalar at read
  split at read
  · exact absurd read fail_ne_ok
  · exact Nat.lt_succ_of_le (length_le_of_expectWord read)
  · exact Nat.lt_succ_of_le (length_le_of_expectWord read)
  · exact Nat.lt_succ_of_le (length_le_of_expectWord read)
  · exact Nat.lt_succ_of_lt (length_lt_of_skipContent read)
  · split at read
    · obtain ⟨⟨number, afterNumber⟩, numberRead, same⟩ := exists_of_map_eq_ok read
      cases same
      exact length_lt_of_numeral numberRead
    · exact absurd read fail_ne_ok

theorem length_lt_of_skipName {text rest : List Char}
    (read : skipName text = .ok rest) : rest.length < text.length := by
  unfold skipName at read
  split at read
  · rename_i found
    obtain ⟨afterName, name, read⟩ := exists_of_bind_eq_ok read
    exact Nat.lt_trans (length_lt_of_expectColon read)
      (Nat.lt_trans (length_lt_of_skipContent name) (length_lt_of_skipBlanks found))
  · exact absurd read fail_ne_ok
  · exact absurd read fail_ne_ok

theorem length_le_of_skipItemStart {bracket : Bracket} {text rest : List Char}
    (read : skipItemStart bracket text = .ok rest) : rest.length ≤ text.length := by
  cases bracket with
  | square =>
    cases read
    exact Nat.le_refl _
  | curly => exact Nat.le_of_lt (length_lt_of_skipName read)

/-- What comes next while skipping. -/
inductive Expected where
  /-- A value. -/
  | value
  /-- The first item of the innermost bracket, or its end. -/
  | firstItem
  /-- A comma and a further item of the innermost bracket, or its end. -/
  | nextItem

/-- A value is expected without progress in the text only where an item has been expected. -/
def Expected.rank : Expected → Nat
  | .value => 0
  | .firstItem | .nextItem => 1

/-- Skips up to the end of the outermost of the open brackets, the innermost of which comes first
in the list. -/
def skipWithin (expected : Expected) (brackets : List Bracket) (text : List Char) :
    Except Failure (List Char) :=
  match expected, brackets with
  | .value, brackets =>
      match _found : skipBlanks text with
      | '[' :: rest => skipWithin .firstItem (.square :: brackets) rest
      | '{' :: rest => skipWithin .firstItem (.curly :: brackets) rest
      | scalar =>
          match _scalar : skipScalar scalar with
          | .error failure => .error failure
          | .ok rest => skipWithin .nextItem brackets rest
  | .firstItem, [] | .nextItem, [] => .ok text
  | .firstItem, bracket :: outer =>
      match _found : skipBlanks text with
      | [] => fail bracket.endCause []
      | c :: rest =>
          if c = bracket.closing then skipWithin .nextItem outer rest
          else
            match _start : skipItemStart bracket (c :: rest) with
            | .error failure => .error failure
            | .ok rest => skipWithin .value (bracket :: outer) rest
  | .nextItem, bracket :: outer =>
      match _found : skipBlanks text with
      | [] => fail bracket.endCause []
      | c :: rest =>
          if c = bracket.closing then skipWithin .nextItem outer rest
          else if c = ',' then
            match _start : skipItemStart bracket rest with
            | .error failure => .error failure
            | .ok rest => skipWithin .value (bracket :: outer) rest
          else fail bracket.commaCause rest
termination_by 2 * text.length + expected.rank
decreasing_by
  · have shorter := length_lt_of_skipBlanks _found
    simp only [Expected.rank]
    omega
  · have shorter := length_lt_of_skipBlanks _found
    simp only [Expected.rank]
    omega
  · have shorter := length_lt_of_skipScalar _scalar
    have blanksShorter := length_skipBlanks_le text
    rw [_found] at blanksShorter
    simp only [Expected.rank]
    omega
  · have shorter := length_lt_of_skipBlanks _found
    simp only [Expected.rank]
    omega
  · have shorter := length_lt_of_skipBlanks _found
    have startShorter := length_le_of_skipItemStart _start
    simp only [List.length_cons] at startShorter
    simp only [Expected.rank]
    omega
  · have shorter := length_lt_of_skipBlanks _found
    simp only [Expected.rank]
    omega
  · have shorter := length_lt_of_skipBlanks _found
    have startShorter := length_le_of_skipItemStart _start
    simp only [Expected.rank]
    omega

/-- What is skipped ends no later than the text. -/
theorem length_le_of_skipWithin {expected : Expected} {brackets : List Bracket}
    {text rest : List Char} (read : skipWithin expected brackets text = .ok rest) :
    rest.length ≤ text.length := by
  fun_induction skipWithin expected brackets text with
  | case1 text brackets afterBracket found ih =>
    have shorter := length_lt_of_skipBlanks found
    have restShorter := ih read
    omega
  | case2 text brackets afterBracket found ih =>
    have shorter := length_lt_of_skipBlanks found
    have restShorter := ih read
    omega
  | case3 => simp at read
  | case4 text brackets _ _ afterScalar skipped ih =>
    have shorter := length_lt_of_skipScalar skipped
    have blanksShorter := length_skipBlanks_le text
    have restShorter := ih read
    omega
  | case5 =>
    cases read
    exact Nat.le_refl _
  | case6 =>
    cases read
    exact Nat.le_refl _
  | case7 => exact absurd read fail_ne_ok
  | case8 text bracket outer afterBracket found ih =>
    have shorter := length_lt_of_skipBlanks found
    have restShorter := ih read
    omega
  | case9 => simp at read
  | case10 text bracket outer c afterFirst found _ afterStart start ih =>
    have shorter := length_lt_of_skipBlanks found
    have startShorter := length_le_of_skipItemStart start
    simp only [List.length_cons] at startShorter
    have restShorter := ih read
    omega
  | case11 => exact absurd read fail_ne_ok
  | case12 text bracket outer afterBracket found ih =>
    have shorter := length_lt_of_skipBlanks found
    have restShorter := ih read
    omega
  | case13 => simp at read
  | case14 text bracket outer afterComma afterStart start found _ ih =>
    have shorter := length_lt_of_skipBlanks found
    have startShorter := length_le_of_skipItemStart start
    have restShorter := ih read
    omega
  | case15 => exact absurd read fail_ne_ok

/-- Skips one value. -/
def skipValue (text : List Char) : Except Failure (List Char) := skipWithin .value [] text

end RecencyCache.Json
