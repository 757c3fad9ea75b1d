import RecencyCache.Decimal.Binary
import RecencyCache.Json.Failure

/-!
# JSON numbers

Reading a number token by its parts. No part may be empty, and the whole digits start with a zero
only if they are a single one. Where a number ends together with the text before it is complete,
the caller says under which cause that falls.
-/

namespace RecencyCache.Json

/-- A number token: the digits before the point, those after it, and the exponent with its sign. -/
structure Numeral where
  negative : Bool
  whole : List Char
  fraction : Option (List Char)
  exponent : Option (Bool × List Char)
  deriving DecidableEq

/-- Reads one or more digits. -/
def digitRun (atEnd : Cause) : List Char → Reading (List Char)
  | [] => fail atEnd []
  | c :: rest =>
      if c.isDigit then .ok (c :: rest.takeWhile Char.isDigit, rest.dropWhile Char.isDigit)
      else fail .invalidNumber rest

/-- Reads the digits before the point. -/
def wholeDigits (atEnd : Cause) (text : List Char) : Reading (List Char) :=
  match text with
  | '0' :: rest =>
      match rest with
      | c :: afterNext => if c.isDigit then fail .invalidNumber afterNext else .ok (['0'], rest)
      | [] => .ok (['0'], rest)
  | _ => digitRun atEnd text

/-- Reads a point and the digits after it, if there is a point. -/
def fractionDigits (atEnd : Cause) : List Char → Reading (Option (List Char))
  | '.' :: rest => (digitRun atEnd rest).map fun (digits, rest) => (some digits, rest)
  | text => .ok (none, text)

/-- Reads an exponent, if there is one. -/
def exponentDigits (atEnd : Cause) : List Char → Reading (Option (Bool × List Char))
  | c :: rest =>
      if c = 'e' ∨ c = 'E' then
        let (negative, digits) := match rest with
          | '-' :: digits => (true, digits)
          | '+' :: digits => (false, digits)
          | digits => (false, digits)
        (digitRun atEnd digits).map fun (digits, rest) => (some (negative, digits), rest)
      else .ok (none, c :: rest)
  | [] => .ok (none, [])

/-- Reads a number. The cause `atEnd` is that of a text that ends within it. -/
def numeral (atEnd : Cause) (text : List Char) : Except Failure (Numeral × List Char) := do
  let (negative, text) := match text with
    | '-' :: text => (true, text)
    | text => (false, text)
  let (whole, text) ← wholeDigits atEnd text
  let (fraction, text) ← fractionDigits atEnd text
  let (exponent, text) ← exponentDigits atEnd text
  .ok ({ negative, whole, fraction, exponent }, text)

/-- A number starts with this character. -/
def startsNumeral (c : Char) : Bool := c == '-' || c.isDigit

namespace Numeral

/-- The integer that the number denotes. One with a fraction or an exponent, and the negative zero,
are no integers. -/
def integer? (numeral : Numeral) : Option Int :=
  match numeral.fraction, numeral.exponent with
  | none, none =>
      let magnitude := Decimal.digitsValue numeral.whole
      if !numeral.negative then some magnitude
      else if magnitude = 0 then none
      else some (-magnitude)
  | _, _ => none

/-- The digits of the number without its point. -/
def significand (numeral : Numeral) : List Char := numeral.whole ++ numeral.fraction.getD []

/-- The power of ten that the significand is multiplied by: the written exponent, less a place for
each digit of the fraction. -/
def scale (numeral : Numeral) : Int :=
  let written : Int := match numeral.exponent with
    | none => 0
    | some (negative, digits) =>
        if negative then -(Decimal.digitsValue digits : Int) else (Decimal.digitsValue digits : Int)
  written - (numeral.fraction.getD []).length

/-- The number is too large for a double: its exact magnitude rounds to infinity. The bound lies
between `10 ^ 308` and `10 ^ 309`, so the number of places before the point decides unless it is
309. Powers are therefore taken only of exponents that the digits of the number bound. -/
def isOversized (numeral : Numeral) : Bool :=
  let digits := numeral.significand.dropWhile (· == '0')
  let places : Int := digits.length + numeral.scale
  !digits.isEmpty && (decide (309 < places) ||
    (places == 309 && decide (Decimal.Binary.overflowBound * Nat.pow 10 (-numeral.scale).toNat ≤
      Decimal.digitsValue digits * Nat.pow 10 numeral.scale.toNat)))

end Numeral

theorem length_lt_of_digitRun {atEnd : Cause} {text digits rest : List Char}
    (read : digitRun atEnd text = .ok (digits, rest)) : rest.length < text.length := by
  unfold digitRun at read
  split at read
  · exact absurd read fail_ne_ok
  · split at read
    · cases read
      exact Nat.lt_succ_of_le (List.dropWhile_sublist Char.isDigit).length_le
    · exact absurd read fail_ne_ok

theorem length_lt_of_wholeDigits {atEnd : Cause} {text digits rest : List Char}
    (read : wholeDigits atEnd text = .ok (digits, rest)) : rest.length < text.length := by
  unfold wholeDigits at read
  split at read
  · split at read
    · split at read
      · exact absurd read fail_ne_ok
      · cases read
        exact Nat.lt_succ_self _
    · cases read
      exact Nat.lt_succ_self _
  · exact length_lt_of_digitRun read

theorem length_le_of_fractionDigits {atEnd : Cause} {text rest : List Char}
    {digits : Option (List Char)} (read : fractionDigits atEnd text = .ok (digits, rest)) :
    rest.length ≤ text.length := by
  unfold fractionDigits at read
  split at read
  · obtain ⟨⟨found, afterRun⟩, run, same⟩ := exists_of_map_eq_ok read
    cases same
    exact Nat.le_succ_of_le (Nat.le_of_lt (length_lt_of_digitRun run))
  · cases read
    exact Nat.le_refl _

theorem length_le_of_exponentDigits {atEnd : Cause} {text rest : List Char}
    {digits : Option (Bool × List Char)} (read : exponentDigits atEnd text = .ok (digits, rest)) :
    rest.length ≤ text.length := by
  unfold exponentDigits at read
  split at read
  · rename_i c afterLetter
    split at read
    · split at read
      rename_i negative unsigned signSplit
      have signShorter : unsigned.length ≤ afterLetter.length := by
        split at signSplit <;> cases signSplit <;> simp
      obtain ⟨⟨found, afterRun⟩, run, same⟩ := exists_of_map_eq_ok read
      cases same
      exact Nat.le_succ_of_le
        (Nat.le_trans (Nat.le_of_lt (length_lt_of_digitRun run)) signShorter)
    · cases read
      exact Nat.le_refl _
  · cases read
    exact Nat.le_refl _

theorem length_lt_of_numeral {atEnd : Cause} {text rest : List Char} {number : Numeral}
    (read : numeral atEnd text = .ok (number, rest)) : rest.length < text.length := by
  unfold numeral at read
  split at read
  rename_i negative unsigned signSplit
  have signShorter : unsigned.length ≤ text.length := by
    split at signSplit <;> cases signSplit <;> simp
  obtain ⟨⟨whole, afterWhole⟩, wholeRead, read⟩ := exists_of_bind_eq_ok read
  obtain ⟨⟨fraction, afterFraction⟩, fractionRead, read⟩ := exists_of_bind_eq_ok read
  obtain ⟨⟨exponent, afterExponent⟩, exponentRead, read⟩ := exists_of_bind_eq_ok read
  cases read
  exact Nat.lt_of_le_of_lt (length_le_of_exponentDigits exponentRead)
    (Nat.lt_of_le_of_lt (length_le_of_fractionDigits fractionRead)
      (Nat.lt_of_lt_of_le (length_lt_of_wholeDigits wholeRead) signShorter))

end RecencyCache.Json
