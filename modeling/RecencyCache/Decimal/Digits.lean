/-!
# Decimal digits

Natural numbers written in decimal with at least a given number of digits, and the number that
digits denote.
-/

namespace RecencyCache.Decimal

/-- `number` in decimal, filled up with leading zeros to `width` digits. -/
def padded (width number : Nat) : String :=
  let digits := Nat.toDigits 10 number
  String.ofList (List.replicate (width - digits.length) '0' ++ digits)

/-- The number that decimal digits denote; any number of zeros may lead. -/
def digitsValue (digits : List Char) : Nat :=
  digits.foldl (fun number digit => 10 * number + (digit.toNat - '0'.toNat)) 0

end RecencyCache.Decimal
