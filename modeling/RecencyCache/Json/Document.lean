import RecencyCache.Decimal.Digits
import RecencyCache.Decimal.Shortest

/-!
# JSON documents

The values that are handed out as JSON and their compact text, in which members keep their order,
nothing but quotes, backslashes and control characters is escaped, and a double has the fewest
digits that read back as it.
-/

namespace RecencyCache.Json

/-- A value to be handed out as JSON. -/
inductive Document where
  | truth (holds : Bool)
  | natural (number : Nat)
  | double (number : Float)
  | text (string : String)
  | object (members : List (String × Document))

/-- The character within quotes. -/
def escaped (c : Char) : List Char :=
  match c with
  | '"' => ['\\', '"']
  | '\\' => ['\\', '\\']
  | '\x08' => ['\\', 'b']
  | '\x0c' => ['\\', 'f']
  | '\n' => ['\\', 'n']
  | '\r' => ['\\', 'r']
  | '\t' => ['\\', 't']
  | c =>
      if c.toNat < 0x20 then
        ['\\', 'u', '0', '0', Nat.digitChar (c.toNat / 16), Nat.digitChar (c.toNat % 16)]
      else [c]

/-- The text within quotes. -/
def quoted (text : String) : String :=
  String.ofList ('"' :: text.toList.flatMap escaped ++ ['"'])

/-- The positive decimal `digits * 10 ^ exponent`, without an exponent if its point stands within
the first 16 digits or follows at most five zeros, counting the one before it. -/
def scientificText (decimal : Decimal.Scientific) : String :=
  let digits := Nat.toDigits 10 decimal.digits
  let count := digits.length
  let point : Int := decimal.exponent + count
  if 0 ≤ decimal.exponent ∧ point ≤ 16 then
    String.ofList (digits ++ List.replicate decimal.exponent.toNat '0') ++ ".0"
  else if 0 < point ∧ point ≤ 16 then
    String.ofList (digits.take point.toNat) ++ "." ++ String.ofList (digits.drop point.toNat)
  else if -5 < point ∧ point ≤ 0 then
    "0." ++ String.ofList (List.replicate (-point).toNat '0' ++ digits)
  else
    let exponent := point - 1
    let exponentText :=
      (if exponent < 0 then "-" else "") ++ Decimal.padded 1 exponent.natAbs
    let fraction := if count = 1 then "" else "." ++ String.ofList (digits.drop 1)
    String.ofList (digits.take 1) ++ fraction ++ "e" ++ exponentText

/-- A double as JSON, which has no word for what is not finite but null. -/
def doubleText (number : Float) : String :=
  match Decimal.Binary.ofFloat number with
  | .notANumber | .infinite _ => "null"
  | .finite negative significand exponent =>
      let sign := if negative then "-" else ""
      if significand = 0 then sign ++ "0.0"
      else sign ++ scientificText (Decimal.shortest significand exponent)

namespace Document

mutual

/-- The compact text of a value. -/
def render : Document → String
  | .truth holds => if holds then "true" else "false"
  | .natural number => Decimal.padded 1 number
  | .double number => doubleText number
  | .text string => quoted string
  | .object members => "\x7b" ++ ",".intercalate (renderMembers members) ++ "\x7d"

/-- The compact texts of members. -/
def renderMembers : List (String × Document) → List String
  | [] => []
  | (name, value) :: members => (quoted name ++ ":" ++ render value) :: renderMembers members

end

end Document

end RecencyCache.Json
