import RecencyCache.Json.Quoted

/-!
# Percent-encoding

Decoding a segment of a path: a percent sign and two hexadecimal digits stand for a byte, every
other byte for itself, a percent sign without two such digits included.
-/

namespace RecencyCache.Http

/-- The value of a byte that is a hexadecimal digit. -/
def hexByte? (byte : UInt8) : Option Nat := Json.hexDigit? (Char.ofNat byte.toNat)

/-- The bytes that an encoded segment stands for. -/
def percentDecoded : List UInt8 → List UInt8
  | 0x25 :: high :: low :: rest =>
      match hexByte? high, hexByte? low with
      | some highValue, some lowValue =>
          UInt8.ofNat (16 * highValue + lowValue) :: percentDecoded rest
      | _, _ => 0x25 :: percentDecoded (high :: low :: rest)
  | byte :: rest => byte :: percentDecoded rest
  | [] => []

/-- The text that an encoded segment stands for, if it stands for text. -/
def decodeSegment? (segment : String) : Option String :=
  String.fromUTF8? ⟨(percentDecoded segment.toUTF8.toList).toArray⟩

end RecencyCache.Http
