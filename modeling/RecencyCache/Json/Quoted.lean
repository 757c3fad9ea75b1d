import RecencyCache.Json.Failure

/-!
# JSON strings

Reading the content of a string up to its closing quote. There are two ways: `content` unescapes
and wants every surrogate escape to be half of a pair; `skipContent` only looks for the end, and
lets a surrogate stand alone. Neither admits a control character.
-/

namespace RecencyCache.Json

/-- The value of a hexadecimal digit. -/
def hexDigit? (c : Char) : Option Nat :=
  if '0' ≤ c ∧ c ≤ '9' then some (c.toNat - '0'.toNat)
  else if 'a' ≤ c ∧ c ≤ 'f' then some (c.toNat - 'a'.toNat + 10)
  else if 'A' ≤ c ∧ c ≤ 'F' then some (c.toNat - 'A'.toNat + 10)
  else none

/-- Reads four hexadecimal digits. The text counts as ended only if fewer than four bytes are
left. -/
def hexQuad : List Char → Reading Nat
  | a :: b :: c :: d :: rest =>
      match hexDigit? a, hexDigit? b, hexDigit? c, hexDigit? d with
      | some a, some b, some c, some d => .ok (((a * 16 + b) * 16 + c) * 16 + d, rest)
      | _, _, _, _ => fail .invalidEscape rest
  | short => fail (if Failure.byteCount short < 4 then .endOfString else .invalidEscape) []

/-- The character that a backslash and one more character stand for. -/
def simpleEscape? : Char → Option Char
  | '"' => some '"'
  | '\\' => some '\\'
  | '/' => some '/'
  | 'b' => some '\x08'
  | 'f' => some '\x0c'
  | 'n' => some '\n'
  | 'r' => some '\r'
  | 't' => some '\t'
  | _ => none

/-- The first half of a surrogate pair. -/
def isLeadingSurrogate (unit : Nat) : Bool := 0xD800 ≤ unit && unit < 0xDC00

/-- The second half of a surrogate pair. -/
def isTrailingSurrogate (unit : Nat) : Bool := 0xDC00 ≤ unit && unit < 0xE000

/-- The character of a surrogate pair. -/
def pairedCharacter (leading trailing : Nat) : Char :=
  Char.ofNat (0x10000 + (leading - 0xD800) * 0x400 + (trailing - 0xDC00))

/-- Reads one character that must be as expected, within a surrogate pair. -/
def expectInPair (expected : Char) : List Char → Except Failure (List Char)
  | [] => fail .endOfString []
  | c :: rest => if c = expected then .ok rest else fail .endOfSurrogatePair rest

/-- Reads the digits after a backslash and the letter `u`, and those of the second half if they
are the first half of a surrogate pair. -/
def unicodeEscape (text : List Char) : Except Failure (Char × List Char) := do
  let (unit, rest) ← hexQuad text
  if isTrailingSurrogate unit then fail .unpairedSurrogate rest
  else if isLeadingSurrogate unit then
    let rest ← expectInPair '\\' rest
    let rest ← expectInPair 'u' rest
    let (trailing, rest) ← hexQuad rest
    if isTrailingSurrogate trailing then .ok (pairedCharacter unit trailing, rest)
    else fail .unpairedSurrogate rest
  else .ok (Char.ofNat unit, rest)

/-- Reads what follows a backslash. -/
def escape : List Char → Reading Char
  | [] => fail .endOfString []
  | 'u' :: rest => unicodeEscape rest
  | c :: rest =>
      match simpleEscape? c with
      | some character => .ok (character, rest)
      | none => fail .invalidEscape rest

/-- Reads one character of a string, plain or escaped, or `none` for the closing quote. -/
def character : List Char → Reading (Option Char)
  | [] => fail .endOfString []
  | '"' :: rest => .ok (none, rest)
  | '\\' :: rest => (escape rest).map fun (c, rest) => (some c, rest)
  | c :: rest => if c.toNat < 0x20 then fail .controlCharacter rest else .ok (some c, rest)

/-- Passes over what follows a backslash. -/
def skipEscape : List Char → Except Failure (List Char)
  | [] => fail .endOfString []
  | 'u' :: rest => (hexQuad rest).map (·.2)
  | c :: rest => if (simpleEscape? c).isSome then .ok rest else fail .invalidEscape rest

/-- Passes over one character of a string and tells whether it was the closing quote. -/
def skipCharacter : List Char → Reading Bool
  | [] => fail .endOfString []
  | '"' :: rest => .ok (true, rest)
  | '\\' :: rest => (skipEscape rest).map fun rest => (false, rest)
  | c :: rest => if c.toNat < 0x20 then fail .controlCharacter rest else .ok (false, rest)

theorem length_lt_of_hexQuad {text rest : List Char} {unit : Nat}
    (read : hexQuad text = .ok (unit, rest)) : rest.length < text.length := by
  unfold hexQuad at read
  split at read
  · split at read
    · cases read
      simp only [List.length_cons]
      omega
    · exact absurd read fail_ne_ok
  · exact absurd read fail_ne_ok

theorem length_lt_of_expectInPair {expected : Char} {text rest : List Char}
    (read : expectInPair expected text = .ok rest) : rest.length < text.length := by
  unfold expectInPair at read
  split at read
  · exact absurd read fail_ne_ok
  · split at read
    · cases read
      exact Nat.lt_succ_self _
    · exact absurd read fail_ne_ok

theorem length_lt_of_unicodeEscape {text rest : List Char} {c : Char}
    (read : unicodeEscape text = .ok (c, rest)) : rest.length < text.length := by
  obtain ⟨⟨unit, afterFirst⟩, first, read⟩ := exists_of_bind_eq_ok read
  have firstShorter := length_lt_of_hexQuad first
  dsimp only at read
  split at read
  · exact absurd read fail_ne_ok
  · split at read
    · obtain ⟨afterSlash, slash, read⟩ := exists_of_bind_eq_ok read
      obtain ⟨afterLetter, letter, read⟩ := exists_of_bind_eq_ok read
      obtain ⟨⟨trailing, afterSecond⟩, second, read⟩ := exists_of_bind_eq_ok read
      have slashShorter := length_lt_of_expectInPair slash
      have letterShorter := length_lt_of_expectInPair letter
      have secondShorter := length_lt_of_hexQuad second
      dsimp only at read
      split at read
      · rw [← (Prod.mk.inj (Except.ok.inj read)).2]
        exact Nat.lt_trans secondShorter
          (Nat.lt_trans letterShorter (Nat.lt_trans slashShorter firstShorter))
      · exact absurd read fail_ne_ok
    · cases read
      exact firstShorter

theorem length_lt_of_escape {text rest : List Char} {c : Char}
    (read : escape text = .ok (c, rest)) : rest.length < text.length := by
  unfold escape at read
  split at read
  · exact absurd read fail_ne_ok
  · exact Nat.lt_succ_of_lt (length_lt_of_unicodeEscape read)
  · split at read
    · cases read
      exact Nat.lt_succ_self _
    · exact absurd read fail_ne_ok

theorem length_lt_of_character {text rest : List Char} {c : Option Char}
    (read : character text = .ok (c, rest)) : rest.length < text.length := by
  unfold character at read
  split at read
  · exact absurd read fail_ne_ok
  · cases read
    exact Nat.lt_succ_self _
  · obtain ⟨⟨escaped, afterEscape⟩, escapeRead, same⟩ := exists_of_map_eq_ok read
    cases same
    exact Nat.lt_succ_of_lt (length_lt_of_escape escapeRead)
  · split at read
    · exact absurd read fail_ne_ok
    · cases read
      exact Nat.lt_succ_self _

theorem length_lt_of_skipEscape {text rest : List Char}
    (read : skipEscape text = .ok rest) : rest.length < text.length := by
  unfold skipEscape at read
  split at read
  · exact absurd read fail_ne_ok
  · obtain ⟨⟨unit, afterDigits⟩, digits, same⟩ := exists_of_map_eq_ok read
    cases same
    exact Nat.lt_succ_of_lt (length_lt_of_hexQuad digits)
  · split at read
    · cases read
      exact Nat.lt_succ_self _
    · exact absurd read fail_ne_ok

theorem length_lt_of_skipCharacter {text rest : List Char} {closed : Bool}
    (read : skipCharacter text = .ok (closed, rest)) : rest.length < text.length := by
  unfold skipCharacter at read
  split at read
  · exact absurd read fail_ne_ok
  · cases read
    exact Nat.lt_succ_self _
  · obtain ⟨afterEscape, skipped, same⟩ := exists_of_map_eq_ok read
    cases same
    exact Nat.lt_succ_of_lt (length_lt_of_skipEscape skipped)
  · split at read
    · exact absurd read fail_ne_ok
    · cases read
      exact Nat.lt_succ_self _

/-- Reads the rest of a string after its opening quote; `before` holds, last first, what has been
read of it. -/
def contentAfter (before : List Char) (text : List Char) : Reading String :=
  match _read : character text with
  | .error failure => .error failure
  | .ok (none, rest) => .ok (String.ofList before.reverse, rest)
  | .ok (some c, rest) => contentAfter (c :: before) rest
termination_by text.length
decreasing_by exact length_lt_of_character _read

/-- Reads a string after its opening quote. -/
def content (text : List Char) : Reading String := contentAfter [] text

/-- Passes over a string after its opening quote. -/
def skipContent (text : List Char) : Except Failure (List Char) :=
  match _read : skipCharacter text with
  | .error failure => .error failure
  | .ok (true, rest) => .ok rest
  | .ok (false, rest) => skipContent rest
termination_by text.length
decreasing_by exact length_lt_of_skipCharacter _read

theorem length_lt_of_contentAfter {before text rest : List Char} {string : String}
    (read : contentAfter before text = .ok (string, rest)) : rest.length < text.length := by
  fun_induction contentAfter before text with
  | case1 => simp at read
  | case2 before text afterQuote first =>
    cases read
    exact length_lt_of_character first
  | case3 before text c afterFirst first ih =>
    have firstShorter := length_lt_of_character first
    have restShorter := ih read
    omega

theorem length_lt_of_content {text rest : List Char} {string : String}
    (read : content text = .ok (string, rest)) : rest.length < text.length :=
  length_lt_of_contentAfter read

theorem length_lt_of_skipContent {text rest : List Char}
    (read : skipContent text = .ok rest) : rest.length < text.length := by
  fun_induction skipContent text with
  | case1 => simp at read
  | case2 text afterQuote first =>
    cases read
    exact length_lt_of_skipCharacter first
  | case3 text afterFirst first ih =>
    have firstShorter := length_lt_of_skipCharacter first
    have restShorter := ih read
    omega

end RecencyCache.Json
