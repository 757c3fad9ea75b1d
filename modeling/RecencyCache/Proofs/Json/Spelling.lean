import RecencyCache.Json.Document
import RecencyCache.Json.Record
import RecencyCache.Proofs.Json.Numerals

/-!
# Spellings in JSON

One string has many spellings: each of its characters may stand for itself or be escaped in several
ways. A number that is not negative has one spelling. The relations below say which texts start with
a spelling of something, and what is left of the text after it. They follow the grammar, not the
reader, and the reader understands all that they describe.
-/

namespace RecencyCache.Json

/-! ## Characters -/

/-- The character is a hexadecimal digit of this value, in lower or in upper case. -/
def IsHexDigit (value : Nat) (c : Char) : Prop :=
  value < 16 ∧ (c = value.digitChar ∨ c = value.digitChar.toUpper)

/-- The text starts with four hexadecimal digits of this value. -/
inductive SpellsUnit : Nat → List Char → List Char → Prop where
  | digits {first second third fourth : Nat} {a b c d : Char} {rest : List Char} :
      IsHexDigit first a → IsHexDigit second b → IsHexDigit third c → IsHexDigit fourth d →
      SpellsUnit (((first * 16 + second) * 16 + third) * 16 + fourth) (a :: b :: c :: d :: rest)
        rest

/-- The characters that have an escape of their own, each after the letter of its escape. -/
def shortEscapes : List (Char × Char) :=
  [('"', '"'), ('\\', '\\'), ('/', '/'), ('b', '\x08'), ('f', '\x0c'), ('n', '\n'), ('r', '\r'),
    ('t', '\t')]

/-- Within quotes, the text starts with a spelling of the character. One beyond the first 65536
takes a surrogate pair if it is escaped. -/
inductive SpellsChar (character : Char) : List Char → List Char → Prop where
  | plain {rest : List Char} : 0x20 ≤ character.toNat → character ≠ '"' → character ≠ '\\' →
      SpellsChar character (character :: rest) rest
  | short {letter : Char} {rest : List Char} : (letter, character) ∈ shortEscapes →
      SpellsChar character ('\\' :: letter :: rest) rest
  | unit {text rest : List Char} : SpellsUnit character.toNat text rest →
      SpellsChar character ('\\' :: 'u' :: text) rest
  | pair {leading trailing : Nat} {text second rest : List Char} :
      0xD800 ≤ leading → leading < 0xDC00 → 0xDC00 ≤ trailing → trailing < 0xE000 →
      character.toNat = 0x10000 + (leading - 0xD800) * 0x400 + (trailing - 0xDC00) →
      SpellsUnit leading text ('\\' :: 'u' :: second) → SpellsUnit trailing second rest →
      SpellsChar character ('\\' :: 'u' :: text) rest

theorem IsHexDigit.hexDigit?_eq {value : Nat} {c : Char} (digit : IsHexDigit value c) :
    hexDigit? c = some value := by
  have table : ∀ value < 16, hexDigit? value.digitChar = some value ∧
      hexDigit? value.digitChar.toUpper = some value := by decide
  obtain ⟨small, rfl | rfl⟩ := digit
  · exact (table value small).1
  · exact (table value small).2

theorem SpellsUnit.hexQuad_eq {unit : Nat} {text rest : List Char}
    (spells : SpellsUnit unit text rest) : hexQuad text = .ok (unit, rest) := by
  cases spells with
  | digits first second third fourth =>
      simp only [hexQuad, first.hexDigit?_eq, second.hexDigit?_eq, third.hexDigit?_eq,
        fourth.hexDigit?_eq]

/-- The number of a character is no half of a surrogate pair. -/
theorem not_surrogate (c : Char) :
    isTrailingSurrogate c.toNat = false ∧ isLeadingSurrogate c.toNat = false := by
  have scalar : c.toNat < 0xD800 ∨ 0xDFFF < c.toNat ∧ c.toNat < 0x110000 := c.valid
  simp only [isTrailingSurrogate, isLeadingSurrogate, Bool.and_eq_false_iff,
    decide_eq_false_iff_not]
  omega

theorem unicodeEscape_of_unit {c : Char} {text rest : List Char}
    (unit : SpellsUnit c.toNat text rest) : unicodeEscape text = .ok (c, rest) := by
  obtain ⟨noTrailing, noLeading⟩ := not_surrogate c
  rw [unicodeEscape, unit.hexQuad_eq]
  simp [bind, Except.bind, noTrailing, noLeading, Char.ofNat_toNat]

theorem unicodeEscape_of_pair {c : Char} {leading trailing : Nat} {text second rest : List Char}
    (least : 0xD800 ≤ leading) (most : leading < 0xDC00) (leastTrailing : 0xDC00 ≤ trailing)
    (mostTrailing : trailing < 0xE000)
    (number : c.toNat = 0x10000 + (leading - 0xD800) * 0x400 + (trailing - 0xDC00))
    (first : SpellsUnit leading text ('\\' :: 'u' :: second))
    (next : SpellsUnit trailing second rest) : unicodeEscape text = .ok (c, rest) := by
  have isLeading : isLeadingSurrogate leading = true := by
    simp [isLeadingSurrogate, least, most]
  have noTrailing : isTrailingSurrogate leading = false := by
    simp [isTrailingSurrogate, Nat.not_le.mpr most]
  have isTrailing : isTrailingSurrogate trailing = true := by
    simp [isTrailingSurrogate, leastTrailing, mostTrailing]
  rw [unicodeEscape, first.hexQuad_eq]
  simp [bind, Except.bind, noTrailing, isLeading, expectInPair, next.hexQuad_eq, isTrailing,
    pairedCharacter, ← number, Char.ofNat_toNat]

/-- Every spelling of a character is read as the character. -/
theorem SpellsChar.character_eq {c : Char} {text rest : List Char}
    (spells : SpellsChar c text rest) : character text = .ok (some c, rest) := by
  cases spells with
  | plain printable noQuote noSlash =>
      have visible : ¬c.toNat < 0x20 := Nat.not_lt.mpr printable
      rw [character]
      · rw [if_neg visible]
      · exact noQuote
      · exact noSlash
  | @short letter _ listed =>
      have table : ∀ escape ∈ shortEscapes, escape.1 ≠ 'u' ∧
          simpleEscape? escape.1 = some escape.2 := by decide
      obtain ⟨noUnit, meaning⟩ := table _ listed
      have read : escape (letter :: rest) = .ok (c, rest) := by
        rw [escape]
        · rw [meaning]
        · exact noUnit
      rw [character, read]
      rfl
  | unit unit =>
      rw [character, escape, unicodeEscape_of_unit unit]
      rfl
  | pair least most leastTrailing mostTrailing number first second =>
      rw [character, escape,
        unicodeEscape_of_pair least most leastTrailing mostTrailing number first second]
      rfl

/-! ## Strings -/

/-- The text starts with a spelling of these characters and a closing quote. -/
inductive SpellsContent : List Char → List Char → List Char → Prop where
  | close {rest : List Char} : SpellsContent [] ('"' :: rest) rest
  | char {c : Char} {content text later rest : List Char} : SpellsChar c text later →
      SpellsContent content later rest → SpellsContent (c :: content) text rest

/-- The text starts with a spelling of the string, in quotes. -/
inductive SpellsString (string : String) : List Char → List Char → Prop where
  | quoted {text rest : List Char} : SpellsContent string.toList text rest →
      SpellsString string ('"' :: text) rest

theorem contentAfter_of_closed {before text rest : List Char}
    (closed : character text = .ok (none, rest)) :
    contentAfter before text = .ok (String.ofList before.reverse, rest) := by
  rw [contentAfter]
  split
  all_goals simp_all

theorem contentAfter_of_character {before text rest : List Char} {c : Char}
    (first : character text = .ok (some c, rest)) :
    contentAfter before text = contentAfter (c :: before) rest := by
  rw [contentAfter]
  split
  all_goals simp_all

theorem SpellsContent.contentAfter_eq {characters text rest : List Char}
    (spells : SpellsContent characters text rest) (before : List Char) :
    contentAfter before text = .ok (String.ofList (before.reverse ++ characters), rest) := by
  induction spells generalizing before with
  | close => rw [contentAfter_of_closed rfl, List.append_nil]
  | char first _ ih =>
      rw [contentAfter_of_character first.character_eq, ih]
      simp

theorem SpellsContent.content_eq {string : String} {text rest : List Char}
    (spells : SpellsContent string.toList text rest) : content text = .ok (string, rest) := by
  rw [content, spells.contentAfter_eq]
  simp

/-! ## Strings that are read -/

section Reading

variable {text rest : List Char} {c : Char}

/-- A character that has the value of a hexadecimal digit is the digit. -/
theorem isHexDigit_of_hexDigit? {value : Nat} (read : hexDigit? c = some value) :
    IsHexDigit value c := by
  have decimal : ∀ value < 10, Char.ofNat (48 + value) = Nat.digitChar value := by decide
  have lower : ∀ value < 6, Char.ofNat (97 + value) = Nat.digitChar (value + 10) := by decide
  have upper : ∀ value < 6, Char.ofNat (65 + value) = (Nat.digitChar (value + 10)).toUpper := by
    decide
  have number : Char.ofNat c.toNat = c := Char.ofNat_toNat c
  simp only [hexDigit?, Char.le_def, UInt32.le_iff_toNat_le] at read
  split at read
  · rename_i bounds
    change 48 ≤ c.toNat ∧ c.toNat ≤ 57 at bounds
    cases read
    change IsHexDigit (c.toNat - 48) c
    refine ⟨by omega, .inl ?_⟩
    rw [← decimal _ (by omega), Nat.add_sub_cancel' bounds.1, number]
  · split at read
    · rename_i bounds
      change 97 ≤ c.toNat ∧ c.toNat ≤ 102 at bounds
      cases read
      change IsHexDigit (c.toNat - 97 + 10) c
      refine ⟨by omega, .inl ?_⟩
      rw [← lower _ (by omega), Nat.add_sub_cancel' bounds.1, number]
    · split at read
      · rename_i bounds
        change 65 ≤ c.toNat ∧ c.toNat ≤ 70 at bounds
        cases read
        change IsHexDigit (c.toNat - 65 + 10) c
        refine ⟨by omega, .inr ?_⟩
        rw [← upper _ (by omega), Nat.add_sub_cancel' bounds.1, number]
      · cases read

theorem spellsUnit_of_read {unit : Nat} (read : hexQuad text = .ok (unit, rest)) :
    SpellsUnit unit text rest := by
  unfold hexQuad at read
  split at read
  · split at read
    · rename_i first second third fourth
      cases read
      exact .digits (isHexDigit_of_hexDigit? first) (isHexDigit_of_hexDigit? second)
        (isHexDigit_of_hexDigit? third) (isHexDigit_of_hexDigit? fourth)
    · exact absurd read fail_ne_ok
  · exact absurd read fail_ne_ok

theorem SpellsUnit.lt {unit : Nat} (spells : SpellsUnit unit text rest) : unit < 0x10000 := by
  cases spells with
  | digits first second third fourth =>
      have := first.1
      have := second.1
      have := third.1
      have := fourth.1
      omega

theorem eq_cons_of_expectInPair {expected : Char} (read : expectInPair expected text = .ok rest) :
    text = expected :: rest := by
  unfold expectInPair at read
  split at read
  · exact absurd read fail_ne_ok
  · split at read
    · rename_i same
      cases read
      rw [same]
    · exact absurd read fail_ne_ok

theorem toNat_ofNat_of_isValidChar {number : Nat} (valid : number.isValidChar) :
    (Char.ofNat number).toNat = number := by
  rw [Char.ofNat, dif_pos valid]
  rfl

/-- What is read after a backslash and the letter `u` is a character, in one half or in two. -/
theorem spellsChar_of_unicodeEscape (read : unicodeEscape text = .ok (c, rest)) :
    SpellsChar c ('\\' :: 'u' :: text) rest := by
  obtain ⟨⟨unit, afterFirst⟩, first, read⟩ := exists_of_bind_eq_ok read
  have spellsFirst := spellsUnit_of_read first
  have small := spellsFirst.lt
  dsimp only at read
  split at read
  · exact absurd read fail_ne_ok
  · rename_i noTrailing
    split at read
    · rename_i leading
      obtain ⟨afterSlash, slash, read⟩ := exists_of_bind_eq_ok read
      obtain ⟨afterLetter, letter, read⟩ := exists_of_bind_eq_ok read
      obtain ⟨⟨trailing, afterSecond⟩, second, read⟩ := exists_of_bind_eq_ok read
      rw [eq_cons_of_expectInPair slash, eq_cons_of_expectInPair letter] at spellsFirst
      dsimp only at read
      split at read
      · rename_i isTrailing
        obtain ⟨rfl, rfl⟩ := Prod.mk.inj (Except.ok.inj read)
        simp only [isLeadingSurrogate, isTrailingSurrogate, Bool.and_eq_true, decide_eq_true_eq]
          at leading isTrailing
        have valid : (0x10000 + (unit - 0xD800) * 0x400 + (trailing - 0xDC00)).isValidChar := by
          rw [Nat.isValidChar]
          omega
        refine .pair leading.1 leading.2 isTrailing.1 isTrailing.2 ?_ spellsFirst
          (spellsUnit_of_read second)
        exact toNat_ofNat_of_isValidChar valid
      · exact absurd read fail_ne_ok
    · rename_i noLeading
      cases read
      simp only [isLeadingSurrogate, isTrailingSurrogate, Bool.and_eq_true, decide_eq_true_eq]
        at noLeading noTrailing
      have valid : unit.isValidChar := by
        rw [Nat.isValidChar]
        omega
      refine .unit ?_
      rw [toNat_ofNat_of_isValidChar valid]
      exact spellsFirst

theorem mem_shortEscapes {letter : Char} (meaning : simpleEscape? letter = some c) :
    (letter, c) ∈ shortEscapes := by
  unfold simpleEscape? at meaning
  split at meaning <;> cases meaning <;> decide

/-- What is read as a character is one of its spellings. -/
theorem spellsChar_of_read (read : character text = .ok (some c, rest)) :
    SpellsChar c text rest := by
  unfold character at read
  split at read
  · exact absurd read fail_ne_ok
  · cases read
  · obtain ⟨⟨escaped, after⟩, read, same⟩ := exists_of_map_eq_ok read
    cases same
    unfold escape at read
    split at read
    · exact absurd read fail_ne_ok
    · exact spellsChar_of_unicodeEscape read
    · split at read
      · rename_i meaning
        cases read
        exact .short (mem_shortEscapes meaning)
      · exact absurd read fail_ne_ok
  · rename_i noQuote noSlash
    split at read
    · exact absurd read fail_ne_ok
    · rename_i visible
      cases read
      exact .plain (Nat.not_lt.mp visible) noQuote noSlash

theorem eq_cons_of_closed (read : character text = .ok (none, rest)) : text = '"' :: rest := by
  unfold character at read
  split at read
  · exact absurd read fail_ne_ok
  · cases read
    rfl
  · obtain ⟨_, _, same⟩ := exists_of_map_eq_ok read
    cases same
  · split at read
    · exact absurd read fail_ne_ok
    · cases read

theorem exists_spellsContent_of_read {before : List Char} {string : String}
    (read : contentAfter before text = .ok (string, rest)) :
    ∃ characters, string = String.ofList (before.reverse ++ characters) ∧
      SpellsContent characters text rest := by
  fun_induction contentAfter before text with
  | case1 => cases read
  | case2 before text after closed =>
      cases read
      refine ⟨[], by rw [List.append_nil], ?_⟩
      rw [eq_cons_of_closed closed]
      exact .close
  | case3 before text c after first ih =>
      obtain ⟨characters, rfl, others⟩ := ih read
      exact ⟨c :: characters, by simp, .char (spellsChar_of_read first) others⟩

/-- What is read as the content of a string is one of its spellings. -/
theorem spellsContent_of_read {string : String} (read : content text = .ok (string, rest)) :
    SpellsContent string.toList text rest := by
  obtain ⟨characters, rfl, spells⟩ := exists_spellsContent_of_read read
  rw [List.reverse_nil, List.nil_append, String.toList_ofList]
  exact spells

end Reading

/-! ## Writing -/

/-- A character is written as one of its spellings. -/
theorem spellsChar_escaped (c : Char) (rest : List Char) :
    SpellsChar c (escaped c ++ rest) rest := by
  rw [escaped.eq_def]
  split
  case h_8 noQuote noSlash _ _ _ _ _ =>
    split
    · rename_i control
      have high : IsHexDigit (c.toNat / 16) (c.toNat / 16).digitChar := ⟨by omega, .inl rfl⟩
      have low : IsHexDigit (c.toNat % 16) (c.toNat % 16).digitChar := ⟨by omega, .inl rfl⟩
      have zero : IsHexDigit 0 '0' := ⟨by decide, .inl rfl⟩
      have number : ((0 * 16 + 0) * 16 + c.toNat / 16) * 16 + c.toNat % 16 = c.toNat := by omega
      have digits : SpellsUnit _ _ rest := .digits zero zero high low
      rw [number] at digits
      exact .unit digits
    · rename_i printable
      exact .plain (Nat.not_lt.mp printable) noQuote noSlash
  all_goals exact .short (by decide)

/-- A string is written as one of its spellings. -/
theorem spellsString_quoted (string : String) (rest : List Char) :
    SpellsString string ((quoted string).toList ++ rest) rest := by
  have spells (characters : List Char) :
      SpellsContent characters (characters.flatMap escaped ++ '"' :: rest) rest := by
    induction characters with
    | nil => exact .close
    | cons c others ih =>
        rw [List.flatMap_cons, List.append_assoc]
        exact .char (spellsChar_escaped c _) ih
  rw [quoted, String.toList_ofList]
  simpa using SpellsString.quoted (spells string.toList)

/-! ## Values -/

/-- Blanks stand before the rest of the text. -/
def Gap (text rest : List Char) : Prop :=
  ∃ blanks, (∀ c ∈ blanks, isBlank c = true) ∧ text = blanks ++ rest

/-- The text starts with a spelling of the value. -/
inductive SpellsScalar : Scalar → List Char → List Char → Prop where
  | text {string : String} {text rest : List Char} : SpellsString string text rest →
      SpellsScalar (.text string) text rest
  | natural (number : Nat) {rest : List Char} :
      SpellsScalar (.integer number) (Nat.toDigits 10 number ++ rest) rest
  | absent {rest : List Char} : SpellsScalar .absent ('n' :: 'u' :: 'l' :: 'l' :: rest) rest

/-- A field of the type may have the value. -/
inductive FieldType.Admits : FieldType → Scalar → Prop where
  | text (string : String) : Admits .text (.text string)
  | integer {low high number : Int} : low ≤ number → number ≤ high →
      Admits (.integer low high) (.integer number)
  | optionalInteger {low high number : Int} : low ≤ number → number ≤ high →
      Admits (.optionalInteger low high) (.integer number)
  | absent {low high : Int} : Admits (.optionalInteger low high) .absent

theorem Gap.refl (text : List Char) : Gap text text := ⟨[], by simp, rfl⟩

theorem Gap.cons {c : Char} {text rest : List Char} (blank : isBlank c = true)
    (gap : Gap text rest) : Gap (c :: text) rest := by
  obtain ⟨blanks, all, rfl⟩ := gap
  exact ⟨c :: blanks, List.forall_mem_cons.mpr ⟨blank, all⟩, rfl⟩

/-- Blanks are passed over up to the first character that is none. -/
theorem Gap.skipBlanks_eq {text rest : List Char} {c : Char} (gap : Gap text (c :: rest))
    (filled : isBlank c = false) : skipBlanks text = c :: rest := by
  obtain ⟨blanks, blank, rfl⟩ := gap
  rw [skipBlanks, List.dropWhile_append_of_pos blank, List.dropWhile_cons_of_neg (by simp [filled])]

/-- Nothing is left of blanks. -/
theorem Gap.skipBlanks_eq_nil {text : List Char} (gap : Gap text []) : skipBlanks text = [] := by
  obtain ⟨blanks, blank, rfl⟩ := gap
  rw [skipBlanks, List.dropWhile_append_of_pos blank, List.dropWhile_nil]

/-- No number goes on with a blank. -/
theorem Gap.endsNumeral {text rest : List Char} {c : Char} (gap : Gap text (c :: rest))
    (ends : EndsNumeral (c :: rest)) : EndsNumeral text := by
  obtain ⟨blanks, blank, rfl⟩ := gap
  cases blanks with
  | nil => exact ends
  | cons first others =>
      have listed : first = ' ' ∨ first = '\t' ∨ first = '\n' ∨ first = '\r' := by
        simpa [isBlank, or_assoc] using blank first (.head _)
      intro next head
      obtain rfl : first = next := by simpa using head
      rcases listed with rfl | rfl | rfl | rfl <;> decide

theorem isBlank_of_isDigit {digit : Char} (isDigit : digit.isDigit = true) :
    isBlank digit = false := by
  simp [isBlank, ne_of_isDigit isDigit]

/-- A value starts with no blank and no closing bracket. -/
theorem SpellsScalar.exists_eq_cons {value : Scalar} {text rest : List Char}
    (spells : SpellsScalar value text rest) :
    ∃ first others, text = first :: others ∧ isBlank first = false ∧ first ≠ ']' := by
  cases spells with
  | text quoted =>
      cases quoted with
      | quoted => exact ⟨_, _, rfl, by decide, by decide⟩
  | natural number =>
      obtain ⟨first, others, same, digit, -⟩ := exists_toDigits_eq_cons number
      exact ⟨first, others ++ rest, by rw [same, List.cons_append], isBlank_of_isDigit digit,
        ne_of_isDigit digit (by decide)⟩
  | absent => exact ⟨_, _, rfl, by decide, by decide⟩

theorem readText_of_spells {string : String} {full text rest : List Char} (gap : Gap full text)
    (spells : SpellsString string text rest) : readText full = .ok (.text string, rest) := by
  cases spells with
  | quoted content =>
      rw [readText, gap.skipBlanks_eq (by decide)]
      simp [content.content_eq, bind, Except.bind]

theorem readInteger_of_toDigits {low high : Int} {number : Nat} {full rest : List Char}
    (gap : Gap full (Nat.toDigits 10 number ++ rest)) (least : low ≤ number)
    (most : (number : Int) ≤ high) (ends : EndsNumeral rest) :
    readInteger low high full = .ok (.integer number, rest) := by
  have read := numeral_toDigits .endOfValue number ends
  have value := digitsValue_toDigits number
  obtain ⟨first, others, same, digit, -⟩ := exists_toDigits_eq_cons number
  rw [same, List.cons_append] at gap read
  rw [same] at value
  rw [readInteger, gap.skipBlanks_eq (isBlank_of_isDigit digit)]
  simp [startsNumeral, digit, read, bind, Except.bind, Numeral.integer?, value, least, most]

/-- The spelling of a value is read as the value. -/
theorem FieldType.read_of_spells {type : FieldType} {value : Scalar} {full text rest : List Char}
    (gap : Gap full text) (admits : type.Admits value) (spells : SpellsScalar value text rest)
    (ends : EndsNumeral rest) : type.read full = .ok (value, rest) := by
  cases admits with
  | text string =>
      cases spells with
      | text quoted => exact readText_of_spells gap quoted
  | integer least most =>
      cases spells with
      | natural number => exact readInteger_of_toDigits gap least most ends
  | optionalInteger least most =>
      cases spells with
      | natural number =>
          -- The blanks have been passed over already when the integer is read.
          have read := readInteger_of_toDigits (.refl _) least most ends
          obtain ⟨first, others, same, digit, -⟩ := exists_toDigits_eq_cons number
          rw [same, List.cons_append] at gap read
          rw [FieldType.read, readOptionalInteger, gap.skipBlanks_eq (isBlank_of_isDigit digit)]
          split
          · rename_i starts
            exact absurd (List.cons.inj starts).1 (ne_of_isDigit digit (by decide))
          · exact read
  | absent =>
      cases spells with
      | absent =>
          rw [read, readOptionalInteger, gap.skipBlanks_eq (by decide)]
          simp [expectWord, bind, Except.bind]

/-! ## Values that are read -/

section Reading

variable {full rest : List Char} {value : Scalar} {low high : Int}

theorem gap_skipBlanks (text : List Char) : Gap text (skipBlanks text) :=
  ⟨text.takeWhile isBlank, List.all_eq_true.mp List.all_takeWhile,
    List.takeWhile_append_dropWhile.symm⟩

/-- The blanks are passed over. -/
theorem gap_of_skipBlanks_eq {text : List Char} (found : skipBlanks full = text) :
    Gap full text := found ▸ gap_skipBlanks full

theorem Gap.trans {text middle : List Char} (gap : Gap text middle) (next : Gap middle rest) :
    Gap text rest := by
  obtain ⟨blanks, blank, rfl⟩ := gap
  obtain ⟨others, blankOthers, rfl⟩ := next
  exact ⟨blanks ++ others, List.forall_mem_append.mpr ⟨blank, blankOthers⟩, by simp⟩

theorem eq_append_of_expectWord {word text : List Char} (read : expectWord word text = .ok rest) :
    text = word ++ rest := by
  induction word generalizing text with
  | nil =>
      cases read
      rfl
  | cons expected word ih =>
      cases text with
      | nil => exact absurd read fail_ne_ok
      | cons c after =>
          rw [expectWord] at read
          split at read
          · rename_i same
            rw [same, ih read, List.cons_append]
          · exact absurd read fail_ne_ok

theorem exists_spellsString_of_readText (read : readText full = .ok (value, rest)) :
    ∃ string text, value = .text string ∧ Gap full text ∧ SpellsString string text rest := by
  unfold readText at read
  split at read
  · rename_i found
    obtain ⟨⟨string, after⟩, content, read⟩ := exists_of_bind_eq_ok read
    cases read
    exact ⟨string, _, rfl, gap_of_skipBlanks_eq found, .quoted (spellsContent_of_read content)⟩
  · exact absurd read refuseValue_ne_ok

/-- An integer that is not negative has no sign, no fraction and no exponent. -/
theorem Numeral.of_integer?_eq {number : Numeral} {integer : Int}
    (read : number.integer? = some integer) (natural : 0 ≤ integer) :
    number.negative = false ∧ number.fraction = none ∧ number.exponent = none ∧
      integer = Decimal.digitsValue number.whole := by
  unfold integer? at read
  split at read
  · rename_i noFraction noExponent
    dsimp only at read
    split at read
    · rename_i positive
      cases read
      exact ⟨by simpa using positive, noFraction, noExponent, rfl⟩
    · split at read
      · cases read
      · cases read
        omega
  · cases read

/-- An integer that is not negative is spelled by its digits. -/
theorem SpellsNumeral.exists_natural {number : Numeral} {text : List Char} {integer : Int}
    (spells : SpellsNumeral number text rest) (denotes : number.integer? = some integer)
    (natural : 0 ≤ integer) :
    ∃ magnitude : Nat, integer = magnitude ∧ text = Nat.toDigits 10 magnitude ++ rest := by
  obtain ⟨positive, noFraction, noExponent, rfl⟩ := Numeral.of_integer?_eq denotes natural
  refine ⟨_, rfl, ?_⟩
  cases spells with
  | parts whole sign fraction exponent =>
      rw [positive] at sign
      rw [noFraction] at fraction
      rw [noExponent] at exponent
      cases exponent
      cases fraction
      cases sign
      rw [whole.toDigits_digitsValue]

theorem exists_toDigits_of_readInteger (unsigned : 0 ≤ low)
    (read : readInteger low high full = .ok (value, rest)) :
    ∃ number : Nat, value = .integer number ∧ low ≤ number ∧ (number : Int) ≤ high ∧
      Gap full (Nat.toDigits 10 number ++ rest) := by
  unfold readInteger at read
  split at read
  · exact absurd read refuseValue_ne_ok
  · rename_i found
    split at read
    · obtain ⟨⟨number, after⟩, numberRead, read⟩ := exists_of_bind_eq_ok read
      dsimp only at read
      split at read
      · exact absurd read refuseNumeral_ne_ok
      · rename_i integer denotes
        split at read
        · rename_i bounds
          cases read
          obtain ⟨magnitude, rfl, same⟩ := (spellsNumeral_of_read numberRead).exists_natural
            denotes (Int.le_trans unsigned bounds.1)
          exact ⟨magnitude, rfl, bounds.1, bounds.2, gap_of_skipBlanks_eq (found.trans same)⟩
        · exact absurd read refuseNumeral_ne_ok
    · exact absurd read refuseValue_ne_ok

/-- A field of the type has no negative number. -/
def FieldType.Unsigned : FieldType → Prop
  | .text => True
  | .integer low _ | .optionalInteger low _ => 0 ≤ low

/-- What is read for a field is the spelling of a value that the field may have. -/
theorem FieldType.spells_of_read {type : FieldType} (unsigned : type.Unsigned)
    (read : type.read full = .ok (value, rest)) :
    ∃ text, Gap full text ∧ type.Admits value ∧ SpellsScalar value text rest := by
  cases type with
  | text =>
      obtain ⟨string, text, rfl, gap, spells⟩ := exists_spellsString_of_readText read
      exact ⟨text, gap, .text string, .text spells⟩
  | integer low high =>
      obtain ⟨number, rfl, least, most, gap⟩ := exists_toDigits_of_readInteger unsigned read
      exact ⟨_, gap, .integer least most, .natural number⟩
  | optionalInteger low high =>
      change readOptionalInteger low high full = .ok (value, rest) at read
      unfold readOptionalInteger at read
      split at read
      · rename_i found
        obtain ⟨after, word, read⟩ := exists_of_bind_eq_ok read
        cases read
        rw [eq_append_of_expectWord word] at found
        exact ⟨_, gap_of_skipBlanks_eq found, .absent, .absent⟩
      · obtain ⟨number, rfl, least, most, gap⟩ := exists_toDigits_of_readInteger unsigned read
        exact ⟨_, (gap_skipBlanks full).trans gap, .optionalInteger least most, .natural number⟩

end Reading

end RecencyCache.Json
