import RecencyCache.Proofs.Json.Layout

/-!
# The grammar of JSON

The relations below follow the grammar of JSON: they say which texts start with a value of any
kind, and what is left of the text after it. Strings in such a value need not have a meaning, so a
surrogate may stand alone. What is passed over as a value is a value of the grammar, and all values
are passed over, however deep their brackets are nested.
-/

namespace RecencyCache.Json

/-! ## Strings -/

/-- Within quotes, the text starts with a character, plain or escaped, or with an escape that is no
character alone. -/
inductive SpansChar : List Char → List Char → Prop where
  | plain {c : Char} {rest : List Char} : 0x20 ≤ c.toNat → c ≠ '"' → c ≠ '\\' →
      SpansChar (c :: rest) rest
  | short {letter c : Char} {rest : List Char} : (letter, c) ∈ shortEscapes →
      SpansChar ('\\' :: letter :: rest) rest
  | unit {unit : Nat} {text rest : List Char} : SpellsUnit unit text rest →
      SpansChar ('\\' :: 'u' :: text) rest

/-- The text starts with the characters of a string and a closing quote. -/
inductive SpansContent : List Char → List Char → Prop where
  | close {rest : List Char} : SpansContent ('"' :: rest) rest
  | char {text later rest : List Char} : SpansChar text later → SpansContent later rest →
      SpansContent text rest

section Strings

variable {text rest : List Char}

theorem SpansChar.skipCharacter_eq (spans : SpansChar text rest) :
    skipCharacter text = .ok (false, rest) := by
  cases spans with
  | plain printable noQuote noSlash =>
      rw [skipCharacter]
      · rw [if_neg (Nat.not_lt.mpr printable)]
      · exact noQuote
      · exact noSlash
  | @short letter c _ listed =>
      have table : ∀ escape ∈ shortEscapes, escape.1 ≠ 'u' ∧
          (simpleEscape? escape.1).isSome = true := by decide
      obtain ⟨noUnit, known⟩ := table _ listed
      have skipped : skipEscape (letter :: rest) = .ok rest := by
        rw [skipEscape]
        · rw [if_pos known]
        · exact noUnit
      rw [skipCharacter, skipped]
      rfl
  | unit unit =>
      rw [skipCharacter, skipEscape, unit.hexQuad_eq]
      rfl

theorem spansChar_of_skip (skipped : skipCharacter text = .ok (false, rest)) :
    SpansChar text rest := by
  unfold skipCharacter at skipped
  split at skipped
  · exact absurd skipped fail_ne_ok
  · cases skipped
  · obtain ⟨after, skipped, same⟩ := exists_of_map_eq_ok skipped
    cases same
    unfold skipEscape at skipped
    split at skipped
    · exact absurd skipped fail_ne_ok
    · obtain ⟨⟨unit, after⟩, digits, same⟩ := exists_of_map_eq_ok skipped
      cases same
      exact .unit (spellsUnit_of_read digits)
    · split at skipped
      · rename_i known
        obtain ⟨c, meaning⟩ := Option.isSome_iff_exists.mp known
        cases skipped
        exact .short (mem_shortEscapes meaning)
      · exact absurd skipped fail_ne_ok
  · rename_i noQuote noSlash
    split at skipped
    · exact absurd skipped fail_ne_ok
    · rename_i visible
      cases skipped
      exact .plain (Nat.not_lt.mp visible) noQuote noSlash

theorem eq_cons_of_skipClosed (skipped : skipCharacter text = .ok (true, rest)) :
    text = '"' :: rest := by
  unfold skipCharacter at skipped
  split at skipped
  · exact absurd skipped fail_ne_ok
  · cases skipped
    rfl
  · obtain ⟨_, _, same⟩ := exists_of_map_eq_ok skipped
    cases same
  · split at skipped
    · exact absurd skipped fail_ne_ok
    · cases skipped

theorem SpansContent.skipContent_eq (spans : SpansContent text rest) :
    skipContent text = .ok rest := by
  induction spans with
  | close =>
      rw [skipContent]
      split
      all_goals simp_all [skipCharacter]
  | char first _ ih =>
      have skipped := first.skipCharacter_eq
      rw [skipContent]
      split
      all_goals simp_all

/-- What is passed over as the content of a string is one. -/
theorem spansContent_of_skip (skipped : skipContent text = .ok rest) : SpansContent text rest := by
  fun_induction skipContent text with
  | case1 => cases skipped
  | case2 text after closed =>
      cases skipped
      rw [eq_cons_of_skipClosed closed]
      exact .close
  | case3 text after first ih => exact .char (spansChar_of_skip first) (ih skipped)

/-- The content of a string with a meaning is one. -/
theorem SpellsContent.spans {characters : List Char} (spells : SpellsContent characters text rest) :
    SpansContent text rest := by
  induction spells with
  | close => exact .close
  | char first _ ih =>
      cases first with
      | plain printable noQuote noSlash => exact .char (.plain printable noQuote noSlash) ih
      | short listed => exact .char (.short listed) ih
      | unit unit => exact .char (.unit unit) ih
      | pair _ _ _ _ _ leading trailing => exact .char (.unit leading) (.char (.unit trailing) ih)

end Strings

/-! ## Values without brackets -/

/-- The words that are values. -/
def words : List (List Char) :=
  [['n', 'u', 'l', 'l'], ['t', 'r', 'u', 'e'], ['f', 'a', 'l', 's', 'e']]

/-- The text starts with a value without brackets. -/
inductive SpansScalar : List Char → List Char → Prop where
  | word {word rest : List Char} : word ∈ words → SpansScalar (word ++ rest) rest
  | string {text rest : List Char} : SpansContent text rest → SpansScalar ('"' :: text) rest
  | number {number : Numeral} {text rest : List Char} : SpellsNumeral number text rest →
      SpansScalar text rest

section Scalars

variable {text rest : List Char}

theorem expectWord_append (word rest : List Char) : expectWord word (word ++ rest) = .ok rest := by
  induction word with
  | nil => rfl
  | cons c word ih => rw [List.cons_append, expectWord, if_pos rfl, ih]

/-- A number starts with a digit or with a minus. -/
theorem SpellsNumeral.exists_eq_cons {number : Numeral} (spells : SpellsNumeral number text rest) :
    ∃ first others, text = first :: others ∧ startsNumeral first = true := by
  cases spells with
  | parts whole sign fraction exponent =>
      obtain ⟨first, others, same⟩ := List.exists_cons_of_ne_nil whole.filled
      have digit := whole.run first (by simp [same])
      rcases sign.eq_or_eq with rfl | rfl
      · exact ⟨first, _, by rw [same, List.cons_append], by simp [startsNumeral, digit]⟩
      · exact ⟨'-', _, rfl, rfl⟩

/-- A number starts with none of the other characters of the grammar. -/
theorem not_startsNumeral {first other : Char} (starts : startsNumeral first = true)
    (differs : startsNumeral other = false) : first ≠ other := by
  rintro rfl
  exact Bool.false_ne_true (differs.symm.trans starts)

theorem isBlank_of_startsNumeral {first : Char} (starts : startsNumeral first = true) :
    isBlank first = false := by
  rcases Bool.or_eq_true_iff.mp starts with minus | digit
  · rw [eq_of_beq minus]
    decide
  · exact isBlank_of_isDigit digit

/-- A value without brackets starts with no blank and no bracket. -/
theorem SpansScalar.exists_eq_cons (spans : SpansScalar text rest) :
    ∃ first others, text = first :: others ∧ isBlank first = false ∧
      first ∉ ['[', '{', ']', '}'] := by
  cases spans with
  | word listed =>
      simp only [words, List.mem_cons, List.not_mem_nil, or_false] at listed
      rcases listed with rfl | rfl | rfl <;> exact ⟨_, _, rfl, by decide, by decide⟩
  | string => exact ⟨'"', _, rfl, by decide, by decide⟩
  | number spells =>
      obtain ⟨first, others, same, starts⟩ := spells.exists_eq_cons
      refine ⟨first, others, same, isBlank_of_startsNumeral starts, ?_⟩
      have table : ∀ other ∈ ['[', '{', ']', '}'], startsNumeral other = false := by
        simp [startsNumeral]
      exact fun listed => not_startsNumeral starts (table first listed) rfl

/-- Every value without brackets is passed over. -/
theorem SpansScalar.skipScalar_eq (spans : SpansScalar text rest) (ends : EndsNumeral rest) :
    skipScalar text = .ok rest := by
  cases spans with
  | word listed =>
      simp only [words, List.mem_cons, List.not_mem_nil, or_false] at listed
      rcases listed with rfl | rfl | rfl <;> exact expectWord_append _ _
  | string content => exact content.skipContent_eq
  | number spells =>
      have read := spells.numeral_eq .invalidNumber ends
      obtain ⟨first, others, rfl, starts⟩ := spells.exists_eq_cons
      rw [skipScalar]
      · rw [if_pos starts, read]
        rfl
      all_goals exact not_startsNumeral starts (by decide)

/-- What is passed over without brackets is a value. -/
theorem spansScalar_of_skip (skipped : skipScalar text = .ok rest) : SpansScalar text rest := by
  unfold skipScalar at skipped
  split at skipped
  · exact absurd skipped fail_ne_ok
  · have listed : ['n', 'u', 'l', 'l'] ∈ words := by decide
    rw [eq_append_of_expectWord skipped]
    exact .word listed
  · have listed : ['t', 'r', 'u', 'e'] ∈ words := by decide
    rw [eq_append_of_expectWord skipped]
    exact .word listed
  · have listed : ['f', 'a', 'l', 's', 'e'] ∈ words := by decide
    rw [eq_append_of_expectWord skipped]
    exact .word listed
  · exact .string (spansContent_of_skip skipped)
  · split at skipped
    · obtain ⟨⟨number, after⟩, read, same⟩ := exists_of_map_eq_ok skipped
      cases same
      exact .number (spellsNumeral_of_read read)
    · exact absurd skipped fail_ne_ok

end Scalars

/-! ## Values -/

/-- The character that opens the bracket. -/
def Bracket.opening : Bracket → Char
  | .square => '['
  | .curly => '{'

/-- The text starts with what stands before the value of an item: in an object, a name and a
colon. -/
inductive SpansItemStart : Bracket → List Char → List Char → Prop where
  | square {rest : List Char} : SpansItemStart .square rest rest
  | curly {text afterName rest : List Char} : SpansContent text afterName →
      Gap afterName (':' :: rest) → SpansItemStart .curly ('"' :: text) rest

/-- The parts of the grammar that contain each other. -/
inductive Part where
  | value
  /-- The items up to the closing bracket, of which the next one is the first or not. -/
  | items (bracket : Bracket) (first : Bool)

/-- The text starts with a part of the grammar. -/
inductive Spans : Part → List Char → List Char → Prop where
  | scalar {text rest : List Char} : SpansScalar text rest → Spans .value text rest
  | bracket {bracket : Bracket} {text rest : List Char} : Spans (.items bracket true) text rest →
      Spans .value (bracket.opening :: text) rest
  | close {bracket : Bracket} {first : Bool} {text rest : List Char} :
      Gap text (bracket.closing :: rest) → Spans (.items bracket first) text rest
  | item {bracket : Bracket} {first : Bool} {text start afterStart valued later rest : List Char} :
      Separates first text start → SpansItemStart bracket start afterStart →
      Gap afterStart valued → Spans .value valued later →
      Spans (.items bracket false) later rest → Spans (.items bracket first) text rest

section Values

variable {text rest : List Char} {brackets outer : List Bracket} {bracket : Bracket} {first : Bool}

/-- A value starts with no blank and no closing bracket. -/
theorem Spans.exists_eq_cons (spans : Spans .value text rest) :
    ∃ first others, text = first :: others ∧ isBlank first = false ∧ first ≠ ']' ∧ first ≠ '}' := by
  cases spans with
  | scalar scalar =>
      obtain ⟨first, others, same, filled, others⟩ := scalar.exists_eq_cons
      simp only [List.mem_cons, not_or] at others
      exact ⟨first, _, same, filled, others.2.2.1, others.2.2.2.1⟩
  | @bracket bracket =>
      cases bracket with
      | square | curly => exact ⟨_, _, rfl, by decide, by decide, by decide⟩

/-- No number goes on where items are continued. -/
theorem Spans.endsNumeral (spans : Spans (.items bracket false) text rest) : EndsNumeral text := by
  cases spans with
  | close gap =>
      refine gap.endsNumeral ?_
      cases bracket with
      | square | curly => simp [EndsNumeral, Bracket.closing]
  | item separates => exact separates.endsNumeral

/-! ### Steps of skipping -/

/-- What is expected where items go on. -/
def expectedItem : Bool → Expected
  | true => .firstItem
  | false => .nextItem

theorem skipWithin_of_opening (found : skipBlanks text = bracket.opening :: rest) :
    skipWithin .value brackets text = skipWithin .firstItem (bracket :: brackets) rest := by
  rw [skipWithin]
  cases bracket with
  | square | curly => split <;> simp_all [Bracket.opening]

theorem skipWithin_of_scalar {scalar : List Char} (found : skipBlanks text = scalar)
    (spans : SpansScalar scalar rest) (ends : EndsNumeral rest) :
    skipWithin .value brackets text = skipWithin .nextItem brackets rest := by
  have skipped := spans.skipScalar_eq ends
  obtain ⟨first, others, rfl, -, noBracket⟩ := spans.exists_eq_cons
  conv_lhs => rw [skipWithin]
  split
  · rename_i opens
    cases found.symm.trans opens
    simp at noBracket
  · rename_i opens
    cases found.symm.trans opens
    simp at noBracket
  · rw [found]
    split <;> simp_all

theorem skipWithin_of_closing (found : skipBlanks text = bracket.closing :: rest) :
    skipWithin (expectedItem first) (bracket :: outer) text = skipWithin .nextItem outer rest := by
  cases first <;> rw [expectedItem, skipWithin] <;> split <;> simp_all

theorem skipWithin_of_first {c : Char} {others : List Char}
    (found : skipBlanks text = c :: others) (inside : c ≠ bracket.closing)
    (start : skipItemStart bracket (c :: others) = .ok rest) :
    skipWithin .firstItem (bracket :: outer) text = skipWithin .value (bracket :: outer) rest := by
  conv_lhs => rw [skipWithin]
  split
  · simp_all
  · rename_i foundAlso
    cases found.symm.trans foundAlso
    rw [if_neg inside]
    split <;> simp_all

theorem skipWithin_of_next {others : List Char} (found : skipBlanks text = ',' :: others)
    (start : skipItemStart bracket others = .ok rest) :
    skipWithin .nextItem (bracket :: outer) text = skipWithin .value (bracket :: outer) rest := by
  have inside : ',' ≠ bracket.closing := by cases bracket <;> decide
  conv_lhs => rw [skipWithin]
  split
  · simp_all
  · rename_i foundAlso
    cases found.symm.trans foundAlso
    rw [if_neg inside, if_pos rfl]
    split <;> simp_all

theorem SpansItemStart.exists_skip {full start valued : List Char}
    (spans : SpansItemStart bracket start rest) (gap : Gap full start) (next : Gap rest valued) :
    ∃ after, skipItemStart bracket full = .ok after ∧ Gap after valued := by
  cases spans with
  | square => exact ⟨full, rfl, gap.trans next⟩
  | curly content colon =>
      refine ⟨rest, ?_, next⟩
      rw [skipItemStart, skipName, gap.skipBlanks_eq (by decide)]
      simp [content.skipContent_eq, expectColon_of_gap colon, bind, Except.bind]

/-- The first item starts with its name, or with its value if it has no name. -/
theorem SpansItemStart.exists_first {start valued later : List Char}
    (spans : SpansItemStart bracket start rest) (gap : Gap text start) (next : Gap rest valued)
    (value : Spans .value valued later) :
    ∃ c others after, skipBlanks text = c :: others ∧ c ≠ bracket.closing ∧
      skipItemStart bracket (c :: others) = .ok after ∧ Gap after valued := by
  cases spans with
  | square =>
      obtain ⟨c, others, rfl, filled, inside, -⟩ := value.exists_eq_cons
      exact ⟨c, others, _, (gap.trans next).skipBlanks_eq filled, inside, rfl, .refl _⟩
  | curly content colon =>
      obtain ⟨after, skipped, gapAfter⟩ := (curly content colon).exists_skip (.refl _) next
      exact ⟨'"', _, after, gap.skipBlanks_eq (by decide), by decide, skipped, gapAfter⟩

/-! ### All values -/

/-- Skipping passes over the part and goes on after it. -/
def Part.Skips : Part → List Char → List Char → Prop
  | .value, text, rest => ∀ brackets full, Gap full text → EndsNumeral rest →
      skipWithin .value brackets full = skipWithin .nextItem brackets rest
  | .items bracket first, text, rest => ∀ outer,
      skipWithin (expectedItem first) (bracket :: outer) text = skipWithin .nextItem outer rest

/-- Every part of the grammar is passed over. -/
theorem Spans.skips {part : Part} (spans : Spans part text rest) : part.Skips text rest := by
  -- The induction follows the grammar, and each part leaves the brackets that it found open.
  induction spans with
  | scalar scalar =>
      intro brackets full gap ends
      obtain ⟨first, others, rfl, filled, -⟩ := scalar.exists_eq_cons
      exact skipWithin_of_scalar (gap.skipBlanks_eq filled) scalar ends
  | @bracket bracket text rest _ ih =>
      intro brackets full gap _
      have filled : isBlank bracket.opening = false := by cases bracket <;> decide
      rw [skipWithin_of_opening (gap.skipBlanks_eq filled)]
      exact ih brackets
  | @close bracket first text rest gap =>
      intro outer
      have filled : isBlank bracket.closing = false := by cases bracket <;> decide
      exact skipWithin_of_closing (gap.skipBlanks_eq filled)
  | @item bracket first text start afterStart valued later rest separates start next value items
      ihValue ihItems =>
      intro outer
      have goesOn : ∀ after, Gap after valued →
          skipWithin .value (bracket :: outer) after = skipWithin .nextItem outer rest := by
        intro after gap
        rw [ihValue (bracket :: outer) after gap items.endsNumeral]
        exact ihItems outer
      cases separates with
      | first gap =>
          obtain ⟨c, others, after, found, inside, skipped, gapAfter⟩ :=
            start.exists_first gap next value
          exact (skipWithin_of_first found inside skipped).trans (goesOn after gapAfter)
      | next comma gap =>
          obtain ⟨after, skipped, gapAfter⟩ := start.exists_skip gap next
          exact (skipWithin_of_next (comma.skipBlanks_eq (by decide)) skipped).trans
            (goesOn after gapAfter)

/-- Every value is passed over. -/
theorem Spans.skipValue_eq {full : List Char} (spans : Spans .value text rest)
    (gap : Gap full text) (ends : EndsNumeral rest) : skipValue full = .ok rest := by
  rw [skipValue, spans.skips [] full gap ends, skipWithin]

/-! ### Nothing but values -/

/-- The text starts with what closes the open brackets, the innermost of which comes first. -/
inductive Closes : List Bracket → List Char → List Char → Prop where
  | nil {rest : List Char} : Closes [] rest rest
  | cons {bracket : Bracket} {outer : List Bracket} {text later rest : List Char} :
      Spans (.items bracket false) text later → Closes outer later rest →
      Closes (bracket :: outer) text rest

/-- The text starts with what is expected and then with what closes the open brackets. -/
def Expected.Completes : Expected → List Bracket → List Char → List Char → Prop
  | .value, brackets, text, rest => ∃ start later,
      Gap text start ∧ Spans .value start later ∧ Closes brackets later rest
  | .firstItem, [], text, rest => text = rest
  | .firstItem, bracket :: outer, text, rest => ∃ later,
      Spans (.items bracket true) text later ∧ Closes outer later rest
  | .nextItem, brackets, text, rest => Closes brackets text rest

theorem spansItemStart_of_skip (skipped : skipItemStart bracket text = .ok rest) :
    ∃ start, Gap text start ∧ SpansItemStart bracket start rest := by
  cases bracket with
  | square =>
      cases skipped
      exact ⟨text, .refl text, .square⟩
  | curly =>
      change skipName text = .ok rest at skipped
      unfold skipName at skipped
      split at skipped
      · rename_i found
        obtain ⟨afterName, name, colon⟩ := exists_of_bind_eq_ok skipped
        unfold expectColon at colon
        split at colon
        · rename_i foundColon
          cases colon
          exact ⟨_, gap_of_skipBlanks_eq found,
            .curly (spansContent_of_skip name) (gap_of_skipBlanks_eq foundColon)⟩
        · exact absurd colon fail_ne_ok
        · exact absurd colon fail_ne_ok
      · exact absurd skipped fail_ne_ok
      · exact absurd skipped fail_ne_ok

/-- What is skipped is what was expected, up to the end of the outermost bracket. -/
theorem completes_of_skipWithin {expected : Expected}
    (skipped : skipWithin expected brackets text = .ok rest) :
    expected.Completes brackets text rest := by
  -- The induction follows the reader. What it does before a call is put in front of what the call
  -- completes: an opening bracket of its items, the value of an item of the further ones.
  fun_induction skipWithin expected brackets text with
  | case1 text brackets afterBracket found ih | case2 text brackets afterBracket found ih =>
      obtain ⟨later, items, closes⟩ := ih skipped
      exact ⟨_, later, gap_of_skipBlanks_eq found, .bracket items, closes⟩
  | case3 => cases skipped
  | case4 text brackets after _ _ scalar ih =>
      exact ⟨_, after, gap_skipBlanks text, .scalar (spansScalar_of_skip scalar), ih skipped⟩
  | case5 =>
      cases skipped
      rfl
  | case6 =>
      cases skipped
      exact .nil
  | case7 => exact absurd skipped fail_ne_ok
  | case8 text bracket outer after found ih =>
      exact ⟨after, .close (gap_of_skipBlanks_eq found), ih skipped⟩
  | case9 => cases skipped
  | case10 text bracket outer c others found inside after start ih =>
      obtain ⟨valued, later, next, value, closes⟩ := ih skipped
      obtain ⟨start, gap, spans⟩ := spansItemStart_of_skip start
      cases closes with
      | cons items closes =>
          have first := (gap_of_skipBlanks_eq found).trans gap
          exact ⟨_, .item (.first first) spans next value items, closes⟩
  | case11 => exact absurd skipped fail_ne_ok
  | case12 text bracket outer after found ih =>
      exact .cons (.close (gap_of_skipBlanks_eq found)) (ih skipped)
  | case13 => cases skipped
  | case14 text bracket outer others after start found inside ih =>
      obtain ⟨valued, later, next, value, closes⟩ := ih skipped
      obtain ⟨start, gap, spans⟩ := spansItemStart_of_skip start
      cases closes with
      | cons items closes =>
          exact .cons (.item (.next (gap_of_skipBlanks_eq found) gap) spans next value items) closes
  | case15 => exact absurd skipped fail_ne_ok

/-- What is passed over as a value is one. -/
theorem exists_spans_of_skipValue (skipped : skipValue text = .ok rest) :
    ∃ start, Gap text start ∧ Spans .value start rest := by
  obtain ⟨start, later, gap, value, closes⟩ := completes_of_skipWithin skipped
  cases closes
  exact ⟨start, gap, value⟩

end Values

end RecencyCache.Json
