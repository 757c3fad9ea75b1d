import RecencyCache.Json.Numeral

/-!
# Spellings of numbers in JSON

A number is a sign, the digits before the point, and perhaps a fraction and an exponent. The
relations below follow the grammar of JSON: they say which texts start with a number of given
parts, and what is left of the text after it. What is read as a number is one of these texts, and
each of them is read as its parts if the number does not go on with what is left.
-/

namespace RecencyCache.Json

/-! ## Digits -/

/-- No number goes on with the text. -/
def EndsNumeral (text : List Char) : Prop :=
  ∀ c ∈ text.head?, c.isDigit = false ∧ c ≠ '.' ∧ c ≠ 'e' ∧ c ≠ 'E'

/-- One or more digits. -/
structure IsDigits (digits : List Char) : Prop where
  filled : digits ≠ []
  run : ∀ c ∈ digits, c.isDigit = true

/-- The digits before a point: zero leads only if it stands alone. -/
structure IsWhole (digits : List Char) : Prop extends IsDigits digits where
  leading : digits.head? = some '0' → digits = ['0']

theorem digitsValue_toDigits (number : Nat) :
    Decimal.digitsValue (Nat.toDigits 10 number) = number := by
  rw [Decimal.digitsValue, ← Nat.ofDigitChars_eq_foldl, Nat.ofDigitChars_ten_toDigits]

theorem isDigit_toDigits (number : Nat) : ∀ c ∈ Nat.toDigits 10 number, c.isDigit = true :=
  fun _ member => Nat.isDigit_of_mem_toDigits (by decide) (by decide) member

/-- A number starts with a digit, and only the number zero with the digit zero. -/
theorem exists_toDigits_eq_cons (number : Nat) :
    ∃ first others, Nat.toDigits 10 number = first :: others ∧ first.isDigit = true ∧
      (number ≠ 0 → first ≠ '0') := by
  induction number using Nat.strongRecOn with
  | ind number ih =>
      rcases Nat.lt_or_ge number 10 with small | large
      · refine ⟨number.digitChar, [], Nat.toDigits_of_lt_base small, ?_, ?_⟩
        · rw [Nat.isDigit_digitChar, decide_eq_true small]
        · exact fun positive zero => positive (Nat.digitChar_eq_zero.mp zero)
      · -- The first digit is that of a tenth of the number.
        obtain ⟨first, others, same, digit, nonzero⟩ := ih (number / 10) (by omega)
        refine ⟨first, others ++ [(number % 10).digitChar], ?_, digit, fun _ => nonzero (by omega)⟩
        rw [Nat.toDigits_of_base_le (by decide) large, same, List.cons_append]

/-- A digit is no other character. -/
theorem ne_of_isDigit {digit other : Char} (isDigit : digit.isDigit = true)
    (differs : other.isDigit = false) : digit ≠ other := by
  rintro rfl
  exact Bool.false_ne_true (differs.symm.trans isDigit)

/-- The digits of a natural number are such as stand before a point. -/
theorem isWhole_toDigits (number : Nat) : IsWhole (Nat.toDigits 10 number) := by
  refine ⟨⟨Nat.toDigits_ne_nil, isDigit_toDigits number⟩, fun zero => ?_⟩
  obtain ⟨first, others, same, -, nonzero⟩ := exists_toDigits_eq_cons number
  rw [same, List.head?_cons, Option.some.injEq] at zero
  have none : number = 0 := Decidable.byContradiction fun positive => nonzero positive zero
  rw [none, Nat.toDigits_zero]

theorem exists_digitChar_eq {digit : Char} (isDigit : digit.isDigit = true) :
    ∃ value < 10, digit = value.digitChar := by
  have bounds : 48 ≤ digit.toNat ∧ digit.toNat ≤ 57 := by
    simpa [Char.isDigit, UInt32.le_iff_toNat_le] using isDigit
  have table : ∀ value < 10, Nat.digitChar value = Char.ofNat (48 + value) := by decide
  refine ⟨digit.toNat - 48, by omega, ?_⟩
  rw [table _ (by omega), Nat.add_sub_cancel' bounds.1, Char.ofNat_toNat]

/-- Digits after a positive number are those of a greater one. -/
theorem toDigits_ofDigitChars {leading : Nat} (positive : 0 < leading) {digits : List Char}
    (run : ∀ c ∈ digits, c.isDigit = true) :
    Nat.toDigits 10 (Nat.ofDigitChars 10 digits leading) = Nat.toDigits 10 leading ++ digits := by
  induction digits generalizing leading with
  | nil => rw [Nat.ofDigitChars_nil, List.append_nil]
  | cons digit others ih =>
      obtain ⟨isDigit, runOthers⟩ := List.forall_mem_cons.mp run
      obtain ⟨value, small, rfl⟩ := exists_digitChar_eq isDigit
      rw [Nat.ofDigitChars_cons_digitChar_of_lt_ten small, ih (by omega) runOthers,
        ← Nat.toDigits_append_toDigits (by decide) positive small, Nat.toDigits_of_lt_base small,
        List.append_assoc, List.singleton_append]

/-- The digits before a point are the digits of the number that they denote. -/
theorem IsWhole.toDigits_digitsValue {digits : List Char} (whole : IsWhole digits) :
    Nat.toDigits 10 (Decimal.digitsValue digits) = digits := by
  cases digits with
  | nil => exact absurd rfl whole.filled
  | cons digit others =>
      obtain ⟨isDigit, run⟩ := List.forall_mem_cons.mp whole.run
      obtain ⟨value, small, rfl⟩ := exists_digitChar_eq isDigit
      rw [Decimal.digitsValue, ← Nat.ofDigitChars_eq_foldl,
        Nat.ofDigitChars_cons_digitChar_of_lt_ten small, Nat.mul_zero, Nat.zero_add]
      rcases Nat.eq_zero_or_pos value with rfl | positive
      · obtain rfl : others = [] := (List.cons.inj (whole.leading rfl)).2
        rfl
      · rw [toDigits_ofDigitChars positive run, Nat.toDigits_of_lt_base small,
          List.singleton_append]

/-! ## Numbers -/

/-- The text starts with the sign of a negative number, or without one. -/
inductive SpellsSign : Bool → List Char → List Char → Prop where
  | absent {rest : List Char} : SpellsSign false rest rest
  | minus {rest : List Char} : SpellsSign true ('-' :: rest) rest

/-- The text starts with a point and digits, if there are any. -/
inductive SpellsFraction : Option (List Char) → List Char → List Char → Prop where
  | absent {rest : List Char} : SpellsFraction none rest rest
  | point {digits rest : List Char} : IsDigits digits →
      SpellsFraction (some digits) ('.' :: (digits ++ rest)) rest

/-- The text starts with an exponent, if there is one. -/
inductive SpellsExponent : Option (Bool × List Char) → List Char → List Char → Prop where
  | absent {rest : List Char} : SpellsExponent none rest rest
  | unsigned {letter : Char} {digits rest : List Char} : letter = 'e' ∨ letter = 'E' →
      IsDigits digits → SpellsExponent (some (false, digits)) (letter :: (digits ++ rest)) rest
  | plus {letter : Char} {digits rest : List Char} : letter = 'e' ∨ letter = 'E' →
      IsDigits digits →
      SpellsExponent (some (false, digits)) (letter :: '+' :: (digits ++ rest)) rest
  | minus {letter : Char} {digits rest : List Char} : letter = 'e' ∨ letter = 'E' →
      IsDigits digits →
      SpellsExponent (some (true, digits)) (letter :: '-' :: (digits ++ rest)) rest

/-- The text starts with a number of these parts. -/
inductive SpellsNumeral (number : Numeral) : List Char → List Char → Prop where
  | parts {text afterWhole afterFraction rest : List Char} : IsWhole number.whole →
      SpellsSign number.negative text (number.whole ++ afterWhole) →
      SpellsFraction number.fraction afterWhole afterFraction →
      SpellsExponent number.exponent afterFraction rest → SpellsNumeral number text rest

theorem SpellsSign.eq_or_eq {negative : Bool} {text rest : List Char}
    (spells : SpellsSign negative text rest) : text = rest ∨ text = '-' :: rest := by
  cases spells with
  | absent => exact .inl rfl
  | minus => exact .inr rfl

/-- The digits of a natural number spell it. -/
theorem spellsNumeral_toDigits (number : Nat) (rest : List Char) :
    SpellsNumeral
      { negative := false, whole := Nat.toDigits 10 number, fraction := none, exponent := none }
      (Nat.toDigits 10 number ++ rest) rest :=
  .parts (isWhole_toDigits number) .absent .absent .absent

/-! ## Reading what is spelled -/

section Reading

variable {atEnd : Cause} {text rest digits : List Char} {fraction : Option (List Char)}
  {exponent : Option (Bool × List Char)} {number : Numeral}

theorem SpellsExponent.head_ne (spells : SpellsExponent exponent text rest)
    (ends : EndsNumeral rest) : ∀ c ∈ text.head?, c.isDigit = false ∧ c ≠ '.' := by
  have letters : ∀ letter, letter = 'e' ∨ letter = 'E' → letter.isDigit = false ∧ letter ≠ '.' := by
    rintro letter (rfl | rfl) <;> decide
  cases spells with
  | absent => exact fun c next => ⟨(ends c next).1, (ends c next).2.1⟩
  | unsigned letter | plus letter | minus letter =>
      intro c next
      cases next
      exact letters _ letter

theorem SpellsFraction.head_ne (spells : SpellsFraction fraction text rest)
    (stops : ∀ c ∈ rest.head?, c.isDigit = false) : ∀ c ∈ text.head?, c.isDigit = false := by
  cases spells with
  | absent => exact stops
  | point =>
      intro c next
      cases next
      rfl

/-- Digits stop where no digit follows. -/
theorem digitRun_append (atEnd : Cause) (isDigits : IsDigits digits)
    (stops : ∀ c ∈ rest.head?, c.isDigit = false) :
    digitRun atEnd (digits ++ rest) = .ok (digits, rest) := by
  cases digits with
  | nil => exact absurd rfl isDigits.filled
  | cons c more =>
      obtain ⟨first, others⟩ := List.forall_mem_cons.mp isDigits.run
      rw [List.cons_append, digitRun, if_pos first, List.takeWhile_append_of_pos others,
        List.dropWhile_append_of_pos others]
      cases rest with
      | nil => simp
      | cons next after =>
          have stop : ¬next.isDigit = true := by simp [stops next rfl]
          rw [List.takeWhile_cons_of_neg stop, List.dropWhile_cons_of_neg stop, List.append_nil]

/-- Digits start with a digit. -/
theorem IsDigits.append_ne_cons (isDigits : IsDigits digits) {other : Char}
    (differs : other.isDigit = false) (after : List Char) : digits ++ rest ≠ other :: after := by
  obtain ⟨first, others, rfl⟩ := List.exists_cons_of_ne_nil isDigits.filled
  intro starts
  exact ne_of_isDigit (isDigits.run first (.head _)) differs (List.cons.inj starts).1

theorem wholeDigits_append (atEnd : Cause) (whole : IsWhole digits)
    (stops : ∀ c ∈ rest.head?, c.isDigit = false) :
    wholeDigits atEnd (digits ++ rest) = .ok (digits, rest) := by
  by_cases zero : digits.head? = some '0'
  · rw [whole.leading zero]
    cases rest with
    | nil => rfl
    | cons next after => simp [wholeDigits, stops next rfl]
  · rw [wholeDigits]
    · exact digitRun_append atEnd whole.toIsDigits stops
    · intro after starts
      cases digits with
      | nil => exact whole.filled rfl
      | cons first others =>
          exact zero (congrArg some (List.cons.inj starts).1)

theorem SpellsFraction.fractionDigits_eq (spells : SpellsFraction fraction text rest)
    (atEnd : Cause) (stops : ∀ c ∈ rest.head?, c.isDigit = false ∧ c ≠ '.') :
    fractionDigits atEnd text = .ok (fraction, rest) := by
  cases spells with
  | absent =>
      rw [fractionDigits]
      rintro after rfl
      exact absurd rfl (stops '.' rfl).2
  | point isDigits =>
      rw [fractionDigits, digitRun_append atEnd isDigits fun c next => (stops c next).1]
      rfl

theorem SpellsExponent.exponentDigits_eq (spells : SpellsExponent exponent text rest)
    (atEnd : Cause) (ends : EndsNumeral rest) :
    exponentDigits atEnd text = .ok (exponent, rest) := by
  have stops : ∀ c ∈ rest.head?, c.isDigit = false := fun c next => (ends c next).1
  cases spells with
  | absent =>
      cases text with
      | nil => rfl
      | cons next after => simp [exponentDigits, (ends next rfl).2.2]
  | unsigned letter isDigits =>
      rw [exponentDigits, if_pos letter]
      · rw [digitRun_append atEnd isDigits stops]
        rfl
      all_goals exact isDigits.append_ne_cons (by decide)
  | plus letter isDigits | minus letter isDigits =>
      rw [exponentDigits, if_pos letter]
      simp [digitRun_append atEnd isDigits stops, Except.map]

/-- A number is read as its parts if it does not go on. -/
theorem SpellsNumeral.numeral_eq (spells : SpellsNumeral number text rest) (atEnd : Cause)
    (ends : EndsNumeral rest) : numeral atEnd text = .ok (number, rest) := by
  cases spells with
  | parts whole sign fraction exponent =>
      have stops := exponent.head_ne ends
      have wholeRead := wholeDigits_append atEnd whole
        (fraction.head_ne fun c next => (stops c next).1)
      have fractionRead := fraction.fractionDigits_eq atEnd stops
      have exponentRead := exponent.exponentDigits_eq atEnd ends
      rcases number with ⟨negative, digits, point, power⟩
      cases sign with
      | absent =>
          rw [numeral]
          · simp [wholeRead, fractionRead, exponentRead, bind, Except.bind]
          · exact whole.append_ne_cons (by decide)
      | minus => simp [numeral, wholeRead, fractionRead, exponentRead, bind, Except.bind]

/-- The digits of a number are read as the number. -/
theorem numeral_toDigits (atEnd : Cause) (number : Nat) (ends : EndsNumeral rest) :
    numeral atEnd (Nat.toDigits 10 number ++ rest) =
      .ok ({ negative := false, whole := Nat.toDigits 10 number, fraction := none,
             exponent := none }, rest) :=
  (spellsNumeral_toDigits number rest).numeral_eq atEnd ends

/-! ## Spelling what is read -/

theorem of_digitRun_eq_ok {atEnd : Cause} (read : digitRun atEnd text = .ok (digits, rest)) :
    IsDigits digits ∧ text = digits ++ rest := by
  unfold digitRun at read
  split at read
  · exact absurd read fail_ne_ok
  · split at read
    · rename_i first after digit
      cases read
      refine ⟨⟨List.cons_ne_nil _ _, List.forall_mem_cons.mpr ⟨digit, ?_⟩⟩, ?_⟩
      · exact List.all_eq_true.mp List.all_takeWhile
      · rw [List.cons_append, List.takeWhile_append_dropWhile]
    · exact absurd read fail_ne_ok

theorem of_wholeDigits_eq_ok (read : wholeDigits atEnd text = .ok (digits, rest)) :
    IsWhole digits ∧ text = digits ++ rest := by
  have zero : IsWhole ['0'] := isWhole_toDigits 0
  unfold wholeDigits at read
  split at read
  · split at read
    · split at read
      · exact absurd read fail_ne_ok
      · cases read
        exact ⟨zero, rfl⟩
    · cases read
      exact ⟨zero, rfl⟩
  · rename_i other
    obtain ⟨isDigits, rfl⟩ := of_digitRun_eq_ok read
    refine ⟨⟨isDigits, fun starts => ?_⟩, rfl⟩
    cases digits with
    | nil => exact absurd rfl isDigits.filled
    | cons first others =>
        cases starts
        exact absurd rfl (other _)

theorem spellsFraction_of_read (read : fractionDigits atEnd text = .ok (fraction, rest)) :
    SpellsFraction fraction text rest := by
  unfold fractionDigits at read
  split at read
  · obtain ⟨⟨digits, after⟩, run, same⟩ := exists_of_map_eq_ok read
    obtain ⟨isDigits, rfl⟩ := of_digitRun_eq_ok run
    cases same
    exact .point isDigits
  · cases read
    exact .absent

theorem spellsExponent_of_read (read : exponentDigits atEnd text = .ok (exponent, rest)) :
    SpellsExponent exponent text rest := by
  unfold exponentDigits at read
  split at read
  · split at read
    · rename_i letter
      split at read
      rename_i sign
      obtain ⟨⟨digits, after⟩, run, same⟩ := exists_of_map_eq_ok read
      obtain ⟨isDigits, rfl⟩ := of_digitRun_eq_ok run
      cases same
      split at sign
      · cases sign
        exact .minus letter isDigits
      · cases sign
        exact .plus letter isDigits
      · cases sign
        exact .unsigned letter isDigits
    · cases read
      exact .absent
  · cases read
    exact .absent

/-- What is read as a number is a number of these parts. -/
theorem spellsNumeral_of_read (read : numeral atEnd text = .ok (number, rest)) :
    SpellsNumeral number text rest := by
  unfold numeral at read
  split at read
  rename_i negative unsigned sign
  obtain ⟨⟨whole, afterWhole⟩, wholeRead, read⟩ := exists_of_bind_eq_ok read
  obtain ⟨⟨fraction, afterFraction⟩, fractionRead, read⟩ := exists_of_bind_eq_ok read
  obtain ⟨⟨exponent, afterExponent⟩, exponentRead, read⟩ := exists_of_bind_eq_ok read
  cases read
  obtain ⟨isWhole, rfl⟩ := of_wholeDigits_eq_ok wholeRead
  refine .parts isWhole ?_ (spellsFraction_of_read fractionRead)
    (spellsExponent_of_read exponentRead)
  split at sign
  · cases sign
    exact .minus
  · cases sign
    exact .absent

end Reading

end RecencyCache.Json
