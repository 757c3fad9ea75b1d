import RecencyCache.Proofs.Json.Spelling
import Mathlib.Data.List.Nodup

/-!
# Layouts of records in JSON

A record may be written as an object, whose members come in any order, or as an array, whose
elements come in the order of the fields. Blanks may stand around each part. The relations below say
which texts start with such a layout of given values. Each array of this kind is read as its values;
that objects are, follows from what is known of objects with any members.
-/

namespace RecencyCache.Json

/-! ## Objects -/

/-- What separates an item from the one before it stands before the rest of the text: a comma,
unless the item comes first. -/
inductive Separates : Bool → List Char → List Char → Prop where
  | first {text rest : List Char} : Gap text rest → Separates true text rest
  | next {text later rest : List Char} : Gap text (',' :: later) → Gap later rest →
      Separates false text rest

/-- The text starts with the members up to the closing brace. -/
inductive SpellsMembers : Bool → Members → List Char → List Char → Prop where
  | close {first : Bool} {text rest : List Char} : Gap text ('}' :: rest) →
      SpellsMembers first [] text rest
  | member {first : Bool} {name : String} {value : Scalar} {members : Members}
      {text named afterName afterColon valued later rest : List Char} :
      Separates first text named → SpellsString name named afterName →
      Gap afterName (':' :: afterColon) → Gap afterColon valued →
      SpellsScalar value valued later → SpellsMembers false members later rest →
      SpellsMembers first ((name, value) :: members) text rest

/-- The member belongs to one of the fields, which may have its value. -/
def Fits (fields : List Field) (member : String × Scalar) : Prop :=
  ∃ field, fields.find? (·.name == member.1) = some field ∧ field.type.Admits member.2

/-- No number goes on where the next item is separated. -/
theorem Separates.endsNumeral {text rest : List Char} (separates : Separates false text rest) :
    EndsNumeral text := by
  cases separates with
  | next gap => exact gap.endsNumeral (by simp [EndsNumeral])

theorem startMember_of_closed {first : Bool} {text rest : List Char}
    (gap : Gap text ('}' :: rest)) :
    startMember first text = .ok (true, rest) := by
  rw [startMember, gap.skipBlanks_eq (by decide)]
  rfl

theorem startMember_of_quote {first : Bool} {text rest : List Char}
    (separates : Separates first text ('"' :: rest)) :
    startMember first text = .ok (false, rest) := by
  cases separates with
  | first gap =>
      rw [startMember, gap.skipBlanks_eq (by decide)]
      simp
  | next comma gap =>
      rw [startMember, comma.skipBlanks_eq (by decide)]
      simp [gap.skipBlanks_eq (show isBlank '"' = false by decide)]

theorem expectColon_of_gap {text rest : List Char} (gap : Gap text (':' :: rest)) :
    expectColon text = .ok rest := by
  rw [expectColon, gap.skipBlanks_eq (by decide)]
  rfl

theorem readMembers_of_closed {fields : List Field} {before : Members} {first : Bool}
    {text rest : List Char} (closed : startMember first text = .ok (true, rest)) :
    readMembers fields before first text = .ok (before, rest) := by
  rw [readMembers]
  split
  all_goals simp_all

theorem readMembers_of_member {fields : List Field} {before after : Members} {first : Bool}
    {name : String} {text named afterName rest : List Char}
    (starts : startMember first text = .ok (false, named))
    (nameRead : content named = .ok (name, afterName))
    (memberRead : readMember fields name before afterName = .ok (after, rest)) :
    readMembers fields before first text = readMembers fields after false rest := by
  rw [readMembers]
  split
  · simp_all
  · simp_all
  · rename_i _ startsAlso
    cases starts.symm.trans startsAlso
    split
    · simp_all
    · rename_i _ _ nameAlso
      cases nameRead.symm.trans nameAlso
      split
      · simp_all
      · rename_i _ _ memberAlso
        cases memberRead.symm.trans memberAlso
        rfl

/-! ## Arrays -/

/-- The text starts with the elements up to the closing bracket. -/
inductive SpellsElements : Bool → List Scalar → List Char → List Char → Prop where
  | close {first : Bool} {text rest : List Char} : Gap text (']' :: rest) →
      SpellsElements first [] text rest
  | element {first : Bool} {value : Scalar} {values : List Scalar}
      {text valued later rest : List Char} : Separates first text valued →
      SpellsScalar value valued later → SpellsElements false values later rest →
      SpellsElements first (value :: values) text rest

/-- The values are those of the first fields, and the others may be left out. -/
inductive Fills : List Field → List Scalar → Prop where
  | close {fields : List Field} : (∀ field ∈ fields, field.type.isOptional = true) → Fills fields []
  | element {field : Field} {value : Scalar} {fields : List Field} {values : List Scalar} :
      field.type.Admits value → Fills fields values → Fills (field :: fields) (value :: values)

theorem FieldType.Admits.isOptional {type : FieldType} (admits : type.Admits .absent) :
    type.isOptional = true := by
  cases admits
  rfl

theorem isOptional_of_absent {fields : List Field} {omitted : List Scalar}
    (accept : List.Forall₂ (fun field value => field.type.Admits value) fields omitted)
    (absent : ∀ value ∈ omitted, value = .absent) :
    ∀ field ∈ fields, field.type.isOptional = true := by
  induction accept with
  | nil => exact List.forall_mem_nil _
  | @cons field value fields omitted admits _ ih =>
      obtain ⟨rfl, absentOthers⟩ := List.forall_mem_cons.mp absent
      exact List.forall_mem_cons.mpr ⟨admits.isOptional, ih absentOthers⟩

/-- If the values of all fields are known and absent ones are left out at the end, the others are
those of the first fields. -/
theorem fills_of_append {fields : List Field} {values omitted : List Scalar}
    (accept : List.Forall₂ (fun field value => field.type.Admits value) fields (values ++ omitted))
    (absent : ∀ value ∈ omitted, value = .absent) : Fills fields values := by
  induction values generalizing fields with
  | nil => exact .close (isOptional_of_absent accept absent)
  | cons value values ih =>
      cases accept with
      | cons admits others => exact .element admits (ih others)

theorem SpellsElements.endsNumeral {values : List Scalar} {text rest : List Char}
    (spells : SpellsElements false values text rest) : EndsNumeral text := by
  cases spells with
  | close gap => exact gap.endsNumeral (by simp [EndsNumeral])
  | element separates => exact separates.endsNumeral

theorem startElement_of_closed {first : Bool} {text rest : List Char}
    (gap : Gap text (']' :: rest)) : startElement first text = .ok (true, ']' :: rest) := by
  rw [startElement, gap.skipBlanks_eq (by decide)]
  rfl

theorem startElement_of_scalar {first : Bool} {value : Scalar} {text valued later : List Char}
    (separates : Separates first text valued) (spells : SpellsScalar value valued later) :
    startElement first text = .ok (false, valued) := by
  obtain ⟨c, others, rfl, filled, inside⟩ := spells.exists_eq_cons
  cases separates with
  | first gap =>
      rw [startElement, gap.skipBlanks_eq filled]
      simp
  | next comma gap =>
      rw [startElement, comma.skipBlanks_eq (by decide)]
      simp [gap.skipBlanks_eq filled, inside]

theorem endElements_of_closed {text rest : List Char} (gap : Gap text (']' :: rest)) :
    endElements text = .ok rest := by
  rw [endElements, gap.skipBlanks_eq (by decide)]
  rfl

/-- The elements are read as the values of the fields that they stand for. -/
theorem SpellsElements.readElements_eq {first : Bool} {values : List Scalar}
    {text rest : List Char} (spells : SpellsElements first values text rest) {fields : List Field}
    (fills : Fills fields values) :
    readElements first fields text = .ok ((fields.map (·.name)).zip values, rest) := by
  induction spells generalizing fields with
  | close gap =>
      cases fills with
      | close optional =>
          cases fields with
          | nil => simp [readElements, endElements_of_closed gap, bind, Except.bind]
          | cons field fields =>
              simp [readElements, startElement_of_closed gap, endElements_of_closed (.refl _),
                bind, Except.bind, List.all_eq_true.mpr optional]
  | element separates spelled others ih =>
      cases fills with
      | element admits fillsOthers =>
          simp [readElements, startElement_of_scalar separates spelled, ih fillsOthers,
            FieldType.read_of_spells (.refl _) admits spelled others.endsNumeral, bind,
            Except.bind]

/-! ## Records -/

namespace Record

variable {α : Type} {record : Record α} {value : α} {text inner rest : List Char}

/-- An array is read as the record of the members that its elements stand for. -/
theorem readStart_of_array {values : List Scalar} (gap : Gap text ('[' :: inner))
    (spells : SpellsElements true values inner rest) (fills : Fills record.fields values)
    (made : record.make ((record.fields.map (·.name)).zip values) = .ok value) :
    record.readStart text = .ok (value, rest) := by
  simp [readStart, readFields, gap.skipBlanks_eq (by decide), spells.readElements_eq fills, made,
    bind, Except.bind]

end Record

end RecencyCache.Json
