import RecencyCache.Proofs.Json.Grammar

/-!
# Members of objects

An outline of an object tells its members by name, in their order, and of each value either which
scalar it is or nothing. A record is read from an object of this outline if and only if its fields
are given in it at most once each and rightly. What else the object contains makes no difference.
-/

namespace RecencyCache.Json

/-! ## Objects -/

/-- The members of an object by name, with what is known of their values. -/
abbrev Outline := List (String × Option Scalar)

/-- The text starts with a value of which this is known. -/
inductive SpansItem : Option Scalar → List Char → List Char → Prop where
  | scalar {value : Scalar} {text rest : List Char} : SpellsScalar value text rest →
      SpansItem (some value) text rest
  | any {text rest : List Char} : Spans .value text rest → SpansItem none text rest

/-- The text starts with the members up to the closing brace. -/
inductive SpansMembers : Bool → Outline → List Char → List Char → Prop where
  | close {first : Bool} {text rest : List Char} : Gap text ('}' :: rest) →
      SpansMembers first [] text rest
  | member {first : Bool} {name : String} {item : Option Scalar} {members : Outline}
      {text named afterName afterColon valued later rest : List Char} :
      Separates first text named → SpellsString name named afterName →
      Gap afterName (':' :: afterColon) → Gap afterColon valued → SpansItem item valued later →
      SpansMembers false members later rest → SpansMembers first ((name, item) :: members) text rest

/-- The text is an object of these members, blanks around it apart. -/
inductive IsObject (members : Outline) (text : List Char) : Prop where
  | braces {inner rest : List Char} : Gap text ('{' :: inner) →
      SpansMembers true members inner rest → Gap rest [] → IsObject members text

section Objects

variable {first : Bool} {members : Outline} {item : Option Scalar} {text rest : List Char}

theorem SpellsScalar.spans {value : Scalar} (spells : SpellsScalar value text rest) :
    Spans .value text rest := by
  cases spells with
  | text quoted =>
      cases quoted with
      | quoted content => exact .scalar (.string content.spans)
  | natural number => exact .scalar (.number (spellsNumeral_toDigits number rest))
  | absent =>
      have listed : ['n', 'u', 'l', 'l'] ∈ words := by decide
      exact .scalar (.word listed)

theorem SpansItem.spans (spans : SpansItem item text rest) : Spans .value text rest := by
  cases spans with
  | scalar spells => exact spells.spans
  | any spans => exact spans

/-- The members make up an object of the grammar. -/
theorem SpansMembers.spans (spans : SpansMembers first members text rest) :
    Spans (.items .curly first) text rest := by
  induction spans with
  | close gap => exact .close gap
  | member separates quoted colon gap item _ ih =>
      cases quoted with
      | quoted content => exact .item separates (.curly content.spans colon) gap item.spans ih

/-- An object is a value of the grammar, blanks around it apart. -/
theorem IsObject.exists_spans (object : IsObject members text) :
    ∃ start rest, Gap text start ∧ Spans .value start rest ∧ Gap rest [] := by
  cases object with
  | braces gap spans ends =>
      have value : Spans .value (Bracket.curly.opening :: _) _ := .bracket spans.spans
      exact ⟨_, _, gap, value, ends⟩

theorem SpansMembers.endsNumeral (spans : SpansMembers false members text rest) :
    EndsNumeral text :=
  spans.spans.endsNumeral

end Objects

/-! ## Fields -/

namespace Outline

/-- The values under a name, in the order of the members. -/
def values (members : Outline) (name : String) : List (Option Scalar) :=
  (members.filter (·.1 == name)).map (·.2)

variable {name other : String} {item : Option Scalar} {members : Outline}

@[simp] theorem values_nil (name : String) : values [] name = [] := rfl

@[simp] theorem values_cons_self (name : String) (item : Option Scalar) (members : Outline) :
    values ((name, item) :: members) name = item :: members.values name := by
  simp [values]

theorem values_cons_of_ne (differs : other ≠ name) (item : Option Scalar) (members : Outline) :
    values ((other, item) :: members) name = members.values name := by
  simp [values, differs]

/-- The values under a name are those among the members of a kind that the name belongs to. -/
theorem values_filter {kind : String → Bool} (belongs : kind name = true) (members : Outline) :
    values (members.filter (kind ·.1)) name = members.values name := by
  rw [values, List.filter_filter, values]
  congr 2
  funext member
  by_cases same : member.1 = name
  · simp [same, belongs]
  · simp [same]

theorem perm_values {others : Outline} (perm : members.Perm others) (name : String) :
    (members.values name).Perm (others.values name) :=
  (perm.filter _).map _

end Outline

/-- Reading a member after the earlier ones comes to these: a member that is no field is skipped, and
one that is a field is taken if it is the first of its name and the field may have its value. -/
inductive Takes (fields : List Field) (before : Members) (name : String) :
    Option Scalar → Members → Prop where
  | skip {item : Option Scalar} : fields.find? (·.name == name) = none →
      Takes fields before name item before
  | take {field : Field} {value : Scalar} : fields.find? (·.name == name) = some field →
      before.lookup name = none → field.type.Admits value →
      Takes fields before name (some value) (before ++ [(name, value)])

/-- Reading the members after the earlier ones comes to these. -/
inductive Collects (fields : List Field) : Members → Outline → Members → Prop where
  | nil (before : Members) : Collects fields before [] before
  | cons {before between after : Members} {name : String} {item : Option Scalar}
      {members : Outline} : Takes fields before name item between →
      Collects fields between members after → Collects fields before ((name, item) :: members) after

section Collecting

variable {fields : List Field} {field : Field} {before after : Members} {members : Outline}
  {name : String}

theorem lookup_append_singleton (before : Members) (name other : String) (value : Scalar) :
    (before ++ [(other, value)]).lookup name =
      (before.lookup name).or (if name = other then some value else none) := by
  rw [List.lookup_append, List.lookup_cons, List.lookup_nil]
  by_cases same : name = other
  · simp [same]
  · simp [same, beq_eq_false_iff_ne.mpr same]

/-- What is collected under the name of a field is what the members have there, which is one value
at most. -/
theorem Collects.exists_found (collects : Collects fields before members after)
    (known : fields.find? (·.name == name) = some field) :
    ∃ found : Option Scalar, after.lookup name = (before.lookup name).or found ∧
      members.values name = found.toList.map some ∧ (∀ value ∈ found, field.type.Admits value) ∧
      (found.isSome = true → before.lookup name = none) := by
  induction collects with
  | nil before => exact ⟨none, by simp⟩
  | @cons before between after other item members takes _ ih =>
      obtain ⟨found, collected, given, admitted, once⟩ := ih
      by_cases same : name = other
      · subst same
        cases takes with
        | skip unknown => cases unknown.symm.trans known
        | @take ofName value knownAlso fresh admits =>
            obtain rfl : ofName = field := Option.some.inj (knownAlso.symm.trans known)
            rw [lookup_append_singleton, fresh, if_pos rfl] at collected once
            -- Nothing more is found under the name, as something stands there now.
            obtain rfl : found = none := by
              cases found with
              | none => rfl
              | some later => simp at once
            refine ⟨some value, ?_, ?_, ?_, fun _ => fresh⟩
            · rw [collected, fresh]
              rfl
            · simpa using given
            · simpa using admits
      · have kept : between.lookup name = before.lookup name := by
          cases takes with
          | skip => rfl
          | take => rw [lookup_append_singleton, if_neg same, Option.or_none]
        rw [kept] at collected once
        rw [Outline.values_cons_of_ne (Ne.symm same)]
        exact ⟨found, collected, given, admitted, once⟩

/-- Each field is given at most once, counting the earlier members, and as a value that it may
have. -/
def Offers (fields : List Field) (before : Members) (members : Outline) : Prop :=
  ∀ name field, fields.find? (·.name == name) = some field →
    ∃ found : Option Scalar, members.values name = found.toList.map some ∧
      (∀ value ∈ found, field.type.Admits value) ∧
      (found.isSome = true → before.lookup name = none)

/-- What is offered can be collected. -/
theorem Offers.exists_collects (offers : Offers fields before members) :
    ∃ after, Collects fields before members after := by
  induction members generalizing before with
  | nil => exact ⟨before, .nil before⟩
  | cons member members ih =>
      obtain ⟨name, item⟩ := member
      cases known : fields.find? (·.name == name) with
      | none =>
          have later : Offers fields before members := by
            intro other field knownOther
            have differs : name ≠ other := by
              rintro rfl
              cases known.symm.trans knownOther
            rw [← Outline.values_cons_of_ne differs item]
            exact offers other field knownOther
          obtain ⟨after, collects⟩ := ih later
          exact ⟨after, .cons (.skip known) collects⟩
      | some field =>
          obtain ⟨found, given, admitted, fresh⟩ := offers name field known
          rw [Outline.values_cons_self] at given
          cases found with
          | none => cases given
          | some value =>
              obtain ⟨rfl, others⟩ := List.cons.inj given
              have later : Offers fields (before ++ [(name, value)]) members := by
                intro other ofOther knownOther
                rw [lookup_append_singleton]
                by_cases same : other = name
                · -- Nothing more is given under the name that has been taken.
                  subst same
                  exact ⟨none, others, by simp, by simp⟩
                · rw [if_neg same, Option.or_none,
                    ← Outline.values_cons_of_ne (Ne.symm same) (some value)]
                  exact offers other ofOther knownOther
              obtain ⟨after, collects⟩ := ih later
              exact ⟨after, .cons (.take known (fresh rfl) (admitted value rfl)) collects⟩

end Collecting

/-! ## Reading -/

section Reading

variable {fields : List Field} {before after : Members} {members : Outline} {first : Bool}
  {name : String} {text rest : List Char}

/-- A member is read as what is taken of it. -/
theorem Takes.readMember_eq {item : Option Scalar} {afterColon valued : List Char}
    (takes : Takes fields before name item after) (colon : Gap text (':' :: afterColon))
    (gap : Gap afterColon valued) (spans : SpansItem item valued rest) (ends : EndsNumeral rest) :
    readMember fields name before text = .ok (after, rest) := by
  have colonRead := expectColon_of_gap colon
  rw [readMember]
  cases takes with
  | skip unknown =>
      have skipped := spans.spans.skipValue_eq gap ends
      simp [unknown, colonRead, skipped, bind, Except.bind]
  | take known fresh admits =>
      cases spans with
      | scalar spelled =>
          have valueRead := FieldType.read_of_spells gap admits spelled ends
          simp [known, fresh, colonRead, valueRead, bind, Except.bind]

/-- The members are read as what is collected of them. -/
theorem SpansMembers.readMembers_eq (spans : SpansMembers first members text rest)
    (collects : Collects fields before members after) :
    readMembers fields before first text = .ok (after, rest) := by
  induction spans generalizing before with
  | close gap =>
      cases collects
      exact readMembers_of_closed (startMember_of_closed gap)
  | member separates quoted colon gap item others ih =>
      cases quoted with
      | quoted content =>
          cases collects with
          | cons takes collects =>
              have read := takes.readMember_eq colon gap item others.endsNumeral
              rw [readMembers_of_member (startMember_of_quote separates) content.content_eq read]
              exact ih collects

theorem gap_of_startMember (read : startMember first text = .ok (true, rest)) :
    Gap text ('}' :: rest) := by
  unfold startMember at read
  split at read
  · exact absurd read fail_ne_ok
  · rename_i found
    cases read
    exact gap_of_skipBlanks_eq found
  · split at read
    · split at read
      · cases read
      · exact absurd read fail_ne_ok
    · split at read
      · split at read
        · exact absurd read fail_ne_ok
        · cases read
        · exact absurd read fail_ne_ok
        · exact absurd read fail_ne_ok
      · exact absurd read fail_ne_ok

theorem separates_of_startMember (read : startMember first text = .ok (false, rest)) :
    Separates first text ('"' :: rest) := by
  unfold startMember at read
  split at read
  · exact absurd read fail_ne_ok
  · cases read
  · rename_i found
    have gap := gap_of_skipBlanks_eq found
    split at read
    · rename_i isFirst
      split at read
      · rename_i quote
        cases read
        rw [isFirst, ← quote]
        exact .first gap
      · exact absurd read fail_ne_ok
    · rename_i isNext
      rw [Bool.not_eq_true] at isNext
      split at read
      · rename_i comma
        split at read
        · exact absurd read fail_ne_ok
        · rename_i foundQuote
          cases read
          rw [isNext]
          exact .next (comma ▸ gap) (gap_of_skipBlanks_eq foundQuote)
        · exact absurd read fail_ne_ok
        · exact absurd read fail_ne_ok
      · exact absurd read fail_ne_ok

theorem gap_of_expectColon (read : expectColon text = .ok rest) : Gap text (':' :: rest) := by
  unfold expectColon at read
  split at read
  · rename_i found
    cases read
    exact gap_of_skipBlanks_eq found
  · exact absurd read fail_ne_ok
  · exact absurd read fail_ne_ok

/-- What is read of a member is what is taken of it. -/
theorem exists_takes_of_read (unsigned : ∀ field ∈ fields, field.type.Unsigned)
    (read : readMember fields name before text = .ok (after, rest)) :
    ∃ item afterColon valued, Gap text (':' :: afterColon) ∧ Gap afterColon valued ∧
      SpansItem item valued rest ∧ Takes fields before name item after := by
  unfold readMember at read
  split at read
  · rename_i unknown
    obtain ⟨afterColon, colon, read⟩ := exists_of_bind_eq_ok read
    obtain ⟨afterValue, skipped, read⟩ := exists_of_bind_eq_ok read
    cases read
    obtain ⟨valued, gap, spans⟩ := exists_spans_of_skipValue skipped
    exact ⟨none, afterColon, valued, gap_of_expectColon colon, gap, .any spans, .skip unknown⟩
  · rename_i field known
    split at read
    · exact absurd read fail_ne_ok
    · rename_i missing
      have fresh : before.lookup name = none := Option.not_isSome_iff_eq_none.mp missing
      obtain ⟨afterColon, colon, read⟩ := exists_of_bind_eq_ok read
      obtain ⟨⟨value, afterValue⟩, valueRead, read⟩ := exists_of_bind_eq_ok read
      cases read
      obtain ⟨valued, gap, admits, spells⟩ :=
        FieldType.spells_of_read (unsigned field (List.mem_of_find?_eq_some known)) valueRead
      exact ⟨some value, afterColon, valued, gap_of_expectColon colon, gap, .scalar spells,
        .take known fresh admits⟩

/-- What is read as members are members, and what is collected of them is what was read. -/
theorem exists_spansMembers_of_read (unsigned : ∀ field ∈ fields, field.type.Unsigned)
    (read : readMembers fields before first text = .ok (after, rest)) :
    ∃ members, SpansMembers first members text rest ∧ Collects fields before members after := by
  fun_induction readMembers fields before first text with
  | case1 => cases read
  | case2 before first text closing starts =>
      cases read
      exact ⟨[], .close (gap_of_startMember starts), .nil _⟩
  | case3 => cases read
  | case4 => cases read
  | case5 before first text afterStart starts name afterName nameRead next afterMember memberRead
      ih =>
      obtain ⟨members, spans, collects⟩ := ih read
      obtain ⟨item, afterColon, valued, colon, gap, spanned, takes⟩ :=
        exists_takes_of_read unsigned memberRead
      exact ⟨(name, item) :: members,
        .member (separates_of_startMember starts) (.quoted (spellsContent_of_read nameRead)) colon
          gap spanned spans,
        .cons takes collects⟩

end Reading

/-! ## Objects of nothing but fields -/

section Layout

variable {fields : List Field} {first : Bool} {members : Members} {text rest : List Char}

/-- The members of which all is known. -/
def Members.outline (members : Members) : Outline :=
  members.map fun member => (member.1, some member.2)

theorem SpellsMembers.spans (spells : SpellsMembers first members text rest) :
    SpansMembers first members.outline text rest := by
  induction spells with
  | close gap => exact .close gap
  | member separates quoted colon gap spelled _ ih =>
      exact .member separates quoted colon gap (.scalar spelled) ih

theorem lookup_eq_none_of_fresh {before members : Members} {name : String} {value : Scalar}
    (distinct : ((before ++ (name, value) :: members).map (·.1)).Nodup) :
    before.lookup name = none := by
  rw [List.map_append, List.map_cons, List.nodup_middle] at distinct
  have fresh : name ∉ before.map (·.1) := fun member =>
    (List.nodup_cons.mp distinct).1 (List.mem_append_left _ member)
  rw [List.lookup_eq_none_iff]
  intro member stored
  rw [bne_iff_ne]
  rintro rfl
  exact fresh (List.mem_map_of_mem stored)

/-- Members of different fields are all collected. -/
theorem collects_outline (before : Members) (distinct : ((before ++ members).map (·.1)).Nodup)
    (fit : ∀ member ∈ members, Fits fields member) :
    Collects fields before members.outline (before ++ members) := by
  induction members generalizing before with
  | nil =>
      rw [List.append_nil]
      exact .nil before
  | cons member others ih =>
      obtain ⟨name, value⟩ := member
      obtain ⟨⟨field, known, admits⟩, fitOthers⟩ := List.forall_mem_cons.mp fit
      refine .cons (.take known (lookup_eq_none_of_fresh distinct) admits) ?_
      have collects := ih (before ++ [(name, value)]) (by simpa using distinct) fitOthers
      rwa [List.append_assoc, List.singleton_append] at collects

end Layout

/-! ## Writing -/

/-- The compact text of a scalar. -/
def Scalar.render : Scalar → List Char
  | .text string => (quoted string).toList
  | .integer (.ofNat number) => Nat.toDigits 10 number
  | .integer (.negSucc number) => '-' :: Nat.toDigits 10 (number + 1)
  | .absent => ['n', 'u', 'l', 'l']

/-- The compact text of members up to the closing brace. -/
def Members.renderItems (first : Bool) : Members → List Char
  | [] => ['}']
  | (name, value) :: members =>
      let separator := if first then [] else [',']
      separator ++ (quoted name).toList ++ ':' :: (value.render ++ renderItems false members)

/-- The compact text of an object. -/
def Members.render (members : Members) : List Char := '{' :: members.renderItems true

theorem spellsScalar_render {type : FieldType} {value : Scalar} (unsigned : type.Unsigned)
    (admits : type.Admits value) (rest : List Char) :
    SpellsScalar value (value.render ++ rest) rest := by
  have natural (number : Int) (least : 0 ≤ number) :
      SpellsScalar (.integer number) ((Scalar.integer number).render ++ rest) rest := by
    obtain ⟨magnitude, rfl⟩ := Int.eq_ofNat_of_zero_le least
    exact .natural magnitude
  cases admits with
  | text string => exact .text (spellsString_quoted string rest)
  | integer least _ | optionalInteger least _ => exact natural _ (Int.le_trans unsigned least)
  | absent => exact .absent

/-- Members that fit fields are written as one of their spellings. -/
theorem spellsMembers_render {fields : List Field} {members : Members} (first : Bool)
    (unsigned : ∀ field ∈ fields, field.type.Unsigned)
    (fit : ∀ member ∈ members, Fits fields member) :
    SpellsMembers first members (members.renderItems first) [] := by
  induction members generalizing first with
  | nil => exact .close (.refl _)
  | cons member members ih =>
      obtain ⟨name, value⟩ := member
      obtain ⟨⟨field, known, admits⟩, fitOthers⟩ := List.forall_mem_cons.mp fit
      have unsignedField := unsigned field (List.mem_of_find?_eq_some known)
      have separates (rest : List Char) :
          Separates first ((if first then [] else [',']) ++ rest) rest := by
        cases first with
        | false => exact .next (.refl _) (.refl _)
        | true => exact .first (.refl _)
      rw [Members.renderItems, List.append_assoc]
      exact .member (separates _) (spellsString_quoted name _) (.refl _) (.refl _)
        (spellsScalar_render unsignedField admits _) (ih false fitOthers)

/-! ## Records -/

namespace Record

variable {α : Type} {record : Record α} {value : α} {collected : Members} {members : Outline}
  {text inner rest : List Char}

/-- An object is read as the record of what is collected of its members. -/
theorem readStart_of_collects (gap : Gap text ('{' :: inner))
    (spans : SpansMembers true members inner rest)
    (collects : Collects record.fields [] members collected)
    (made : record.make collected = .ok value) : record.readStart text = .ok (value, rest) := by
  simp [readStart, readFields, gap.skipBlanks_eq (by decide), spans.readMembers_eq collects, made,
    bind, Except.bind]

/-- An object of nothing but fields is read as the record of its members. -/
theorem readStart_of_object {members : Members} (gap : Gap text ('\x7b' :: inner))
    (spells : SpellsMembers true members inner rest) (distinct : (members.map (·.1)).Nodup)
    (fit : ∀ member ∈ members, Fits record.fields member)
    (made : record.make members = .ok value) : record.readStart text = .ok (value, rest) :=
  readStart_of_collects gap spells.spans (collects_outline [] distinct fit) made

/-- A record is read from an object exactly if it can be made of what is collected of its
members. -/
theorem read_eq_ok_iff_of_object (unsigned : ∀ field ∈ record.fields, field.type.Unsigned)
    (opens : Gap text ('{' :: inner)) :
    record.read text = .ok value ↔ ∃ members, IsObject members text ∧
      ∃ collected, Collects record.fields [] members collected ∧
        record.make collected = .ok value := by
  constructor
  · intro read
    obtain ⟨⟨made, after⟩, start, read⟩ := exists_of_bind_eq_ok read
    obtain ⟨⟨collected, rest⟩, fieldsRead, start⟩ := exists_of_bind_eq_ok start
    rw [readFields, opens.skipBlanks_eq (by decide)] at fieldsRead
    obtain ⟨members, spans, collects⟩ := exists_spansMembers_of_read unsigned fieldsRead
    dsimp only at start read
    split at start
    · rename_i makes
      cases start
      split at read
      · rename_i ends
        cases read
        exact ⟨members, .braces opens spans (gap_of_skipBlanks_eq ends), collected, collects, makes⟩
      · exact absurd read fail_ne_ok
    · exact absurd start fail_ne_ok
  · rintro ⟨members, ⟨gap, spans, ends⟩, collected, collects, makes⟩
    rw [read, readStart_of_collects gap spans collects makes]
    simp [bind, Except.bind, ends.skipBlanks_eq_nil]

end Record

end RecencyCache.Json
