import RecencyCache.Proofs.Http.Bodies

/-!
# Decoding requests to store a value

A text that starts as an object is decoded if and only if it is an object in which the key and the
value are given once, as strings, and each of the two times at most once, as null or as a number
that fits a word. Nothing else about the text makes a difference: not the order of its members, not
the blanks, not how the strings are spelled, and not what other members there are. Within the values
of those even half of a surrogate pair may stand alone.
-/

namespace RecencyCache.Http.SetRequest

open Json (Gap Members Outline Scalar Collects IsObject)

/-! ## Outlines of requests -/

/-- The members give this number, or none, under the name: at most once, as null or as a number that
fits a word. -/
structure GivesNumber (members : Outline) (name : String) (number : Option Nat) : Prop where
  bounded : ∀ millis ∈ number, millis ≤ largestWord
  given : members.values name = [some (numberScalar number)] ∨
    number = none ∧ members.values name = []

/-- The members carry the request. -/
structure CarriedBy (request : SetRequest) (members : Outline) : Prop where
  key : members.values "key" = [some (.text request.key)]
  value : members.values "value" = [some (.text request.value)]
  lifetime : GivesNumber members "ttl_ms" request.lifetimeMillis
  survive : GivesNumber members "survive_ms" request.surviveMillis

/-- A field of the request has this name. -/
def isKnown (name : String) : Bool := record.fields.any (·.name == name)

variable {members others : Outline} {collected : Members} {request : SetRequest} {name : String}
  {field : Json.Field}

/-- The fields by name. -/
theorem field_cases (known : record.fields.find? (·.name == name) = some field) :
    (name = "key" ∨ name = "value") ∧ field.type = .text ∨
      (name = "ttl_ms" ∨ name = "survive_ms") ∧ field.type = .optionalInteger 0 largestWord := by
  have member := List.mem_of_find?_eq_some known
  have named := List.find?_some known
  obtain rfl := eq_of_beq named
  simp only [record, List.mem_cons, List.not_mem_nil, or_false] at member
  rcases member with rfl | rfl | rfl | rfl <;> simp

/-! ## What is collected -/

theorem lookup_of_values (collects : Collects record.fields [] members collected)
    (known : record.fields.find? (·.name == name) = some field) {value : Scalar}
    (given : members.values name = [some value]) : collected.lookup name = some value := by
  obtain ⟨found, same, listed, -, -⟩ := collects.exists_found known
  rw [given] at listed
  cases found with
  | none => cases listed
  | some other =>
      cases listed
      exact same

theorem values_of_lookup (collects : Collects record.fields [] members collected)
    (known : record.fields.find? (·.name == name) = some field) {value : Scalar}
    (stored : collected.lookup name = some value) : members.values name = [some value] := by
  obtain ⟨found, same, listed, -, -⟩ := collects.exists_found known
  obtain rfl : found = some value := same.symm.trans stored
  exact listed

theorem naturalMember_of_gives (collects : Collects record.fields [] members collected)
    (known : record.fields.find? (·.name == name) = some field) {number : Option Nat}
    (gives : GivesNumber members name number) : naturalMember collected name = number := by
  rcases gives.given with given | ⟨rfl, missing⟩
  · rw [naturalMember, lookup_of_values collects known given]
    cases number <;> rfl
  · obtain ⟨found, same, listed, -, -⟩ := collects.exists_found known
    rw [missing] at listed
    cases found with
    | none => rw [naturalMember, same]; rfl
    | some value => cases listed

theorem givesNumber_naturalMember (collects : Collects record.fields [] members collected)
    (known : record.fields.find? (·.name == name) = some field)
    (type : field.type = .optionalInteger 0 largestWord) :
    GivesNumber members name (naturalMember collected name) := by
  obtain ⟨found, same, listed, admitted, -⟩ := collects.exists_found known
  change collected.lookup name = found at same
  rw [naturalMember, same]
  cases found with
  | none => exact ⟨by simp, .inr ⟨rfl, listed⟩⟩
  | some value =>
      have admits := admitted value rfl
      rw [type] at admits
      cases admits with
      | @optionalInteger _ _ number least most =>
          obtain ⟨natural, rfl⟩ := Int.eq_ofNat_of_zero_le least
          exact ⟨by simpa using most, .inl listed⟩
      | absent => exact ⟨by simp, .inl listed⟩

theorem GivesNumber.exists_found {number : Option Nat} (gives : GivesNumber members name number) :
    ∃ found : Option Scalar, members.values name = found.toList.map some ∧
      ∀ value ∈ found, (Json.FieldType.optionalInteger 0 largestWord).Admits value := by
  rcases gives.given with given | ⟨-, missing⟩
  · refine ⟨some (numberScalar number), given, fun value same => ?_⟩
    obtain rfl := Option.some.inj same
    exact admits_numberScalar gives.bounded
  · exact ⟨none, missing, by simp⟩

/-- What the members carry is offered to the fields. -/
theorem CarriedBy.offers (carried : request.CarriedBy members) :
    Json.Offers record.fields [] members := by
  intro name field known
  rcases field_cases known with ⟨rfl | rfl, type⟩ | ⟨rfl | rfl, type⟩
  · exact ⟨some (.text request.key), carried.key, by simp [type, Json.FieldType.Admits.text],
      by simp⟩
  · exact ⟨some (.text request.value), carried.value, by simp [type, Json.FieldType.Admits.text],
      by simp⟩
  · obtain ⟨found, given, admitted⟩ := carried.lifetime.exists_found
    exact ⟨found, given, type ▸ admitted, fun _ => rfl⟩
  · obtain ⟨found, given, admitted⟩ := carried.survive.exists_found
    exact ⟨found, given, type ▸ admitted, fun _ => rfl⟩

/-- The members carry a request exactly if it is made of what is collected of them. -/
theorem carriedBy_iff : request.CarriedBy members ↔
    ∃ collected, Collects record.fields [] members collected ∧
      ofMembers collected = .ok request := by
  constructor
  · intro carried
    obtain ⟨collected, collects⟩ := carried.offers.exists_collects
    have key := lookup_of_values collects rfl carried.key
    have value := lookup_of_values collects rfl carried.value
    have lifetime := naturalMember_of_gives collects rfl carried.lifetime
    have survive := naturalMember_of_gives collects rfl carried.survive
    refine ⟨collected, collects, ?_⟩
    simp only [ofMembers, key, value, lifetime, survive]
  · rintro ⟨collected, collects, made⟩
    unfold ofMembers at made
    split at made
    · rename_i key value
      cases made
      exact
        { key := values_of_lookup collects rfl key
          value := values_of_lookup collects rfl value
          lifetime := givesNumber_naturalMember collects rfl rfl
          survive := givesNumber_naturalMember collects rfl rfl }
    · cases made
    · cases made

/-! ## What makes no difference -/

theorem unsigned_record : ∀ field ∈ record.fields, field.type.Unsigned := by
  simp [record, Json.FieldType.Unsigned]

/-- The order of the members and the members that are no fields make no difference. -/
theorem CarriedBy.of_perm (carried : request.CarriedBy members)
    (same : (others.filter (isKnown ·.1)).Perm (members.filter (isKnown ·.1))) :
    request.CarriedBy others := by
  have values (name : String) (known : isKnown name = true) :
      (others.values name).Perm (members.values name) := by
    rw [← Outline.values_filter known others, ← Outline.values_filter known members]
    exact Outline.perm_values same name
  have number {name : String} {number : Option Nat} (known : isKnown name = true)
      (gives : GivesNumber members name number) : GivesNumber others name number := by
    refine ⟨gives.bounded, gives.given.imp (fun given => ?_) (And.imp_right fun missing => ?_)⟩
    · exact List.perm_singleton.mp (given ▸ values name known)
    · exact List.perm_nil.mp (missing ▸ values name known)
  constructor
  case key => exact List.perm_singleton.mp (carried.key ▸ values "key" (by decide))
  case value => exact List.perm_singleton.mp (carried.value ▸ values "value" (by decide))
  case lifetime => exact number (by decide) carried.lifetime
  case survive => exact number (by decide) carried.survive

/-- The fields of a request carry it, also if absent ones are left out. -/
theorem carriedBy_outline {members omitted : Members} (encodable : request.Encodable)
    (perm : (members ++ omitted).Perm request.fields)
    (absent : ∀ member ∈ omitted, member.2 = .absent) : request.CarriedBy members.outline := by
  have collects := Json.collects_outline [] (nodup_of_perm perm) (encodable.fits_of_perm perm)
  exact carriedBy_iff.mpr ⟨members, collects, ofMembers_of_perm perm absent⟩

/-! ## Decoding -/

/-- Texts that start as objects are decoded exactly. -/
structure DecodesObjects : Prop where
  /-- What is decoded is an object of members that carry the request. -/
  read_eq_ok_iff {text inner : List Char} {request : SetRequest} : Gap text ('{' :: inner) →
    (record.read text = .ok request ↔
      ∃ members, IsObject members text ∧ request.CarriedBy members)
  /-- Such an object is one value of the grammar, blanks around it apart. -/
  wellFormed {text : List Char} {members : Outline} : IsObject members text →
    ∃ start rest, Gap text start ∧ Json.Spans .value start rest ∧ Gap rest []
  /-- Any other text in which the fields have the same values is decoded alike. -/
  unaffected {text inner : List Char} {request : SetRequest} : Gap text ('{' :: inner) →
    record.read text = .ok request →
    ∃ members, IsObject members text ∧ request.CarriedBy members ∧
      ∀ {others : Outline} {other : List Char}, IsObject others other →
        (others.filter (isKnown ·.1)).Perm (members.filter (isKnown ·.1)) →
        record.read other = .ok request
  /-- The compact text of a request is decoded as the request, in whatever order its fields come
  and whether absent ones are null or left out. -/
  encoded {request : SetRequest} {members omitted : Members} : request.Encodable →
    (members ++ omitted).Perm request.fields → (∀ member ∈ omitted, member.2 = .absent) →
    record.read members.render = .ok request

/-- Every text that starts as an object is decoded as the request that its members carry, and refused
if they carry none. -/
theorem decodes_objects : DecodesObjects := by
  have exact_iff {text inner : List Char} {request : SetRequest} (opens : Gap text ('{' :: inner)) :
      record.read text = .ok request ↔
        ∃ members, IsObject members text ∧ request.CarriedBy members := by
    rw [Json.Record.read_eq_ok_iff_of_object unsigned_record opens]
    exact exists_congr fun members => and_congr_right fun _ => carriedBy_iff.symm
  constructor
  case read_eq_ok_iff => exact exact_iff
  case wellFormed => exact fun object => object.exists_spans
  case unaffected =>
    intro text inner request opens read
    obtain ⟨members, object, carried⟩ := (exact_iff opens).mp read
    refine ⟨members, object, carried, fun {others other} otherObject same => ?_⟩
    obtain ⟨otherOpens, -, -⟩ := id otherObject
    exact (exact_iff otherOpens).mpr ⟨others, otherObject, carried.of_perm same⟩
  case encoded =>
    intro request members omitted encodable perm absent
    have spells :=
      Json.spellsMembers_render true unsigned_record (encodable.fits_of_perm perm)
    exact (exact_iff (.refl _)).mpr
      ⟨members.outline, .braces (.refl _) spells.spans (.refl _),
        carriedBy_outline encodable perm absent⟩

/-- The members come in an unusual order, one is unknown and one is null, and a name and a string
are escaped. -/
theorem decodes_objects_escaped :
    let text := " \x7b \"x\" : [ \x7b\x7d , 1.5e-3 ] , \"value\" : \"v\" , \"ttl_ms\" : null ,
      \"\\u006bey\" : \"\\uD83D\\uDE00\" \x7d ".toList
    let request : SetRequest := { key := String.singleton (Char.ofNat 0x1F600), value := "v" }
    record.read text = .ok request ∧
      (∃ members, IsObject members text ∧ request.CarriedBy members) ∧
      record.read (Members.render request.fields) = .ok request := by
  intro text request
  have read : record.read text = .ok request := by decide +kernel
  have opens : Gap text ('{' :: text.tail.tail) := ⟨[' '], by simp [Json.isBlank], rfl⟩
  refine ⟨read, (decodes_objects.read_eq_ok_iff opens).mp read, ?_⟩
  exact decodes_objects.encoded ⟨by simp [request], by simp [request]⟩ (.of_eq (List.append_nil _))
    (List.forall_mem_nil _)

end RecencyCache.Http.SetRequest
