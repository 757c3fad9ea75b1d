import RecencyCache.Http.Server
import RecencyCache.Proofs.Json.Members

/-!
# Bodies of requests to store a value

What such a request may carry: an object of the key, the value and the two times in any order, or an
array of them. A time that is not given may be null or left out. Every such body, however its parts
are spelled, is read as what it carries.
-/

namespace RecencyCache

/-! ## Members by name -/

namespace Json

/-- A member whose name occurs once is the one that is found. -/
theorem lookup_eq_some_of_mem {members : Members} {name : String} {value : Scalar}
    (distinct : (members.map (·.1)).Nodup) (listed : (name, value) ∈ members) :
    members.lookup name = some value := by
  induction members with
  | nil => cases listed
  | cons member others ih =>
      rw [List.map_cons, List.nodup_cons] at distinct
      rcases List.mem_cons.mp listed with rfl | listed
      · exact List.lookup_cons_self
      · have differs : (name == member.1) = false := by
          rw [beq_eq_false_iff_ne]
          rintro rfl
          exact distinct.1 (List.mem_map.mpr ⟨_, listed, rfl⟩)
        rw [List.lookup_cons, differs]
        exact ih distinct.2 listed

/-- If some members are left out, each one is found or left out. -/
theorem lookup_of_perm {members omitted all : Members} (perm : (members ++ omitted).Perm all)
    (distinct : (all.map (·.1)).Nodup) {name : String} {value : Scalar}
    (listed : (name, value) ∈ all) :
    members.lookup name = some value ∨
      members.lookup name = none ∧ (name, value) ∈ omitted := by
  have found : (members ++ omitted).lookup name = some value :=
    lookup_eq_some_of_mem ((perm.map _).nodup_iff.mpr distinct) (perm.mem_iff.mpr listed)
  rw [List.lookup_append, Option.or_eq_some_iff] at found
  refine found.imp_right (And.imp_right ?_)
  intro later
  obtain ⟨before, after, rfl, -⟩ := List.lookup_eq_some_iff.mp later
  simp

/-- Values that are left out at the end are those of the last names. -/
theorem zip_append_eq {α β : Type} (names : List α) (values omitted : List β) :
    names.zip (values ++ omitted) =
      names.zip values ++ (names.drop values.length).zip omitted := by
  induction values generalizing names with
  | nil => simp
  | cons value values ih =>
      cases names with
      | nil => simp
      | cons name names => simp [ih]

end Json

namespace Http

open Json (Members Scalar Gap SpellsMembers SpellsElements)

/-- A number as the value of an optional field. -/
def numberScalar : Option Nat → Scalar
  | some number => .integer number
  | none => .absent

namespace SetRequest

variable {content : SetRequest}

/-! ## Encodings -/

/-- The content by fields. -/
def fields (content : SetRequest) : Members :=
  [("key", .text content.key), ("value", .text content.value),
    ("ttl_ms", numberScalar content.lifetimeMillis),
    ("survive_ms", numberScalar content.surviveMillis)]

/-- The text starts with an encoding of the content. -/
inductive EncodedBy (content : SetRequest) (text : List Char) : Prop where
  | object {members omitted : Members} {inner rest : List Char} : Gap text ('{' :: inner) →
      (members ++ omitted).Perm content.fields → (∀ member ∈ omitted, member.2 = .absent) →
      SpellsMembers true members inner rest → EncodedBy content text
  | array {values omitted : List Scalar} {inner rest : List Char} : Gap text ('[' :: inner) →
      values ++ omitted = content.fields.map (·.2) → (∀ value ∈ omitted, value = .absent) →
      SpellsElements true values inner rest → EncodedBy content text

/-- The numbers of the content fit a word. -/
structure Encodable (content : SetRequest) : Prop where
  lifetime_le : ∀ millis ∈ content.lifetimeMillis, millis ≤ largestWord
  survive_le : ∀ millis ∈ content.surviveMillis, millis ≤ largestWord

/-! ## Reading -/

theorem nodup_fields (content : SetRequest) : (content.fields.map (·.1)).Nodup := by
  simp [fields]

/-- A number is found as it is given, and none is found if none is given. -/
theorem naturalMember_of_perm {members omitted : Members}
    (perm : (members ++ omitted).Perm content.fields)
    (absent : ∀ member ∈ omitted, member.2 = .absent) {name : String} {number : Option Nat}
    (listed : (name, numberScalar number) ∈ content.fields) :
    naturalMember members name = number := by
  rcases Json.lookup_of_perm perm content.nodup_fields listed with found | ⟨missing, left⟩
  · rw [naturalMember, found]
    cases number with
    | some number => rfl
    | none => rfl
  · rw [naturalMember, missing]
    cases number with
    | some number => cases absent _ left
    | none => rfl

theorem lookup_text_of_perm {members omitted : Members}
    (perm : (members ++ omitted).Perm content.fields)
    (absent : ∀ member ∈ omitted, member.2 = .absent) {name text : String}
    (listed : (name, .text text) ∈ content.fields) : members.lookup name = some (.text text) := by
  rcases Json.lookup_of_perm perm content.nodup_fields listed with found | ⟨-, left⟩
  · exact found
  · cases absent _ left

/-- Whatever the order of the members and the absent numbers that are left out, they make up the
content. -/
theorem ofMembers_of_perm {members omitted : Members}
    (perm : (members ++ omitted).Perm content.fields)
    (absent : ∀ member ∈ omitted, member.2 = .absent) : ofMembers members = .ok content := by
  have key : members.lookup "key" = some (.text content.key) :=
    lookup_text_of_perm perm absent (.head _)
  have value : members.lookup "value" = some (.text content.value) :=
    lookup_text_of_perm perm absent (.tail _ (.head _))
  have lifetime : naturalMember members "ttl_ms" = content.lifetimeMillis :=
    naturalMember_of_perm perm absent (.tail _ (.tail _ (.head _)))
  have survive : naturalMember members "survive_ms" = content.surviveMillis :=
    naturalMember_of_perm perm absent (.tail _ (.tail _ (.tail _ (.head _))))
  simp only [ofMembers, key, value, lifetime, survive]

theorem admits_numberScalar {number : Option Nat} (fits : ∀ n ∈ number, n ≤ largestWord) :
    (Json.FieldType.optionalInteger 0 largestWord).Admits (numberScalar number) := by
  cases number with
  | some number =>
      exact .optionalInteger (Int.natCast_nonneg number) (Int.ofNat_le.mpr (fits number rfl))
  | none => exact .absent

/-- Each part of the content belongs to a field of the record. -/
theorem Encodable.fits (encodable : content.Encodable) :
    ∀ member ∈ content.fields, Json.Fits record.fields member := by
  have lifetime := admits_numberScalar encodable.lifetime_le
  have survive := admits_numberScalar encodable.survive_le
  simp only [fields, List.forall_mem_cons]
  exact ⟨⟨_, rfl, .text _⟩, ⟨_, rfl, .text _⟩, ⟨_, rfl, lifetime⟩, ⟨_, rfl, survive⟩,
    List.forall_mem_nil _⟩

/-- The same holds if some of the parts are left out. -/
theorem Encodable.fits_of_perm (encodable : content.Encodable) {members omitted : Members}
    (perm : (members ++ omitted).Perm content.fields) :
    ∀ member ∈ members, Json.Fits record.fields member := fun member listed =>
  encodable.fits member (perm.mem_iff.mp (List.mem_append_left _ listed))

theorem nodup_of_perm {members omitted : Members}
    (perm : (members ++ omitted).Perm content.fields) : (members.map (·.1)).Nodup := by
  have distinct := (perm.map (·.1)).nodup_iff.mpr content.nodup_fields
  rw [List.map_append] at distinct
  exact distinct.of_append_left

/-- In the order of the fields, the parts of the content belong to them, and absent ones may be
missing at the end. -/
theorem Encodable.fills (encodable : content.Encodable) {values omitted : List Scalar}
    (whole : values ++ omitted = content.fields.map (·.2))
    (absent : ∀ value ∈ omitted, value = .absent) : Json.Fills record.fields values := by
  refine Json.fills_of_append ?_ absent
  rw [whole]
  exact .cons (.text _) (.cons (.text _) (.cons (admits_numberScalar encodable.lifetime_le)
    (.cons (admits_numberScalar encodable.survive_le) .nil)))

/-- Every encoding of the content is read as the content. -/
theorem EncodedBy.exists_readStart_eq {text : List Char} (encoded : content.EncodedBy text)
    (encodable : content.Encodable) : ∃ rest, record.readStart text = .ok (content, rest) := by
  cases encoded with
  | object gap perm absent spells =>
      exact ⟨_, Json.Record.readStart_of_object gap spells (nodup_of_perm perm)
        (encodable.fits_of_perm perm) (ofMembers_of_perm perm absent)⟩
  | @array values omitted _ _ gap whole absent spells =>
      have split : content.fields =
          (record.fields.map (·.name)).zip values ++
            ((record.fields.map (·.name)).drop values.length).zip omitted := by
        rw [← Json.zip_append_eq, whole]
        rfl
      refine ⟨_, Json.Record.readStart_of_array gap spells (encodable.fills whole absent)
        (ofMembers_of_perm (.of_eq split.symm) ?_)⟩
      exact fun member listed => absent _ (List.of_mem_zip listed).2

end SetRequest

end Http

end RecencyCache
