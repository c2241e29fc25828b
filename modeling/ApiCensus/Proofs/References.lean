import ApiCensus.Proofs.LoadedDocument

/-!
# References of an index

`Refers` says where a record of an index mentions other items, in both layouts of
records and for every kind.  The references of an entry are exactly those of its
record.
-/

namespace ApiCensus

/-- The value is a list with an element that denotes the identifier. -/
def Value.Lists (value : Value) (id : ItemId) : Prop :=
  ∃ elements element, value = .list elements ∧ element ∈ elements ∧
    Entry.idOf? element = some id

/-- The record has a payload of the kind with the given tag. -/
inductive Carries (record : Value) : String → Value → Prop
  /-- Older records name the kind in a field of its own. -/
  | beside {tag : String} : record.get "kind" = .text tag →
      Carries record tag (record.get "inner")
  /-- In current ones the tag is the only key of a record around the payload. -/
  | around {tag : Scalar} {payload : Value} : (∀ word, record.get "kind" ≠ .text word) →
      record.get "inner" = .record [(tag, payload)] → Carries record tag.toText payload

/-- The part of a payload that lists the members of an item of some kind. -/
inductive MemberList (payload : Value) : ItemKind → Value → Prop
  | items {kind : ItemKind} : kind ∈ [.module, .trait, .impl] →
      MemberList payload kind (payload.get "items")
  | variants : MemberList payload .enum (payload.get "variants")
  | fields {kind : ItemKind} {fields : Value} : kind ∈ [.struct, .union, .variant] →
      payload.get? "fields" = some fields → MemberList payload kind fields
  /-- A payload without a list of fields tells their shape. -/
  | plainFields {kind : ItemKind} {plain : Value} : kind ∈ [.struct, .union, .variant] →
      payload.get? "fields" = none → (payload.get "kind").get? "plain" = some plain →
      MemberList payload kind (plain.get "fields")
  | namedFields {kind : ItemKind} {named : Value} : kind ∈ [.struct, .union, .variant] →
      payload.get? "fields" = none → (payload.get "kind").get? "plain" = none →
      (payload.get "kind").get? "struct" = some named →
      MemberList payload kind (named.get "fields")
  | positions {kind : ItemKind} {positions : Value} : kind ∈ [.struct, .union, .variant] →
      payload.get? "fields" = none → (payload.get "kind").get? "plain" = none →
      (payload.get "kind").get? "struct" = none →
      (payload.get "kind").get? "tuple" = some positions → MemberList payload kind positions

/-- The record refers to an identifier in a role. -/
inductive Refers (record : Value) : Role → ItemId → Prop
  | owner : (record.get "parent").isNull = false → Refers record .owner (record.get "parent").toText
  | member {tag : String} {payload listed : Value} {id : ItemId} : Carries record tag payload →
      MemberList payload (ItemKind.ofTag tag) listed → listed.Lists id → Refers record .member id
  | implementation {tag : String} {payload : Value} {id : ItemId} : Carries record tag payload →
      (payload.get "impls").Lists id → Refers record .implementation id
  | trait {tag : String} {payload : Value} {id : ItemId} : Carries record tag payload →
      ItemKind.ofTag tag = .impl → Entry.idOf? ((payload.get "trait").get "id") = some id →
      Refers record .implementedTrait id
  | target {tag : String} {payload : Value} {id : ItemId} : Carries record tag payload →
      ItemKind.ofTag tag = .reexport → Entry.idOf? (payload.get "id") = some id →
      Refers record .reexportTarget id
  | scope {id : ItemId} :
      Entry.idOf? (((record.get "visibility").get "restricted").get "parent") = some id →
      Refers record .visibilityScope id

/-- Only the parts of a payload decide which of them lists the members. -/
theorem MemberList.congr {left right listed : Value} {kind : ItemKind}
    (same : ∀ name, left.get? name = right.get? name) (list : MemberList left kind listed) :
    MemberList right kind listed := by
  have sameGet : ∀ name, left.get name = right.get name := by
    intro name
    rw [Value.get, Value.get, same]
  cases list with
  | items kinds => exact sameGet "items" ▸ .items kinds
  | variants => exact sameGet "variants" ▸ .variants
  | fields kinds present => exact .fields kinds (same "fields" ▸ present)
  | plainFields kinds absent plain =>
      exact .plainFields kinds (same "fields" ▸ absent) (sameGet "kind" ▸ plain)
  | namedFields kinds absent noPlain named =>
      exact .namedFields kinds (same "fields" ▸ absent) (sameGet "kind" ▸ noPlain)
        (sameGet "kind" ▸ named)
  | positions kinds absent noPlain noNamed positions =>
      exact .positions kinds (same "fields" ▸ absent) (sameGet "kind" ▸ noPlain)
        (sameGet "kind" ▸ noNamed) (sameGet "kind" ▸ positions)

/-! ### Entries and their records -/

theorem Value.get?_orElse_noPayload (value : Value) (name : String) :
    (value.orElse Entry.noPayload).get? name = value.get? name := by
  unfold Value.orElse
  split
  · rfl
  · rename_i absent
    cases value with
    | scalar content => rfl
    | list elements => rfl
    | record entries =>
        cases entries with
        | nil => rfl
        | cons first rest => simp [Value.isTruthy] at absent

theorem Value.TextKeyed.orElse_noPayload {value : Value} (keyed : value.TextKeyed) :
    (value.orElse Entry.noPayload).TextKeyed := by
  unfold Value.orElse
  split
  · exact keyed
  · exact .record [] rfl .nil (by simp)

namespace Entry

theorem mem_idsOf_iff {value : Value} {id : ItemId} : id ∈ idsOf value ↔ value.Lists id := by
  unfold Value.Lists
  cases value with
  | scalar content => simp [idsOf]
  | list elements => simp [idsOf]
  | record entries => simp [idsOf]

theorem get?_body (entry : Entry) (name : String) :
    entry.body.get? name = entry.payload.get? name := by
  unfold body
  cases entry.payload with
  | scalar content => rfl
  | list elements => rfl
  | record entries => rfl

/-- An entry has the tag of its record, and the parts of its payload. -/
theorem of_carries {record payload : Value} {tag : String} (carries : Carries record tag payload)
    (id : ItemId) :
    (ofRecord id record).tag = tag ∧
      ∀ name, (ofRecord id record).body.get? name = payload.get? name := by
  cases carries with
  | beside kind =>
      refine ⟨by simp [ofRecord, split, kind], fun name => ?_⟩
      rw [get?_body]
      simp [ofRecord, split, kind, Value.get?_orElse_noPayload]
  | @around tag payload other inner =>
      have layout : split record = (tag.toText, payload) := by
        unfold split
        split
        · rename_i word kind
          exact absurd kind (other word)
        · rw [inner]
      refine ⟨by simp [ofRecord, layout], fun name => ?_⟩
      rw [get?_body]
      simp [ofRecord, layout]

/-- A record that carries no payload makes an entry without parts. -/
theorem carries_or_bare (id : ItemId) (record : Value) :
    (∃ payload, Carries record (ofRecord id record).tag payload) ∨
      ∀ name, (ofRecord id record).body.get? name = none := by
  by_cases named : ∃ tag, record.get "kind" = .text tag
  · obtain ⟨tag, kind⟩ := named
    have carries := Carries.beside kind
    exact .inl ⟨_, (of_carries carries id).1 ▸ carries⟩
  · have other : ∀ word, record.get "kind" ≠ .text word := fun word kind => named ⟨word, kind⟩
    by_cases nested : ∃ tag payload, record.get "inner" = .record [(tag, payload)]
    · obtain ⟨tag, payload, inner⟩ := nested
      have carries := Carries.around other inner
      exact .inl ⟨_, (of_carries carries id).1 ▸ carries⟩
    · right
      have bare : (split record).2 = noPayload := by
        unfold split
        split
        · rename_i word kind
          exact absurd kind (other word)
        · split
          · rename_i tag payload inner
            exact absurd ⟨tag, payload, inner⟩ nested
          · rfl
          · rfl
      intro name
      rw [get?_body]
      simp [ofRecord, bare, noPayload, Value.get?, Value.find?]

/-! ### Lists of members -/

theorem members_of_items {entry : Entry} (kinds : entry.kind ∈ [.module, .trait, .impl]) :
    entry.members = .ok (idsOf (entry.body.get "items")) := by
  simp only [List.mem_cons, List.not_mem_nil, or_false] at kinds
  rcases kinds with kind | kind | kind <;> simp [members, kind]

theorem members_of_variants {entry : Entry} (kind : entry.kind = .enum) :
    entry.members = .ok (idsOf (entry.body.get "variants")) := by
  simp [members, kind]

theorem members_of_fields {entry : Entry} {fields : Value}
    (kinds : entry.kind ∈ [.struct, .union, .variant])
    (present : entry.body.get? "fields" = some fields) :
    entry.members = .ok (idsOf fields) := by
  simp only [List.mem_cons, List.not_mem_nil, or_false] at kinds
  rcases kinds with kind | kind | kind <;> simp [members, kind, present]

theorem members_of_shape {entry : Entry} (kinds : entry.kind ∈ [.struct, .union, .variant])
    (absent : entry.body.get? "fields" = none) :
    entry.members = shapeFields (entry.body.get "kind") := by
  simp only [List.mem_cons, List.not_mem_nil, or_false] at kinds
  rcases kinds with kind | kind | kind <;> simp [members, kind, absent]

theorem members_of_others {entry : Entry} (noItems : entry.kind ∉ [.module, .trait, .impl])
    (noVariants : entry.kind ≠ .enum) (noFields : entry.kind ∉ [.struct, .union, .variant]) :
    entry.members = .ok [] := by
  unfold members
  cases kind : entry.kind <;> simp_all

/-- A list of fields that stands in a part of the shape, which may be absent. -/
theorem fields_of_part {part : Value} {found : List ItemId}
    (success : (do
      let part ← (part.orElse noPayload).asRecord
      return idsOf (part.get "fields") : Except ShapeError (List ItemId)) = .ok found) :
    found = idsOf (part.get "fields") := by
  obtain ⟨record, recordOk, same⟩ := Outcome.bind_eq_ok_iff.mp success
  cases same
  unfold Value.asRecord at recordOk
  split at recordOk
  · cases recordOk
    rw [Value.get, Value.get, Value.get?_orElse_noPayload]
  · cases recordOk

/-- The members of an entry are those that its list of members denotes. -/
theorem members_eq_idsOf {entry : Entry} {found : List ItemId} {listed : Value}
    (success : entry.members = .ok found) (list : MemberList entry.body entry.kind listed) :
    found = idsOf listed := by
  generalize sameKind : entry.kind = kind at list
  cases list with
  | items kinds =>
      rw [members_of_items (sameKind ▸ kinds)] at success
      exact (Except.ok.inj success).symm
  | variants =>
      rw [members_of_variants sameKind] at success
      exact (Except.ok.inj success).symm
  | fields kinds present =>
      rw [members_of_fields (sameKind ▸ kinds) present] at success
      exact (Except.ok.inj success).symm
  | plainFields kinds absent plain =>
      rw [members_of_shape (sameKind ▸ kinds) absent] at success
      simp only [shapeFields, plain] at success
      exact fields_of_part success
  | namedFields kinds absent noPlain named =>
      rw [members_of_shape (sameKind ▸ kinds) absent] at success
      simp only [shapeFields, noPlain, named] at success
      exact fields_of_part success
  | positions kinds absent noPlain noNamed positions =>
      rw [members_of_shape (sameKind ▸ kinds) absent] at success
      simp only [shapeFields, noPlain, noNamed, positions] at success
      exact (Except.ok.inj success).symm

theorem exists_memberList {entry : Entry} {found : List ItemId}
    (success : entry.members = .ok found) :
    found = [] ∨ ∃ listed, MemberList entry.body entry.kind listed := by
  by_cases items : entry.kind ∈ [.module, .trait, .impl]
  · exact .inr ⟨_, .items items⟩
  by_cases variants : entry.kind = .enum
  · rw [variants]
    exact .inr ⟨_, .variants⟩
  by_cases fields : entry.kind ∈ [.struct, .union, .variant]
  · cases present : entry.body.get? "fields" with
    | some listed => exact .inr ⟨_, .fields fields present⟩
    | none =>
        cases plain : (entry.body.get "kind").get? "plain" with
        | some part => exact .inr ⟨_, .plainFields fields present plain⟩
        | none =>
            cases named : (entry.body.get "kind").get? "struct" with
            | some part => exact .inr ⟨_, .namedFields fields present plain named⟩
            | none =>
                cases positions : (entry.body.get "kind").get? "tuple" with
                | some listed =>
                    exact .inr ⟨_, .positions fields present plain named positions⟩
                | none =>
                    rw [members_of_shape fields present] at success
                    simp only [shapeFields, plain, named, positions] at success
                    exact .inl (Except.ok.inj success).symm
  · rw [members_of_others items variants fields] at success
    exact .inl (Except.ok.inj success).symm

theorem mem_members_iff {entry : Entry} {found : List ItemId}
    (success : entry.members = .ok found) {id : ItemId} :
    id ∈ found ↔ ∃ listed, MemberList entry.body entry.kind listed ∧ listed.Lists id := by
  constructor
  · intro member
    rcases exists_memberList success with rfl | ⟨listed, list⟩
    · cases member
    · rw [members_eq_idsOf success list] at member
      exact ⟨listed, list, mem_idsOf_iff.mp member⟩
  · rintro ⟨listed, list, denoted⟩
    rw [members_eq_idsOf success list]
    exact mem_idsOf_iff.mpr denoted

/-! ### References -/

theorem ne_null_of_lists {value : Value} {id : ItemId} (lists : value.Lists id) :
    value ≠ .null := by
  rintro rfl
  obtain ⟨_, _, impossible, _⟩ := lists
  cases impossible

theorem ne_null_of_idOf?_get {value : Value} {name : String} {id : ItemId}
    (denoted : idOf? (value.get name) = some id) : value ≠ .null := by
  rintro rfl
  cases denoted

theorem idOf?_get_of_not_record {value : Value} (other : value.isRecord = false) (name : String) :
    idOf? (value.get name) = none := by
  cases value with
  | scalar content => rfl
  | list elements => rfl
  | record entries => cases other

theorem traitId?_eq_some_iff {entry : Entry} {id : ItemId} :
    entry.traitId? = some id ↔
      entry.kind = .impl ∧ idOf? ((entry.body.get "trait").get "id") = some id := by
  unfold traitId? trait?
  by_cases kind : entry.kind = .impl
  · by_cases isRecord : (entry.body.get "trait").isRecord = true
    · simp [kind, isRecord]
    · rw [Bool.not_eq_true] at isRecord
      simp [kind, isRecord, idOf?_get_of_not_record isRecord]
  · simp [kind]

theorem scope?_eq_some_iff {entry : Entry} {id : ItemId} :
    entry.visibility.scope? = some id ↔
      idOf? (((entry.source.get "visibility").get "restricted").get "parent") = some id := by
  unfold visibility
  split
  · rename_i absent
    rw [absent]
    simp [Visibility.scope?, Value.get, Value.get?, idOf?]
  · rename_i level declared
    rw [declared]
    have none : idOf? (((Value.text level).get "restricted").get "parent") = none := rfl
    rw [none]
    split_ifs <;> simp [Visibility.scope?]
  · dsimp only
    split
    · rfl
    · rename_i other
      rw [Bool.not_eq_true] at other
      rw [idOf?_get_of_not_record other]
      rfl

theorem reexportTarget?_eq_some_iff {entry : Entry} {id : ItemId} :
    entry.reexportTarget? = some id ↔
      entry.kind = .reexport ∧ idOf? (entry.body.get "id") = some id := by
  unfold reexportTarget?
  by_cases kind : entry.kind = .reexport <;> simp [kind]

theorem ownerReference?_eq_some_iff {entry : Entry} {reference : Reference} :
    entry.ownerReference? = some reference ↔
      (entry.source.get "parent").isNull = false ∧
        reference = ⟨(entry.source.get "parent").toText, .owner⟩ := by
  unfold ownerReference? owner?
  by_cases absent : (entry.source.get "parent").isNull = true
  · simp [absent]
  · simp [absent, eq_comm]

/-- A reference from the payload of an entry comes from a payload of its record. -/
theorem carries_of_part {id : ItemId} {record : Value} {name : String} {part : Value}
    (found : (ofRecord id record).body.get? name = some part) :
    ∃ payload, Carries record (ofRecord id record).tag payload ∧
      ∀ name, (ofRecord id record).body.get? name = payload.get? name := by
  rcases carries_or_bare id record with ⟨payload, carries⟩ | bare
  · exact ⟨payload, carries, (of_carries carries id).2⟩
  · rw [bare] at found
    cases found

theorem exists_part {value : Value} {name : String} (present : value.get name ≠ .null) :
    ∃ part, value.get? name = some part := by
  cases found : value.get? name with
  | some part => exact ⟨part, rfl⟩
  | none =>
      apply absurd _ present
      simp [Value.get, found]

theorem exists_part_of_memberList {payload listed : Value} {kind : ItemKind} {id : ItemId}
    (list : MemberList payload kind listed) (lists : listed.Lists id) :
    ∃ name part, payload.get? name = some part := by
  have shape : ∀ {name part}, (payload.get "kind").get? name = some part →
      ∃ name part, payload.get? name = some part := by
    intro name part found
    refine ⟨"kind", exists_part ?_⟩
    intro absent
    rw [absent] at found
    cases found
  cases list with
  | items _ => exact ⟨_, exists_part (ne_null_of_lists lists)⟩
  | variants => exact ⟨_, exists_part (ne_null_of_lists lists)⟩
  | fields _ present => exact ⟨_, _, present⟩
  | plainFields _ _ plain => exact shape plain
  | namedFields _ _ _ named => exact shape named
  | positions _ _ _ _ positions => exact shape positions

theorem carries_of_present {id : ItemId} {record : Value} {name : String}
    (present : (ofRecord id record).body.get name ≠ .null) :
    ∃ payload, Carries record (ofRecord id record).tag payload ∧
      ∀ name, (ofRecord id record).body.get? name = payload.get? name := by
  obtain ⟨_, found⟩ := exists_part present
  exact carries_of_part found

/-! ### References of an entry -/

/-- Where a reference of an entry other than that to its owner comes from. -/
theorem mem_references_iff {entry : Entry} {references : List Reference} {members : List ItemId}
    (success : entry.references = .ok references) (membersOk : entry.members = .ok members)
    {role : Role} {target : ItemId} :
    ⟨target, role⟩ ∈ references ↔
      (target ∈ members ∧ role = .member) ∨
      (target ∈ idsOf (entry.body.get "impls") ∧ role = .implementation) ∨
      (entry.traitId? = some target ∧ role = .implementedTrait) ∨
      (entry.reexportTarget? = some target ∧ role = .reexportTarget) ∨
      (entry.visibility.scope? = some target ∧ role = .visibilityScope) := by
  unfold Entry.references at success
  rw [membersOk] at success
  cases success
  simp only [List.mem_append, List.mem_map, Option.mem_toList, Option.map_eq_some_iff,
    Reference.mk.injEq, ← and_assoc, exists_and_right, exists_eq_right, or_assoc,
    @eq_comm Role _ role]
  rfl

/-- What a record refers to is among the references of its entry. -/
theorem mem_references_of_refers {id : ItemId} {record : Value} {references : List Reference}
    (success : (ofRecord id record).references = .ok references) {role : Role}
    {target : ItemId} (refers : Refers record role target) :
    ⟨target, role⟩ ∈ (ofRecord id record).ownerReference?.toList ++ references := by
  obtain ⟨members, membersOk, _⟩ := Outcome.bind_eq_ok_iff.mp success
  rw [List.mem_append, Option.mem_toList, ownerReference?_eq_some_iff,
    mem_references_iff success membersOk]
  cases refers with
  | owner present => exact .inl ⟨present, rfl⟩
  | member carries list lists =>
      obtain ⟨rfl, parts⟩ := of_carries carries id
      have inside := (mem_members_iff membersOk).mpr
        ⟨_, list.congr fun name => (parts name).symm, lists⟩
      exact .inr (.inl ⟨inside, rfl⟩)
  | implementation carries lists =>
      obtain ⟨rfl, parts⟩ := of_carries carries id
      rw [Value.get, ← parts] at lists
      exact .inr (.inr (.inl ⟨mem_idsOf_iff.mpr lists, rfl⟩))
  | trait carries kind denoted =>
      obtain ⟨rfl, parts⟩ := of_carries carries id
      rw [Value.get.eq_1 _ "trait", ← parts] at denoted
      exact .inr (.inr (.inr (.inl ⟨traitId?_eq_some_iff.mpr ⟨kind, denoted⟩, rfl⟩)))
  | target carries kind denoted =>
      obtain ⟨rfl, parts⟩ := of_carries carries id
      rw [Value.get, ← parts] at denoted
      exact .inr (.inr (.inr (.inr (.inl
        ⟨reexportTarget?_eq_some_iff.mpr ⟨kind, denoted⟩, rfl⟩))))
  | scope denoted =>
      exact .inr (.inr (.inr (.inr (.inr ⟨scope?_eq_some_iff.mpr denoted, rfl⟩))))

theorem refers_of_mem_references {id : ItemId} {record : Value} {references : List Reference}
    (success : (ofRecord id record).references = .ok references) {role : Role}
    {target : ItemId} (reference : ⟨target, role⟩ ∈ references) : Refers record role target := by
  obtain ⟨members, membersOk, _⟩ := Outcome.bind_eq_ok_iff.mp success
  -- The body of an entry is empty if the record has no payload, so that every part that is
  -- found in the body tells that there is one.
  rcases (mem_references_iff success membersOk).mp reference with ⟨inside, rfl⟩ |
    ⟨inside, rfl⟩ | ⟨found, rfl⟩ | ⟨found, rfl⟩ | ⟨found, rfl⟩
  · obtain ⟨listed, list, lists⟩ := (mem_members_iff membersOk).mp inside
    obtain ⟨_, _, part⟩ := exists_part_of_memberList list lists
    obtain ⟨payload, carries, parts⟩ := carries_of_part part
    exact .member carries (list.congr parts) lists
  · have lists := mem_idsOf_iff.mp inside
    obtain ⟨payload, carries, parts⟩ := carries_of_present (ne_null_of_lists lists)
    rw [Value.get, parts] at lists
    exact .implementation carries lists
  · obtain ⟨kind, denoted⟩ := traitId?_eq_some_iff.mp found
    obtain ⟨payload, carries, parts⟩ := carries_of_present (ne_null_of_idOf?_get denoted)
    rw [Value.get.eq_1 _ "trait", parts] at denoted
    exact .trait carries kind denoted
  · obtain ⟨kind, denoted⟩ := reexportTarget?_eq_some_iff.mp found
    have present : (ofRecord id record).body.get "id" ≠ .null := by
      intro absent
      rw [absent] at denoted
      cases denoted
    obtain ⟨payload, carries, parts⟩ := carries_of_present present
    rw [Value.get, parts] at denoted
    exact .target carries kind denoted
  · exact .scope (scope?_eq_some_iff.mp found)

end Entry

end ApiCensus
