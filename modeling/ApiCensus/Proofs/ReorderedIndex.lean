import ApiCensus.Proofs.AlikeDocuments
import ApiCensus.Proofs.References

/-!
# Indexes that differ in order only

`Index.Reordered` relates parsed indexes that differ only in the order of the entries of
the index, of the path summaries and of the external crates, and in the order inside the
lists of members and impl blocks.  What is read from two records that are related in this
way differs in nothing but the order of members and impl blocks.
-/

namespace ApiCensus

namespace Value

/-- Lists with the same elements in some order; any other value is related to itself only. -/
inductive Shuffled : Value → Value → Prop
  | list {elements others : List Value} :
      elements.Perm others → Shuffled (.list elements) (.list others)
  | same (value : Value) : Shuffled value value

/-- Records with the same keys in the same order, whose parts are related; any other value
is related to itself only. -/
inductive SameParts (related : Scalar → Value → Value → Prop) : Value → Value → Prop
  | record {entries others : List (Scalar × Value)} :
      List.Forall₂ (fun entry other => entry.1 = other.1 ∧ related entry.1 entry.2 other.2)
        entries others →
      SameParts related (.record entries) (.record others)
  | same (value : Value) : SameParts related value value

/-- Records with the same keys in some order, whose parts are related; any other value is
related to itself only. -/
inductive SameEntries (related : Value → Value → Prop) : Value → Value → Prop
  | record {entries middle others : List (Scalar × Value)} :
      entries.Perm middle →
      List.Forall₂ (fun entry other => entry.1 = other.1 ∧ related entry.2 other.2)
        middle others →
      SameEntries related (.record entries) (.record others)
  | same (value : Value) : SameEntries related value value

end Value

/-! ### Which lists may be reordered -/

namespace Entry

/-- Named fields are listed in any order. -/
inductive SameFields : Scalar → Value → Value → Prop
  | fields {left right : Value} : left.Shuffled right → SameFields (.text "fields") left right
  | same (key : Scalar) (value : Value) : SameFields key value value

/-- The shape of a struct or variant lists its fields in any order. -/
inductive SameShape : Scalar → Value → Value → Prop
  | plain {left right : Value} :
      left.SameParts SameFields right → SameShape (.text "plain") left right
  | named {left right : Value} :
      left.SameParts SameFields right → SameShape (.text "struct") left right
  | positions {left right : Value} : left.Shuffled right → SameShape (.text "tuple") left right
  | same (key : Scalar) (value : Value) : SameShape key value value

/-- A payload lists members and impl blocks in any order. -/
inductive SamePayload : Scalar → Value → Value → Prop
  | items {left right : Value} : left.Shuffled right → SamePayload (.text "items") left right
  | variants {left right : Value} : left.Shuffled right → SamePayload (.text "variants") left right
  | fields {left right : Value} : left.Shuffled right → SamePayload (.text "fields") left right
  | impls {left right : Value} : left.Shuffled right → SamePayload (.text "impls") left right
  | shape {left right : Value} :
      left.SameParts SameShape right → SamePayload (.text "kind") left right
  | same (key : Scalar) (value : Value) : SamePayload key value value

/-- The parts of a record of an index, whose payload stands beside its tag or below it. -/
inductive SameSource (source : Value) : Scalar → Value → Value → Prop
  | beside {tag : String} {left right : Value} : source.get "kind" = .text tag →
      left.SameParts SamePayload right → SameSource source (.text "inner") left right
  | below {left right : Value} : (∀ word, source.get "kind" ≠ .text word) →
      left.SameParts (fun _ => Value.SameParts SamePayload) right →
      SameSource source (.text "inner") left right
  | same (key : Scalar) (value : Value) : SameSource source key value value

/-- Two records of an index differ in the order of members and impl blocks only. -/
def SameRecord (source other : Value) : Prop :=
  source.SameParts (SameSource source) other

end Entry

namespace Index

/-- The parts of an index, three of which may have their entries in any order. -/
inductive SamePart : Scalar → Value → Value → Prop
  | index {left right : Value} :
      left.SameEntries Entry.SameRecord right → SamePart (.text "index") left right
  | paths {left right : Value} : left.SameEntries Eq right → SamePart (.text "paths") left right
  | crates {left right : Value} :
      left.SameEntries Eq right → SamePart (.text "external_crates") left right
  | same (key : Scalar) (value : Value) : SamePart key value value

/-- Two parsed indexes differ in order only. -/
def Reordered (top other : Value) : Prop :=
  top.SameParts SamePart other

end Index

/-! ### Parts of related values -/

theorem Scalar.same_text_iff {key : Scalar} {name : String} :
    key.same (.text name) = true ↔ key = .text name := by
  cases key <;> simp [Scalar.same, Scalar.place?]

theorem Scalar.text_same_iff {key : Scalar} {name : String} :
    (Scalar.text name).same key = true ↔ key = .text name := by
  cases key <;> simp [Scalar.same, Scalar.place?]
  exact eq_comm

namespace Value

variable {related : Scalar → Value → Value → Prop} {left right : Value}

theorem SameParts.get? (parts : left.SameParts related right)
    (refl : ∀ key value, related key value value) (name : String) :
    Option.Rel (related (.text name)) (left.get? name) (right.get? name) := by
  cases parts with
  | same =>
      cases left.get? name with
      | none => exact .none
      | some value => exact .some (refl _ value)
  | record pairs =>
      unfold Value.get? Value.find?
      dsimp only
      induction pairs with
      | nil => exact .none
      | @cons entry other entries others first _ induction =>
          obtain ⟨sameKey, holds⟩ := first
          rw [List.find?_cons, List.find?_cons, ← sameKey]
          cases here : entry.1.same (.text name) with
          | true =>
              rw [Scalar.same_text_iff.mp here] at holds
              exact .some holds
          | false => exact induction

theorem SameParts.get (parts : left.SameParts related right)
    (refl : ∀ key value, related key value value) (name : String) :
    related (.text name) (left.get name) (right.get name) := by
  have found := parts.get? refl name
  unfold Value.get
  generalize left.get? name = leftPart, right.get? name = rightPart at found
  cases found with
  | some holds => exact holds
  | none => exact refl _ _

theorem SameParts.isRecord (parts : left.SameParts related right) :
    left.isRecord = right.isRecord := by
  cases parts with
  | record => rfl
  | same => rfl

theorem SameParts.orElse_noPayload (parts : left.SameParts related right) :
    (left.orElse Entry.noPayload).SameParts related (right.orElse Entry.noPayload) := by
  cases parts with
  | same => exact .same _
  | record pairs =>
      cases pairs with
      | nil => exact .same _
      | cons first rest => exact .record (.cons first rest)

theorem Shuffled.idsOf (shuffled : left.Shuffled right) :
    (Entry.idsOf left).Perm (Entry.idsOf right) := by
  cases shuffled with
  | list permuted => exact permuted.filterMap _
  | same => exact .refl _

end Value

namespace Entry

variable {left right : Value} {name : String}

theorem SameFields.shuffled (part : SameFields (.text name) left right) : left.Shuffled right := by
  cases part with
  | fields shuffled => exact shuffled
  | same => exact .same _

theorem SameShape.sameFields (part : SameShape (.text name) left right) (other : name ≠ "tuple") :
    left.SameParts SameFields right := by
  cases part with
  | plain parts => exact parts
  | named parts => exact parts
  | positions => exact absurd rfl other
  | same => exact .same _

theorem SameShape.shuffled (part : SameShape (.text name) left right)
    (other : name ∉ ["plain", "struct"]) : left.Shuffled right := by
  cases part with
  | plain => simp at other
  | named => simp at other
  | positions shuffled => exact shuffled
  | same => exact .same _

theorem SamePayload.shuffled (part : SamePayload (.text name) left right) (other : name ≠ "kind") :
    left.Shuffled right := by
  cases part with
  | items shuffled => exact shuffled
  | variants shuffled => exact shuffled
  | fields shuffled => exact shuffled
  | impls shuffled => exact shuffled
  | shape => exact absurd rfl other
  | same => exact .same _

theorem SamePayload.sameShape (part : SamePayload (.text name) left right)
    (other : name ∉ ["items", "variants", "fields", "impls"]) : left.SameParts SameShape right := by
  cases part with
  | items => simp at other
  | variants => simp at other
  | fields => simp at other
  | impls => simp at other
  | shape parts => exact parts
  | same => exact .same _

theorem SamePayload.eq_of_not_mem (part : SamePayload (.text name) left right)
    (other : name ∉ Item.memberKeys) : left = right := by
  cases part with
  | items => simp [Item.memberKeys] at other
  | variants => simp [Item.memberKeys] at other
  | fields => simp [Item.memberKeys] at other
  | impls => simp [Item.memberKeys] at other
  | shape => simp [Item.memberKeys] at other
  | same => rfl

theorem SameSource.eq_of_ne {source : Value} (part : SameSource source (.text name) left right)
    (other : name ≠ "inner") : left = right := by
  cases part with
  | beside => exact absurd rfl other
  | below => exact absurd rfl other
  | same => rfl

end Entry

namespace Index.SamePart

variable {left right : Value} {name : String}

theorem sameRecords (part : SamePart (.text name) left right)
    (other : name ∉ ["paths", "external_crates"]) : left.SameEntries Entry.SameRecord right := by
  cases part with
  | index entries => exact entries
  | paths => simp at other
  | crates => simp at other
  | same => exact .same _

theorem sameSummaries (part : SamePart (.text name) left right) (other : name ≠ "index") :
    left.SameEntries Eq right := by
  cases part with
  | index => exact absurd rfl other
  | paths entries => exact entries
  | crates entries => exact entries
  | same => exact .same _

theorem eq_of_not_mem (part : SamePart (.text name) left right)
    (other : name ∉ ["index", "paths", "external_crates"]) : left = right := by
  cases part with
  | index => simp at other
  | paths => simp at other
  | crates => simp at other
  | same => rfl

end Index.SamePart

/-! ### Alike entries -/

namespace Entry


/-- The other entry differs at most in the order of its members and impl blocks. -/
structure Alike (entry other : Entry) : Prop where
  id : entry.id = other.id
  tag : entry.tag = other.tag
  source : ∀ name, name ≠ "inner" → entry.source.get? name = other.source.get? name
  payload : ∀ name ∉ Item.memberKeys, entry.payload.get? name = other.payload.get? name
  members : Outcome.Agree List.Perm entry.members other.members
  impls : entry.impls.Perm other.impls

theorem Alike.symm {entry other : Entry} (alike : entry.Alike other) : other.Alike entry where
  id := alike.id.symm
  tag := alike.tag.symm
  source name different := (alike.source name different).symm
  payload name different := (alike.payload name different).symm
  members := by
    have reversed := alike.members.symm
    generalize other.members = left, entry.members = right at reversed
    cases reversed with
    | ok permuted => exact .ok permuted.symm
    | error cause => exact .error cause
  impls := alike.impls.symm

theorem SameRecord.get {source other : Value} (same : SameRecord source other) (name : String)
    (different : name ≠ "inner") : source.get name = other.get name :=
  SameSource.eq_of_ne (Value.SameParts.get same .same name) different

/-- Records that differ in order only have the same tag and payloads that differ in order
only. -/
theorem split_of_sameRecord {source other : Value} (same : SameRecord source other) :
    (split source).1 = (split other).1 ∧
      (split source).2.SameParts SamePayload (split other).2 := by
  have kinds := same.get "kind" (by decide)
  have inner := Value.SameParts.get same .same "inner"
  unfold split
  rw [← kinds]
  generalize source.get "inner" = left, other.get "inner" = right at inner
  cases inner with
  | same => exact ⟨rfl, .same _⟩
  | beside kind parts =>
      rw [kind]
      exact ⟨rfl, parts.orElse_noPayload⟩
  | below untagged parts =>
      split
      · rename_i tag kind
        exact absurd kind (untagged tag)
      · cases parts with
        | same => exact ⟨rfl, .same _⟩
        | record pairs =>
            cases pairs with
            | nil => exact ⟨rfl, .same _⟩
            | cons first rest =>
                cases rest with
                | nil => exact ⟨congrArg Scalar.toText first.1, first.2⟩
                | cons second more => exact ⟨rfl, .same _⟩

theorem shapeFields_agree {left right : Value} (parts : left.SameParts SameShape right) :
    Outcome.Agree List.Perm (shapeFields left) (shapeFields right) := by
  have fieldsOf : ∀ {plain other : Value}, plain.SameParts SameFields other →
      Outcome.Agree List.Perm
        (do let plain ← (plain.orElse noPayload).asRecord; return idsOf (plain.get "fields"))
        (do let plain ← (other.orElse noPayload).asRecord; return idsOf (plain.get "fields")) := by
    intro plain other same
    have parts := same.orElse_noPayload
    have records : Outcome.Agree (Value.SameParts SameFields)
        (plain.orElse noPayload).asRecord (other.orElse noPayload).asRecord := by
      unfold Value.asRecord
      rw [parts.isRecord]
      split
      · exact .ok parts
      · exact .error _
    exact records.bind fun _ _ found => .ok (found.get .same "fields").shuffled.idsOf
  have plain := parts.get? .same "plain"
  have named := parts.get? .same "struct"
  have positions := parts.get? .same "tuple"
  unfold shapeFields
  generalize left.get? "plain" = leftPlain, right.get? "plain" = rightPlain at plain
  generalize left.get? "struct" = leftNamed, right.get? "struct" = rightNamed at named
  generalize left.get? "tuple" = leftPositions, right.get? "tuple" = rightPositions at positions
  cases plain with
  | some part => exact fieldsOf (part.sameFields (by decide))
  | none =>
      cases named with
      | some part => exact fieldsOf (part.sameFields (by decide))
      | none =>
          cases positions with
          | some part => exact .ok (part.shuffled (by decide)).idsOf
          | none => exact .ok (.refl _)

theorem members_agree {entry other : Entry} (kinds : entry.kind = other.kind)
    (parts : entry.body.SameParts SamePayload other.body) :
    Outcome.Agree List.Perm entry.members other.members := by
  by_cases items : entry.kind ∈ [.module, .trait, .impl]
  · rw [members_of_items items, members_of_items (kinds ▸ items)]
    exact .ok ((parts.get .same "items").shuffled (by decide)).idsOf
  by_cases variants : entry.kind = .enum
  · rw [members_of_variants variants, members_of_variants (kinds ▸ variants)]
    exact .ok ((parts.get .same "variants").shuffled (by decide)).idsOf
  by_cases fields : entry.kind ∈ [.struct, .union, .variant]
  · have listed := parts.get? .same "fields"
    generalize here : entry.body.get? "fields" = left, there : other.body.get? "fields" = right
      at listed
    cases listed with
    | some part =>
        rw [members_of_fields fields here, members_of_fields (kinds ▸ fields) there]
        exact .ok (part.shuffled (by decide)).idsOf
    | none =>
        rw [members_of_shape fields here, members_of_shape (kinds ▸ fields) there]
        exact shapeFields_agree ((parts.get .same "kind").sameShape (by decide))
  · rw [members_of_others items variants fields,
      members_of_others (kinds ▸ items) (kinds ▸ variants) (kinds ▸ fields)]
    exact .ok (.refl _)

/-- Entries of records that differ in order only are alike. -/
theorem alike_ofRecord {source other : Value} (same : SameRecord source other) (id : ItemId) :
    (ofRecord id source).Alike (ofRecord id other) := by
  obtain ⟨tags, payloads⟩ := split_of_sameRecord same
  have payloads : (ofRecord id source).payload.SameParts SamePayload (ofRecord id other).payload :=
    payloads
  have bodies : (ofRecord id source).body.SameParts SamePayload (ofRecord id other).body := by
    unfold body
    rw [← payloads.isRecord]
    split
    · exact payloads
    · exact .same _
  constructor
  · rfl
  · exact tags
  · intro name different
    have part := Value.SameParts.get? same .same name
    dsimp only [ofRecord]
    generalize source.get? name = left, other.get? name = right at part
    cases part with
    | some holds => rw [holds.eq_of_ne different]
    | none => rfl
  · intro name different
    have part := payloads.get? .same name
    generalize (ofRecord id source).payload.get? name = left,
      (ofRecord id other).payload.get? name = right at part
    cases part with
    | some holds => rw [holds.eq_of_not_mem different]
    | none => rfl
  · exact members_agree (congrArg ItemKind.ofTag tags) bodies
  · exact ((bodies.get .same "impls").shuffled (by decide)).idsOf

end Entry

/-! ### Items of alike entries -/

namespace Entry.Alike

variable {entry other : Entry}

theorem kind (alike : entry.Alike other) : entry.kind = other.kind := by
  rw [Entry.kind, Entry.kind, alike.tag]

theorem source_get (alike : entry.Alike other) (name : String) (different : name ≠ "inner") :
    entry.source.get name = other.source.get name := by
  rw [Value.get, Value.get, alike.source name different]

theorem body_get? (alike : entry.Alike other) (name : String)
    (different : name ∉ Item.memberKeys) : entry.body.get? name = other.body.get? name := by
  rw [get?_body, get?_body, alike.payload name different]

theorem body_get (alike : entry.Alike other) (name : String)
    (different : name ∉ Item.memberKeys) : entry.body.get name = other.body.get name := by
  rw [Value.get, Value.get, alike.body_get? name different]

theorem trait? (alike : entry.Alike other) : entry.trait? = other.trait? := by
  rw [Entry.trait?, Entry.trait?, alike.kind, alike.body_get "trait" (by decide)]

theorem reexportTarget? (alike : entry.Alike other) :
    entry.reexportTarget? = other.reexportTarget? := by
  rw [Entry.reexportTarget?, Entry.reexportTarget?, alike.kind, alike.body_get "id" (by decide)]

theorem owner? (alike : entry.Alike other) : entry.owner? = other.owner? := by
  unfold Entry.owner?
  rw [alike.source_get "parent" (by decide)]

theorem visibility (alike : entry.Alike other) : entry.visibility = other.visibility := by
  unfold Entry.visibility
  rw [alike.source_get "visibility" (by decide)]

theorem references (alike : entry.Alike other) :
    Outcome.Agree List.Perm entry.references other.references := by
  unfold Entry.references Entry.traitId?
  rw [alike.trait?, alike.reexportTarget?, alike.visibility]
  refine alike.members.bind fun found others permuted => .ok ?_
  refine .append_right _ (.append_right _ (.append_right _ ?_))
  exact (permuted.map _).append (alike.impls.map _)

theorem qualifiers (alike : entry.Alike other) :
    Index.entryQualifiers entry = Index.entryQualifiers other := by
  unfold Index.entryQualifiers Index.qualifiers
  rw [alike.kind, alike.body_get "header" (by decide), alike.body_get? "is_unsafe" (by decide)]

theorem item (alike : entry.Alike other) (parents : List ItemId) :
    Outcome.Agree Item.Alike (Index.item parents entry) (Index.item parents other) := by
  have generics : Index.generics entry.payload = Index.generics other.payload := by
    unfold Index.generics Value.get
    rw [alike.payload "generics" (by decide)]
  have attrs : Index.attrs entry.source = Index.attrs other.source := by
    unfold Index.attrs
    rw [alike.source_get "attrs" (by decide)]
  unfold Index.item Index.flag Entry.traitId?
  dsimp only
  rw [← alike.id, ← alike.tag, ← alike.kind, ← alike.qualifiers, ← attrs, ← generics,
    ← alike.visibility, ← alike.reexportTarget?, ← alike.trait?,
    ← alike.source_get "name" (by decide), ← alike.source "crate_id" (by decide),
    ← alike.source_get "deprecation" (by decide), ← alike.source_get "docs" (by decide),
    ← alike.body_get "name" (by decide), ← alike.body_get? "has_body" (by decide),
    ← alike.body_get? "is_synthetic" (by decide), ← alike.body_get? "synthetic" (by decide),
    ← alike.body_get "blanket_impl" (by decide)]
  refine .bind_same fun qualifiers => ?_
  refine alike.members.bind fun children otherChildren permuted => ?_
  refine .bind_same fun attrs => .bind_same fun generics => ?_
  refine .ok (.of_eq ?_ permuted alike.impls alike.body_get?)
  dsimp only

end Entry.Alike

end ApiCensus
