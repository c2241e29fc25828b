import ApiCensus.Proofs.CommandRuns
import ApiCensus.Proofs.ReadingTexts
import ApiCensus.Proofs.ReferenceCheck

/-!
# How loading fails

If the containers in the records of an index have their expected shapes, loading it succeeds or
ends with a load error, but for four cases: an integer of the text has too many digits, an
identifier consists of digits and does not denote a number, the brackets of the text are nested
too deeply, or a union tells a shape that is no record.  The command line reports load errors
only; any other failure escapes it.
-/

namespace ApiCensus

open Outcome

/-! ### Records with containers of the expected shapes -/

namespace Entry

/-- The value is null or a record. -/
def MaybeRecord (value : Value) : Prop :=
  value.isNull = true ∨ value.isRecord = true

/-- The value is null or a list. -/
def MaybeList (value : Value) : Prop :=
  value.isNull = true ∨ value.isList = true

/-- The shapes that the payload of a struct, union or variant may tell are records. -/
def TellsShape (entry : Entry) : Prop :=
  MaybeRecord ((entry.body.get "kind").get "plain") ∧
    MaybeRecord ((entry.body.get "kind").get "struct")

/-- The containers of the record have their expected shapes. -/
structure Shaped (entry : Entry) : Prop where
  attrs : MaybeList (entry.source.get "attrs")
  header : entry.kind = .function →
    MaybeRecord (entry.body.get "header") ∨ MaybeList (entry.body.get "header")
  params : MaybeList ((entry.payload.get "generics").get "params")
  fields : entry.kind = .struct ∨ entry.kind = .variant → entry.TellsShape

/-- The parts of the record that may have a wrong shape can be read. -/
structure Readable (entry : Entry) : Prop where
  members : ∃ members, entry.members = .ok members
  qualifiers : ∃ qualifiers, Index.entryQualifiers entry = .ok qualifiers
  attrs : ∃ attrs, Index.attrs entry.source = .ok attrs
  generics : ∃ generics, Index.generics entry.payload = .ok generics

theorem exists_asRecord {value : Value} (maybe : MaybeRecord value) :
    ∃ record, (value.orElse noPayload).asRecord = .ok record := by
  rcases maybe with isNull | isRecord
  · cases value with
    | scalar content => cases content <;> first | exact ⟨_, rfl⟩ | cases isNull
    | _ => cases isNull
  · cases value with
    | record entries => cases entries <;> exact ⟨_, rfl⟩
    | _ => cases isRecord

theorem exists_members_of_maybeList {value : Value} (maybe : MaybeList value) :
    ∃ elements, (value.orElse (.list [])).members = .ok elements := by
  rcases maybe with isNull | isList
  · cases value with
    | scalar content => cases content <;> first | exact ⟨_, rfl⟩ | cases isNull
    | _ => cases isNull
  · cases value with
    | list elements => cases elements <;> exact ⟨_, rfl⟩
    | _ => cases isList

theorem exists_shapeFields {shape : Value} (plain : MaybeRecord (shape.get "plain"))
    (named : MaybeRecord (shape.get "struct")) :
    ∃ fields, shapeFields shape = .ok fields := by
  unfold shapeFields
  split
  · rename_i found
    rw [Value.get, found] at plain
    obtain ⟨record, recordOk⟩ := exists_asRecord plain
    exact ⟨_, bind_eq_ok_iff.mpr ⟨record, recordOk, rfl⟩⟩
  · rename_i found
    rw [Value.get, found] at named
    obtain ⟨record, recordOk⟩ := exists_asRecord named
    exact ⟨_, bind_eq_ok_iff.mpr ⟨record, recordOk, rfl⟩⟩
  · exact ⟨_, rfl⟩
  · exact ⟨_, rfl⟩

theorem exists_members {entry : Entry}
    (tells : entry.kind = .struct ∨ entry.kind = .union ∨ entry.kind = .variant →
      entry.TellsShape) : ∃ members, entry.members = .ok members := by
  have shaped : entry.kind = .struct ∨ entry.kind = .union ∨ entry.kind = .variant →
      ∃ fields, shapeFields (entry.body.get "kind") = .ok fields :=
    fun isShaped => exists_shapeFields (tells isShaped).1 (tells isShaped).2
  unfold members
  dsimp only
  cases kind : entry.kind <;> simp only [kind] at shaped ⊢
  all_goals first
    | exact ⟨_, rfl⟩
    | (split
       · exact ⟨_, rfl⟩
       · exact shaped (by simp))

theorem exists_qualifiers {body : Value}
    (maybe : MaybeRecord (body.get "header") ∨ MaybeList (body.get "header")) :
    ∃ qualifiers, Index.qualifiers body = .ok qualifiers := by
  unfold Index.qualifiers
  generalize body.get "header" = header at maybe
  cases header with
  | scalar content =>
      cases content with
      | null => exact ⟨_, rfl⟩
      | _ => rcases maybe with (maybe | maybe) | maybe | maybe <;> cases maybe
  | list words => cases words <;> exact ⟨_, rfl⟩
  | record entries => cases entries <;> exact ⟨_, rfl⟩

/-- A record with containers of the expected shapes can be read, unless it is a union that tells
a shape of another kind. -/
theorem Shaped.readable {entry : Entry} (shaped : entry.Shaped)
    (union : entry.kind = .union → entry.TellsShape) : entry.Readable where
  members := by
    apply exists_members
    rintro (isStruct | isUnion | isVariant)
    · exact shaped.fields (.inl isStruct)
    · exact union isUnion
    · exact shaped.fields (.inr isVariant)
  qualifiers := by
    unfold Index.entryQualifiers
    split
    · rename_i isFunction
      exact exists_qualifiers (shaped.header isFunction)
    all_goals exact ⟨_, rfl⟩
  attrs := by
    obtain ⟨elements, elementsOk⟩ := exists_members_of_maybeList shaped.attrs
    exact ⟨_, bind_eq_ok_iff.mpr ⟨elements, elementsOk, rfl⟩⟩
  generics := by
    unfold Index.generics
    dsimp only
    split
    · obtain ⟨elements, elementsOk⟩ := exists_members_of_maybeList shaped.params
      exact ⟨_, bind_eq_ok_iff.mpr ⟨elements, elementsOk, rfl⟩⟩
    · exact ⟨_, rfl⟩

end Entry

/-! ### The stages of loading -/

namespace Index

/-- What can go wrong once the identifiers are in order: a load error, or a part of a record
that cannot be read. -/
def Misfits (entries : List Entry) (failure : Failure) : Prop :=
  failure.IsLoad ∨ (∃ cause, failure = .shape cause) ∧ ∃ entry ∈ entries, ¬ entry.Readable

theorem failsAs_liftM {α : Type} {entries : List Entry} {entry : Entry}
    (member : entry ∈ entries) {outcome : Except ShapeError α}
    (readable : entry.Readable → ∃ value, outcome = .ok value) :
    FailsAs (Misfits entries) (liftM outcome : Except Failure α) := by
  intro failure failed
  obtain ⟨cause, failed, same⟩ := mapError_eq_error_iff.mp failed
  refine .inr ⟨⟨cause, same.symm⟩, entry, member, fun isReadable => ?_⟩
  obtain ⟨value, valueOk⟩ := readable isReadable
  cases failed.symm.trans valueOk

theorem failsAs_checkReference {entries : List Entry} (known : List ItemId) (referrer : ItemId)
    (reference : Reference) :
    FailsAs (Misfits entries) (checkReference known referrer reference) := by
  unfold checkReference
  split
  · exact failsAs_ok _
  · exact failsAs_error (.inl ⟨_, rfl⟩)

theorem failsAs_checkEntry {entries : List Entry} {entry : Entry} (member : entry ∈ entries)
    (known : List ItemId) : FailsAs (Misfits entries) (checkEntry known entry) := by
  apply failsAs_bind
  · exact failsAs_forM fun reference _ => failsAs_checkReference known entry.id reference
  · intro _ _
    apply failsAs_bind
    · apply failsAs_liftM member
      intro readable
      obtain ⟨members, membersOk⟩ := readable.members
      exact ⟨_, bind_eq_ok_iff.mpr ⟨members, membersOk, rfl⟩⟩
    · exact fun references _ =>
        failsAs_forM fun reference _ => failsAs_checkReference known entry.id reference

theorem failsAs_listings (entries : List Entry) :
    FailsAs (Misfits entries) (listings entries) := by
  apply failsAs_mapM
  intro entry member
  apply failsAs_bind (failsAs_liftM member fun readable => readable.members)
  exact fun _ _ => failsAs_ok _

theorem exists_parents {entries : List Entry} {listed : List (ItemId × List ItemId)}
    (keyed : ∀ id ∈ entries.map (·.id), id.HasKey) (listedOk : listings entries = .ok listed)
    (root : ItemId) (entry : Entry) : ∃ containers, parents root listed entry = .ok containers := by
  unfold parents
  split
  · exact ⟨_, rfl⟩
  · split
    · exact ⟨_, rfl⟩
    · have owners : ∀ id ∈ (listed.filter fun listing => listing.2.contains entry.id).map (·.1),
          id.HasKey := by
        intro id member
        apply keyed id
        rw [← listings_ids listedOk]
        exact (List.filter_sublist.map _).subset member
      obtain ⟨containers, sorted⟩ := ItemId.exists_sort_eq_ok owners
      exact ⟨containers, liftM_integer_eq_ok_iff.mpr sorted⟩

theorem exists_item {entry : Entry} (readable : entry.Readable) (containers : List ItemId) :
    ∃ made, item containers entry = .ok made := by
  obtain ⟨qualifiers, qualifiersOk⟩ := readable.qualifiers
  obtain ⟨members, membersOk⟩ := readable.members
  obtain ⟨attrs, attrsOk⟩ := readable.attrs
  obtain ⟨generics, genericsOk⟩ := readable.generics
  unfold item
  dsimp only
  rw [qualifiersOk, membersOk, attrsOk, genericsOk]
  exact ⟨_, rfl⟩

theorem failsAs_items {entries : List Entry} {listed : List (ItemId × List ItemId)}
    (keyed : ∀ id ∈ entries.map (·.id), id.HasKey) (listedOk : listings entries = .ok listed)
    (root : ItemId) : FailsAs (Misfits entries) (entries.mapM (itemOf root listed)) := by
  apply failsAs_mapM
  intro entry member
  unfold itemOf
  apply failsAs_bind
  · obtain ⟨containers, containersOk⟩ := exists_parents keyed listedOk root entry
    rw [containersOk]
    exact failsAs_ok containers
  · intro containers _
    exact failsAs_liftM member fun readable => exists_item readable containers

/-- Once the identifiers are in order, a failure is a load error or comes from a record that
cannot be read. -/
theorem failsAs_document {opened : Opening} {order : List ItemId}
    (sorted : ItemId.sort (opened.entries.map (·.id)) = .ok order) :
    FailsAs (Misfits opened.entries) opened.document := by
  have keyed : ∀ id ∈ opened.entries.map (·.id), id.HasKey :=
    fun id member => ItemId.hasKey_of_sort_eq_ok sorted member
  unfold Opening.document
  apply failsAs_bind
  · unfold checkReferences
    dsimp only
    rw [sorted]
    apply failsAs_forM
    intro id _
    split
    · rename_i entry found
      exact failsAs_checkEntry (List.mem_of_find?_eq_some found) _
    · exact failsAs_ok _
  · intro _ _
    apply failsAs_bind (failsAs_listings opened.entries)
    intro listed listedOk
    apply failsAs_bind (failsAs_items keyed listedOk opened.root)
    exact fun _ _ => failsAs_ok _

theorem document_of_unsorted {opened : Opening} {cause : Number.IntegerError}
    (unsorted : ItemId.sort (opened.entries.map (·.id)) = .error cause) :
    opened.document = .error (.invalid (.integer cause)) := by
  unfold Opening.document checkReferences
  dsimp only
  rw [unsorted]
  rfl

/-! ### Sources -/

/-- The entry is made from a record in the index that the source holds. -/
def Source.HoldsEntry (source : Source) (entry : Entry) : Prop :=
  ∃ top index part, source.Holds top ∧ top.get "index" = .record index ∧ part ∈ index ∧
    entry = .ofRecord part.1.toText part.2

/-- The containers of all records in the index have their expected shapes. -/
def Source.Shaped (source : Source) : Prop :=
  ∀ entry, source.HoldsEntry entry → entry.Shaped

/-- Some number of the text or, where everything up to the order of identifiers is in place,
some identifier is written in digits that cannot be converted. -/
def Source.Unconvertible (source : Source) (cause : Number.IntegerError) : Prop :=
  (∃ text, source.read = .ok text ∧ Json.read text = .error (.integer cause)) ∨
    ∃ top opened before id after, source.Holds top ∧ opening top = .ok opened ∧
      opened.entries.map (·.id) = before ++ id :: after ∧
      (∀ other ∈ before, other.HasKey) ∧ id.key = .error cause

/-- The brackets of the text are nested too deeply. -/
def Source.TooDeep (source : Source) : Prop :=
  ∃ text, source.read = .ok text ∧ Json.read text = .error .tooDeep

theorem holdsEntry_of_opening {source : Source} {top : Value} {opened : Opening}
    (holds : source.Holds top) (openedOk : opening top = .ok opened) {entry : Entry}
    (member : entry ∈ opened.entries) : source.HoldsEntry entry := by
  obtain ⟨index, indexOk, _, entriesOk⟩ := of_opening_eq_ok openedOk
  obtain ⟨part, partMember, entryOk⟩ := exists_of_mem_mapM entriesOk member
  dsimp only at entryOk
  split at entryOk
  · cases entryOk
    exact ⟨top, index, part, holds, indexOk, partMember, rfl⟩
  · cases entryOk

/-- Every failure of loading is a load error, a failed conversion, a text that is nested too
deeply, or comes from a record that cannot be read. -/
theorem failsAs_load (source : Source) :
    FailsAs (fun failure => failure.IsLoad ∨
      (∃ cause, failure = .invalid (.integer cause) ∧ source.Unconvertible cause) ∨
      (failure = .tooDeep ∧ source.TooDeep) ∨
      (∃ cause, failure = .shape cause) ∧ ∃ entry, source.HoldsEntry entry ∧ ¬ entry.Readable)
      (load source) := by
  intro failure failed
  rcases bind_eq_error_iff.mp failed with failed | ⟨text, textOk, failed⟩
  · exact .inl (failsAs_read source failure failed).1
  rcases bind_eq_error_iff.mp failed with failed | ⟨top, topOk, failed⟩
  · rcases of_readRecord_eq_error failed with early | ⟨cause, same, unread⟩ | ⟨same, unread⟩
    · exact .inl early.1
    · exact .inr (.inl ⟨cause, same, .inl ⟨text, textOk, unread⟩⟩)
    · exact .inr (.inr (.inl ⟨same, text, textOk, unread⟩))
  rw [ofValue_eq] at failed
  rcases bind_eq_error_iff.mp failed with failed | ⟨opened, openedOk, failed⟩
  · exact .inl (failsAs_opening top failure failed).1
  have holds : source.Holds top := ⟨text, textOk, topOk⟩
  cases sorted : ItemId.sort (opened.entries.map (·.id)) with
  | error cause =>
      cases (document_of_unsorted sorted).symm.trans failed
      obtain ⟨before, id, after, split, keyed, unkeyed⟩ := ItemId.sort_eq_error_iff.mp sorted
      exact .inr (.inl ⟨cause, rfl, .inr
        ⟨top, opened, before, id, after, holds, openedOk, split, keyed, unkeyed⟩⟩)
  | ok order =>
      rcases failsAs_document sorted failure failed with isLoad | ⟨isShape, entry, member, unread⟩
      · exact .inl isLoad
      · exact .inr (.inr (.inr
          ⟨isShape, entry, holdsEntry_of_opening holds openedOk member, unread⟩))

theorem load_of_unconvertible {source : Source} {cause : Number.IntegerError}
    (unconvertible : source.Unconvertible cause) :
    load source = .error (.invalid (.integer cause)) := by
  rcases unconvertible with ⟨text, textOk, unread⟩ |
    ⟨top, opened, before, id, after, ⟨text, textOk, topOk⟩, openedOk, split, keyed, unkeyed⟩
  · refine bind_eq_error_iff.mpr (.inr ⟨text, textOk, bind_eq_error_iff.mpr (.inl ?_)⟩)
    unfold readRecord
    rw [unread]
    rfl
  · refine bind_eq_error_iff.mpr (.inr ⟨text, textOk, bind_eq_error_iff.mpr (.inr
      ⟨top, topOk, ?_⟩)⟩)
    rw [ofValue_eq, openedOk]
    apply document_of_unsorted
    exact ItemId.sort_eq_error_iff.mpr ⟨before, id, after, split, keyed, unkeyed⟩

theorem load_eq_integer_iff {source : Source} {cause : Number.IntegerError} :
    load source = .error (.invalid (.integer cause)) ↔ source.Unconvertible cause := by
  constructor
  · intro failed
    rcases failsAs_load source _ failed with ⟨_, same⟩ | ⟨reason, same, unconvertible⟩ |
      ⟨same, _⟩ | ⟨⟨_, same⟩, _⟩
    · cases same
    · cases same
      exact unconvertible
    · cases same
    · cases same
  · exact load_of_unconvertible

theorem load_eq_tooDeep_iff {source : Source} :
    load source = .error .tooDeep ↔ source.TooDeep := by
  constructor
  · intro failed
    rcases failsAs_load source _ failed with ⟨_, same⟩ | ⟨_, same, _⟩ | ⟨_, tooDeep⟩ |
      ⟨⟨_, same⟩, _⟩
    · cases same
    · cases same
    · exact tooDeep
    · cases same
  · rintro ⟨text, textOk, unread⟩
    refine bind_eq_error_iff.mpr (.inr ⟨text, textOk, bind_eq_error_iff.mpr (.inl ?_)⟩)
    unfold readRecord
    rw [unread]
    rfl

end Index

/-! ### Runs -/

namespace CommandLine

theorem inputWords?_load (cause : LoadError) :
    inputWords? (.load cause) = some ("error [load]: " ++ cause.message ++ "\n") :=
  rfl

/-- There are no words for a failure to load that is no load error. -/
theorem inputWords?_of_load {source : Index.Source} {failure : Failure}
    (failed : Index.load source = .error failure) (other : ∀ cause, failure ≠ .load cause) :
    inputWords? failure = none := by
  rcases Index.failsAs_load source failure failed with ⟨cause, same⟩ | ⟨_, rfl, _⟩ | ⟨rfl, _⟩ |
    ⟨⟨_, rfl⟩, _⟩
  · exact absurd same (other cause)
  · rfl
  · rfl
  · rfl

/-- A run that stops with words for a failure shows them last. -/
theorem Halt.messages_outcome {disk : Files.Disk} {halt : Halt} {line : String}
    (words : halt.words? = some line) (files : disk.State) (remarks : List Remark) :
    ∃ shown, (halt.outcome files remarks).messages = shown ++ line := by
  unfold Outcome.messages outcome lastWords
  rw [words, List.filterMap_append, String.join, List.foldl_append]
  exact ⟨_, rfl⟩

end CommandLine

namespace Index

open CommandLine

/-- Loading an index whose containers have their expected shapes ends in a document or a load
error, unless a number cannot be converted, the text is nested too deeply or a union tells a wrong
shape. -/
theorem Source.Shaped.load_cases {source : Source} (shaped : source.Shaped) :
    (∃ document, load source = .ok document) ∨ (∃ cause, load source = .error (.load cause)) ∨
      (∃ cause, source.Unconvertible cause) ∨ source.TooDeep ∨
      (∃ cause, load source = .error (.shape cause)) ∧
        ∃ entry, source.HoldsEntry entry ∧ entry.kind = .union ∧ ¬ entry.TellsShape := by
  cases loaded : load source with
  | ok document => exact .inl ⟨document, rfl⟩
  | error failure =>
      rcases failsAs_load source failure loaded with ⟨cause, same⟩ | ⟨cause, _, fails⟩ |
        ⟨_, tooDeep⟩ | ⟨⟨cause, same⟩, entry, holds, unread⟩
      · exact .inr (.inl ⟨cause, same ▸ rfl⟩)
      · exact .inr (.inr (.inl ⟨cause, fails⟩))
      · exact .inr (.inr (.inr (.inl tooDeep)))
      · refine .inr (.inr (.inr (.inr ⟨⟨cause, same ▸ rfl⟩, entry, holds, ?_⟩)))
        by_contra fits
        rw [not_and_not_right] at fits
        exact unread ((shaped entry holds).readable fits)

/-- The first input that is read but not loaded decides how a run of the command line ends. -/
theorem run_of_load {content : List UInt8} {failure : Failure}
    (failed : load (.bytes content) = .error failure) {request : Request} {host : Host}
    {files : host.disk.State} {config : Value} {before after : List Files.Path}
    {path : Files.Path}
    (configOk : Config.load host.settings host.disk files request.config = .ok config)
    (split : request.inputs = before ++ path :: after)
    (earlier : ∀ other ∈ before, ∃ analyzed,
      Request.analyzeInput host files config other = .ok analyzed)
    (readOk : host.disk.read files path = .ok content) :
    ∃ remarks, request.run host files = (Halt.on inputWords? failure).outcome files remarks := by
  refine Request.run_of_input configOk split earlier ?_
  refine bind_eq_error_iff.mpr (.inr ⟨content, mapError_eq_ok_iff.mpr readOk, ?_⟩)
  exact bind_eq_error_iff.mpr (.inl failed)

/-- Loading an index whose containers have their expected shapes ends in a document or a load
error, unless a number cannot be converted, the text is nested too deeply or a union tells a wrong
shape.  Numbers fail exactly in the text and in identifiers.  A text is nested too deeply only if
it opens more brackets than may be open at once, and it is if it starts with them.  A run of the
command line reports the first loading that ends in a load error, and any other failure of it
escapes. -/
theorem load_failures {source : Source} (shaped : source.Shaped) :
    ((∃ document, load source = .ok document) ∨ (∃ cause, load source = .error (.load cause)) ∨
      (∃ cause, source.Unconvertible cause) ∨ source.TooDeep ∨
      (∃ cause, load source = .error (.shape cause)) ∧
        ∃ entry, source.HoldsEntry entry ∧ entry.kind = .union ∧ ¬ entry.TellsShape) ∧
    (∀ cause, load source = .error (.invalid (.integer cause)) ↔ source.Unconvertible cause) ∧
    (load source = .error .tooDeep ↔ source.TooDeep) ∧
    (source.TooDeep →
      ∃ text, source.read = .ok text ∧ Json.maxDepth < Json.openings text.toList) ∧
    (∀ rest, source = .text (String.ofList (List.replicate (Json.maxDepth + 1) '[' ++ rest)) →
      source.TooDeep) ∧
    ∀ (content : List UInt8) (failure : Failure), source = .bytes content →
      load source = .error failure →
      ∀ (request : Request) (host : Host) (files : host.disk.State) (config : Value)
        (before after : List Files.Path) (path : Files.Path),
      Config.load host.settings host.disk files request.config = .ok config →
      request.inputs = before ++ path :: after →
      (∀ other ∈ before, ∃ analyzed, Request.analyzeInput host files config other = .ok analyzed) →
      host.disk.read files path = .ok content →
      (∀ cause, failure = .load cause → (request.run host files).ending = .exit 1 ∧
        ∃ shown, (request.run host files).messages =
          shown ++ ("error [load]: " ++ cause.message ++ "\n")) ∧
      ((∀ cause, failure ≠ .load cause) →
        (request.run host files).ending = .escape failure) := by
  refine ⟨shaped.load_cases, fun _ => load_eq_integer_iff, load_eq_tooDeep_iff, ?_, ?_, ?_⟩
  · rintro ⟨text, textOk, unread⟩
    exact ⟨text, textOk, Json.openings_of_tooDeep unread⟩
  · rintro rest rfl
    exact ⟨_, rfl, Json.read_of_nested rest⟩
  · intro content failure isBytes failed request host files config before after path configOk split
      earlier readOk
    subst isBytes
    obtain ⟨remarks, same⟩ := run_of_load failed configOk split earlier readOk
    rw [same]
    constructor
    · rintro cause rfl
      exact ⟨rfl, Halt.messages_outcome (inputWords?_load cause) files remarks⟩
    · intro other
      have silent := inputWords?_of_load failed other
      unfold Halt.outcome Halt.ending Halt.on
      rw [silent]

/-- An index whose only item is known by a superscript digit. -/
def superscriptText : String :=
  "\x7b\"format_version\":30,\"root\":\"²\",\"index\":\x7b\"²\":\x7b\x7d\x7d\x7d"

/-- The record that the text of this index holds. -/
def superscriptRecord : Value :=
  .ofFields [("format_version", .int 30), ("root", .text "²"),
    ("index", .ofFields [("²", .record [])])]

/-- The index as the content of a file. -/
def superscriptSource : Source :=
  .bytes (Text.Utf8.encode superscriptText)

theorem holds_superscript {top : Value} :
    superscriptSource.Holds top ↔ top = superscriptRecord := by
  have decoded : Text.Utf8.decode (Text.Utf8.encode superscriptText) = .ok superscriptText := by
    decide +kernel
  have textOk : superscriptSource.read = .ok superscriptText := mapError_eq_ok_iff.mpr decoded
  have read : Json.read superscriptText = .ok superscriptRecord := by decide +kernel
  have topOk : readRecord superscriptText = .ok superscriptRecord := by
    unfold readRecord
    rw [read]
    rfl
  constructor
  · intro holds
    obtain ⟨text, found, foundTop⟩ := holds
    cases textOk.symm.trans found
    cases topOk.symm.trans foundTop
    rfl
  · intro same
    exact ⟨superscriptText, textOk, same ▸ topOk⟩

theorem shaped_superscript : superscriptSource.Shaped := by
  intro entry holds
  obtain ⟨top, index, part, holds, indexOk, member, same⟩ := holds
  cases holds_superscript.mp holds
  cases indexOk
  cases List.mem_singleton.mp member
  subst same
  refine ⟨.inl rfl, fun _ => .inl (.inl rfl), .inl rfl, fun _ => ⟨.inl rfl, .inl rfl⟩⟩

theorem unconvertible_superscript : superscriptSource.Unconvertible (.malformed 10 "²") :=
  .inr ⟨superscriptRecord, ⟨30, [], [], [.ofRecord "²" (.record [])], "²"⟩, [], "²", [],
    holds_superscript.mpr rfl, rfl, rfl, fun _ member => absurd member List.not_mem_nil,
    by decide +kernel⟩

/-- The superscript digit is the only thing that is wrong with this index, and loading it does
not end in a load error. -/
theorem superscript_escapes :
    superscriptSource.Shaped ∧
      load superscriptSource = .error (.invalid (.integer (.malformed 10 "²"))) :=
  ⟨shaped_superscript, load_of_unconvertible unconvertible_superscript⟩

/-- A tree with nothing but this index. -/
def superscriptTree : Files.Tree where
  files := [(["i.json"], Text.Utf8.encode superscriptText)]

/-- Reports of this index end with the failed conversion, whatever settings are read with and
whatever is printed with. -/
theorem superscript_run_fails :
    superscriptSource.Shaped ∧ superscriptSource.Unconvertible (.malformed 10 "²") ∧
      ∀ settings printer, (Request.run ⟨.report .csv .category, [.ofText "i.json"], none, none, 0⟩
        ⟨Files.treeDisk, settings, printer⟩ superscriptTree).ending =
          .escape (.invalid (.integer (.malformed 10 "²"))) := by
  have failed := load_of_unconvertible unconvertible_superscript
  have readOk : superscriptTree.read (.ofText "i.json") =
      .ok (Text.Utf8.encode superscriptText) := by
    decide +kernel
  obtain ⟨_, conversions, _, _, _, runs⟩ := load_failures shaped_superscript
  refine ⟨shaped_superscript, (conversions _).mp failed, ?_⟩
  intro settings printer
  exact (runs _ _ rfl failed _ ⟨Files.treeDisk, settings, printer⟩ superscriptTree Config.defaults
    [] [] (.ofText "i.json") rfl rfl (by simp) readOk).2 nofun

end Index

end ApiCensus
