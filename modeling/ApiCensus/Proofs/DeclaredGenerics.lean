import ApiCensus.Census.Classify
import ApiCensus.Proofs.References
import ApiCensus.Signature.Declaration

/-!
# Generic parameters, counted and declared

The generic parameters of an item are read twice.  Loading turns them into records with a kind and
a mark for synthetic ones, and the census counts these; a declaration reads the payload again and
writes down the type and const parameters.  Both readings look at the key of the kind and at two
spellings of the mark, in their own ways.  For parameters as an index lists them they agree: what
is declared between the brackets is what is counted.
-/

namespace ApiCensus

namespace Signature

/-- Whether a reading leaves nothing to declare. -/
def ParamReading.isSkipped : ParamReading → Bool
  | .skipped => true
  | _ => false

theorem length_of_collectParams {readings : List ParamReading} {declared : List ParamDecl}
    (success : collectParams readings = .ok declared) :
    declared.length = readings.countP (!·.isSkipped) := by
  induction readings generalizing declared with
  | nil =>
      cases success
      rfl
  | cons reading readings induction =>
      cases reading with
      | skipped =>
          rw [collectParams] at success
          rw [induction success]
          simp [ParamReading.isSkipped]
      | declared param =>
          rw [collectParams] at success
          obtain ⟨rest, restOk, same⟩ := Outcome.bind_eq_ok_iff.mp success
          cases same
          simp [induction restOk, ParamReading.isSkipped]
      | nameless =>
          rw [collectParams] at success
          cases success

theorem renderParams_eq_empty_iff {declared : List ParamDecl} :
    renderParams declared = "" ↔ declared.length = 0 := by
  cases declared with
  | nil => simp [renderParams]
  | cons param declared => simp [renderParams, String.append_eq_empty_iff]

theorem listUnder_of_list {record : Value} {name : String} {elements : List Value}
    (found : record.get name = .list elements) : listUnder record name = .list elements := by
  rw [listUnder, found]
  cases elements <;> rfl

end Signature

namespace Index

/-- A generic parameter as an index lists it.  The kind is a record with one entry, whose detail is
a record or missing; whether the parameter is synthetic is said of types only, and in one spelling. -/
structure ListsParam (raw : Value) (word : String) (detail : Value) : Prop where
  kind : raw.get "kind" = .record [(.text word, detail)]
  known : word ∈ ["lifetime", "type", "const"]
  detailed : detail.isRecord = true ∨ detail = .null
  typesOnly : word ≠ "type" → detail.has "is_synthetic" = false ∧ detail.has "synthetic" = false
  spelling : detail.has "is_synthetic" = false ∨ detail.has "synthetic" = false

theorem flag_of_spelling {detail : Value} {name older : String}
    (spelling : detail.has name = false ∨ detail.has older = false) :
    flag detail name older = ((detail.get name).isTruthy || (detail.get older).isTruthy) := by
  simp only [Value.has, Option.isSome_eq_false_iff, Option.isNone_iff_eq_none] at spelling
  rcases spelling with absent | absent
  · cases found : detail.get? older <;>
      simp [flag, Value.get, absent, found, Value.isTruthy, Scalar.isTruthy]
  · cases found : detail.get? name <;>
      simp [flag, Value.get, absent, found, Value.isTruthy, Scalar.isTruthy]

theorem get_of_asRecord {detail record : Value}
    (recordOk : (detail.orElse Entry.noPayload).asRecord = .ok record) (name : String) :
    record.get name = detail.get name := by
  unfold Value.asRecord at recordOk
  split at recordOk
  · cases recordOk
    rw [Value.get, Value.get?_orElse_noPayload, ← Value.get]
  · cases recordOk

theorem isSkipped_of_readTypeParam {name detail : Value} {reading : Signature.ParamReading}
    (spelling : detail.has "is_synthetic" = false ∨ detail.has "synthetic" = false)
    (success : Signature.readTypeParam name detail = .ok reading) :
    reading.isSkipped = flag detail "is_synthetic" "synthetic" := by
  unfold Signature.readTypeParam at success
  obtain ⟨record, recordOk, success⟩ := Outcome.bind_eq_ok_iff.mp success
  have parts := get_of_asRecord recordOk
  rw [parts, parts, ← flag_of_spelling spelling] at success
  cases synthetic : flag detail "is_synthetic" "synthetic" with
  | true =>
      rw [synthetic] at success
      cases success
      rfl
  | false =>
      rw [synthetic, if_neg Bool.false_ne_true] at success
      obtain ⟨bounds, _, success⟩ := Outcome.bind_eq_ok_iff.mp success
      dsimp only at success
      -- With or without a default, the parameter is declared or lacks a name.
      split at success
      all_goals
        obtain ⟨filler, _, success⟩ := Outcome.bind_eq_ok_iff.mp success
        split at success
        · cases success
          rfl
        · split at success
          · cases success
            rfl
          · split at success
            · cases success
            · cases success
              rfl

namespace ListsParam

variable {raw detail : Value} {word : String}

theorem exists_genericParam (lists : ListsParam raw word detail) :
    ∃ param, genericParam? raw = some param ∧ param.kind = word ∧
      param.isSynthetic = flag detail "is_synthetic" "synthetic" := by
  have isRecord : raw.isRecord = true := by
    cases raw with
    | record entries => rfl
    | scalar content => cases lists.kind
    | list elements => cases lists.kind
  unfold genericParam?
  rw [if_pos isRecord, lists.kind]
  exact ⟨_, rfl, rfl, rfl⟩

theorem get?_kind (lists : ListsParam raw word detail) (name : String) :
    (raw.get "kind").get? name = if word = name then some detail else none := by
  rw [lists.kind]
  by_cases same : word = name
  · simp [Value.get?, Value.find?, Scalar.same, same]
  · simp [Value.get?, Value.find?, Scalar.same, same]

theorem isSkipped_eq (lists : ListsParam raw word detail) {reading : Signature.ParamReading}
    (success : Signature.readParam raw = .ok reading) :
    reading.isSkipped = (word == "lifetime" || flag detail "is_synthetic" "synthetic") := by
  unfold Signature.readParam at success
  dsimp only at success
  rw [lists.get?_kind, lists.get?_kind] at success
  have known := lists.known
  simp only [List.mem_cons, List.not_mem_nil, or_false] at known
  rcases known with rfl | rfl | rfl
  · cases success
    rfl
  · exact isSkipped_of_readTypeParam lists.spelling success
  · obtain ⟨record, _, success⟩ := Outcome.bind_eq_ok_iff.mp success
    obtain ⟨content, _, success⟩ := Outcome.bind_eq_ok_iff.mp success
    cases success
    have unmarked := lists.typesOnly (by decide)
    simp only [Value.has, Option.isSome_eq_false_iff, Option.isNone_iff_eq_none] at unmarked
    simp [Signature.ParamReading.isSkipped, flag, unmarked, Value.isTruthy, Scalar.isTruthy]

end ListsParam

theorem countP_genericParams {params : List Value} {readings : List Signature.ParamReading}
    (lists : ∀ raw ∈ params, ∃ word detail, ListsParam raw word detail)
    (readingsOk : params.mapM Signature.readParam = .ok readings) :
    (params.filterMap genericParam?).countP (fun param =>
      (param.kind != "lifetime" || false) && (!param.isSynthetic || false)) =
      readings.countP (!·.isSkipped) := by
  rw [Outcome.mapM_eq_ok_iff] at readingsOk
  induction readingsOk with
  | nil => rfl
  | @cons raw reading params readings readingOk _ induction =>
      obtain ⟨⟨word, detail, listed⟩, lists⟩ := List.forall_mem_cons.mp lists
      obtain ⟨param, paramFound, kind, synthetic⟩ := listed.exists_genericParam
      have counted : ((param.kind != "lifetime" || false) && (!param.isSynthetic || false)) =
          !reading.isSkipped := by
        rw [listed.isSkipped_eq readingOk, kind, synthetic, Bool.or_false, Bool.or_false,
          Bool.not_or]
        rfl
      rw [List.filterMap_cons_some paramFound, List.countP_cons, List.countP_cons, counted,
        induction lists]

theorem generics_of_payload {payload : Value} {params : List Value} {found : List GenericParam}
    (listed : (payload.get "generics").get "params" = .list params)
    (success : generics payload = .ok found) : found = params.filterMap genericParam? := by
  have isRecord : (payload.get "generics").isRecord = true := by
    cases shape : payload.get "generics" with
    | record entries => rfl
    | scalar content =>
        rw [shape] at listed
        cases listed
    | list elements =>
        rw [shape] at listed
        cases listed
  unfold generics at success
  dsimp only at success
  rw [if_pos isRecord, listed] at success
  cases params <;> cases success <;> rfl

/-- The parameters that are counted are those that the payload lists. -/
theorem generics_of_load {source : Source} {document : Document} {item : Item}
    (loaded : load source = .ok document) (member : item ∈ document.items) {params : List Value}
    (listed : (item.inner.get "generics").get "params" = .list params) :
    item.generics = params.filterMap genericParam? := by
  obtain ⟨_, top, _, _, valueOk⟩ := load_eq_ok_iff.mp loaded
  obtain ⟨_, entries, _, stages⟩ := ofValue_eq_ok_iff.mp valueOk
  obtain ⟨entry, _, itemOk⟩ := Outcome.exists_of_mem_mapM stages.itemsOk member
  have yields := yields_of_itemOf_eq_ok itemOk
  apply generics_of_payload _ yields.genericsOk
  rw [yields.inner, Entry.body] at listed
  split at listed
  · exact listed
  · cases listed

end Index

namespace Signature

/-- For an item of a loaded document whose generic parameters are listed in the usual form, the
declaration shows as many parameters between its brackets as the census counts without lifetimes
and synthetic parameters, and no brackets exactly if it counts none. -/
theorem declared_generics_counted {source : Index.Source} {document : Document} {item : Item}
    (loaded : Index.load source = .ok document) (member : item ∈ document.items)
    {params : List Value} (listed : (item.inner.get "generics").get "params" = .list params)
    (lists : ∀ raw ∈ params, ∃ word detail, Index.ListsParam raw word detail) {text : String}
    (success : formatParams (listUnder (item.inner.get "generics") "params") = .ok text) :
    ∃ declared, readParams (listUnder (item.inner.get "generics") "params") = .ok declared ∧
      text = renderParams declared ∧
      declared.length = Census.countGenerics false false item ∧
      (text = "" ↔ Census.countGenerics false false item = 0) := by
  rw [listUnder_of_list listed] at success ⊢
  obtain ⟨declared, declaredOk, rendered⟩ := Outcome.bind_eq_ok_iff.mp success
  cases rendered
  obtain ⟨_, partsOk, collected⟩ := Outcome.bind_eq_ok_iff.mp declaredOk
  cases partsOk
  obtain ⟨readings, readingsOk, collected⟩ := Outcome.bind_eq_ok_iff.mp collected
  have length : declared.length = Census.countGenerics false false item := by
    rw [length_of_collectParams collected, Census.countGenerics,
      Index.generics_of_load loaded member listed, Index.countP_genericParams lists readingsOk]
  refine ⟨declared, declaredOk, rfl, length, ?_⟩
  rw [renderParams_eq_empty_iff, length]

end Signature

namespace Index

/-- An index whose root has parameters of all kinds. -/
def genericText : String :=
  "\x7b\"format_version\":30,\"root\":0,\"index\":\x7b\"0\":\x7b\"inner\":\x7b\"struct\":" ++
    "\x7b\"generics\":\x7b\"params\":[\x7b\"kind\":\x7b\"lifetime\":\x7b\x7d\x7d\x7d," ++
    "\x7b\"name\":\"T\",\"kind\":\x7b\"type\":null\x7d\x7d," ++
    "\x7b\"kind\":\x7b\"type\":\x7b\"synthetic\":true\x7d\x7d\x7d," ++
    "\x7b\"name\":\"N\",\"kind\":\x7b\"const\":null\x7d\x7d]\x7d\x7d\x7d\x7d\x7d\x7d"

/-- The parameters of the root. -/
def genericParams : List Value :=
  [.ofFields [("kind", .ofFields [("lifetime", .record [])])],
    .ofFields [("name", .text "T"), ("kind", .ofFields [("type", .null)])],
    .ofFields [("kind", .ofFields [("type", .ofFields [("synthetic", .bool true)])])],
    .ofFields [("name", .text "N"), ("kind", .ofFields [("const", .null)])]]

/-- The payload of the root. -/
def genericPayload : Value :=
  .ofFields [("generics", .ofFields [("params", .list genericParams)])]

/-- The record that the text of the index holds. -/
def genericRecord : Value :=
  .ofFields [("format_version", .int 30), ("root", .int 0),
    ("index", .ofFields [("0", .ofFields [("inner", .ofFields [("struct", genericPayload)])])])]

/-- The root of the index. -/
def genericItem : Item :=
  { plainItem "0" .struct "struct" none [] [] genericPayload with
    generics := [⟨"", "lifetime", false⟩, ⟨"T", "type", false⟩, ⟨"", "type", true⟩,
      ⟨"N", "const", false⟩] }

/-- The document of the index. -/
def generic : Document where
  formatVersion := 30
  root := "0"
  crateName := "crate"
  items := [genericItem]
  paths := []
  externalCrates := []

theorem load_generic : load (.text genericText) = .ok generic := by
  have read : Json.read genericText = .ok genericRecord := by decide +kernel
  have order : ItemId.sort ["0"] = .ok ["0"] := ItemId.sort_singleton ⟨.number 0, rfl⟩
  refine load_of_stages read rfl ⟨rfl, rfl, rfl, rfl, rfl, rfl, ?_, rfl, rfl, rfl⟩
  exact Outcome.bind_eq_ok_iff.mpr ⟨_, Outcome.liftM_integer_eq_ok_iff.mpr order, rfl⟩

theorem listsParam_generic : ∀ raw ∈ genericParams, ∃ word detail, ListsParam raw word detail := by
  simp only [genericParams, List.forall_mem_cons, List.not_mem_nil, false_imp_iff, implies_true,
    and_true]
  refine ⟨⟨"lifetime", .record [], ?_⟩, ⟨"type", .null, ?_⟩,
    ⟨"type", .ofFields [("synthetic", .bool true)], ?_⟩, ⟨"const", .null, ?_⟩⟩
  all_goals exact ⟨rfl, by decide, by decide, by decide, by decide⟩

end Index

namespace Signature

open Index

theorem readParams_generic :
    readParams (.list genericParams) = .ok [.type "T" [] none, .const "N" (.named "()")] := by
  have unbounded : readBoundList (.list []) = .ok [] := by
    apply Outcome.bind_eq_ok_iff.mpr
    exact ⟨[], rfl, by rw [readBounds]⟩
  have unit : readType .null = .ok (.named "()") := by rw [readType]
  have named : readTypeParam (.text "T") .null = .ok (.declared (.type "T" [] none)) :=
    Outcome.bind_eq_ok_iff.mpr ⟨.record [], rfl, Outcome.bind_eq_ok_iff.mpr ⟨[], unbounded, rfl⟩⟩
  have constant : readParam (.ofFields [("name", .text "N"), ("kind", .ofFields [("const", .null)])]) =
      .ok (.declared (.const "N" (.named "()"))) :=
    Outcome.bind_eq_ok_iff.mpr ⟨.record [], rfl, Outcome.bind_eq_ok_iff.mpr ⟨_, unit, rfl⟩⟩
  have readings : genericParams.mapM readParam = .ok [.skipped, .declared (.type "T" [] none),
      .skipped, .declared (.const "N" (.named "()"))] := by
    rw [Outcome.mapM_eq_ok_iff]
    exact .cons rfl (.cons named (.cons rfl (.cons constant .nil)))
  exact Outcome.bind_eq_ok_iff.mpr ⟨_, rfl, Outcome.bind_eq_ok_iff.mpr ⟨_, readings, rfl⟩⟩

/-- Of the four parameters two are declared, and two are counted. -/
theorem generic_declared_counted :
    load (.text genericText) = .ok generic ∧
    ∃ declared, readParams (listUnder (genericItem.inner.get "generics") "params") = .ok declared ∧
      "<T, const N: ()>" = renderParams declared ∧ declared.length = 2 := by
  have format : formatParams (.list genericParams) = .ok "<T, const N: ()>" :=
    Outcome.bind_eq_ok_iff.mpr ⟨_, readParams_generic, rfl⟩
  obtain ⟨declared, declaredOk, rendered, length, _⟩ :=
    declared_generics_counted load_generic List.mem_cons_self rfl listsParam_generic format
  exact ⟨load_generic, declared, declaredOk, rendered, length⟩

end Signature

end ApiCensus
