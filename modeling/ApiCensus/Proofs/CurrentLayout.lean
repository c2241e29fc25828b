import ApiCensus.Proofs.RecordKeys
import ApiCensus.Proofs.ReorderedLoading

/-!
# Indexes in the current layout

Older format versions name the kind of a record in a field beside its payload, have other tags
for some kinds, list the qualifiers of a function as words and spell some fields differently.
`currentLayout` rewrites all of this into the spelling of current versions.  For every function
that reads an entry there is one fact: it finds the same in the rewritten entry.
-/

namespace ApiCensus

namespace Value

variable {value : Value}

/-- Change the part under a name. -/
def alter (name : String) (change : Value → Value) : Value → Value
  | .record entries =>
      .record (entries.map fun (key, part) =>
        (key, if key = .text name then change part else part))
  | other => other

/-- Move the part under an older name to a newer one, unless there is something already. -/
def rename (older newer : String) (value : Value) : Value :=
  if value.has newer then value
  else
    match value with
    | .record entries =>
        .record (entries.map fun (key, part) =>
          (if key = .text older then .text newer else key, part))
    | other => other

/-- Take away the part under a name. -/
def without (name : String) : Value → Value
  | .record entries => .record (entries.filter fun entry => entry.1 ≠ .text name)
  | other => other

/-- Put a part under a name. -/
def assign (value : Value) (name : String) (part : Value) : Value :=
  match value with
  | .record entries => .record (put (.text name) part entries)
  | other => other

theorem find?_cons (name : String) (key : Scalar) (part : Value)
    (entries : List (Scalar × Value)) :
    find? (.text name) ((key, part) :: entries) =
      if key = .text name then some part else find? (.text name) entries := by
  unfold find?
  by_cases here : key = .text name
  · rw [List.find?_cons_of_pos (by exact Scalar.same_text_iff.mpr here), if_pos here]
    rfl
  · rw [List.find?_cons_of_neg (by exact fun same => here (Scalar.same_text_iff.mp same)),
      if_neg here]

theorem get?_alter (name : String) (change : Value → Value) (value : Value) (wanted : String) :
    (value.alter name change).get? wanted =
      if wanted = name then (value.get? wanted).map change else value.get? wanted := by
  cases value with
  | scalar content => simp [alter, get?]
  | list elements => simp [alter, get?]
  | record entries =>
      simp only [alter, get?]
      induction entries with
      | nil => simp [find?]
      | cons entry entries induction =>
          obtain ⟨key, part⟩ := entry
          rw [List.map_cons, find?_cons, find?_cons, induction]
          by_cases here : key = .text wanted
          · subst here
            by_cases same : wanted = name <;> simp [same]
          · by_cases same : wanted = name
            · subst same
              simp [here]
            · simp [here, same]

theorem get_alter {change : Value → Value} (absent : change .null = .null) (name : String)
    (value : Value) : (value.alter name change).get name = change (value.get name) := by
  rw [get, get?_alter, if_pos rfl, get]
  cases value.get? name with
  | none => exact absent.symm
  | some part => rfl

theorem get_alter_of_ne {name wanted : String} (different : wanted ≠ name)
    (change : Value → Value) (value : Value) :
    (value.alter name change).get wanted = value.get wanted := by
  rw [get, get?_alter, if_neg different, get]

/-- Where there is nothing under the newer name, it takes what is under the older one. -/
theorem get?_rename {older newer : String} (absent : value.get? newer = none) (wanted : String) :
    (value.rename older newer).get? wanted =
      if wanted = newer then value.get? older
      else if wanted = older then none else value.get? wanted := by
  unfold rename
  rw [if_neg (by simp [has, absent])]
  cases value with
  | scalar content => simp [get?]
  | list elements => simp [get?]
  | record entries =>
      simp only [get?] at absent ⊢
      induction entries with
      | nil => simp [find?]
      | cons entry entries induction =>
          obtain ⟨key, part⟩ := entry
          rw [find?_cons] at absent
          split at absent
          · cases absent
          · rename_i notNewer
            rw [List.map_cons, find?_cons, find?_cons, find?_cons, induction absent]
            by_cases old : key = .text older
            · subst old
              have moved : older ≠ newer := fun same => notNewer (congrArg Scalar.text same)
              by_cases same : wanted = newer
              · simp [same]
              · by_cases also : wanted = older
                · subst also
                  simp [moved, moved.symm]
                · simp [same, also, Ne.symm same, Ne.symm also]
            · by_cases here : key = .text wanted
              · subst here
                have notOlder : wanted ≠ older := fun same => old (congrArg Scalar.text same)
                have different : wanted ≠ newer := fun same => notNewer (congrArg Scalar.text same)
                simp [notOlder, different]
              · simp [old, here]

theorem rename_of_present {older newer : String} {part : Value}
    (present : value.get? newer = some part) : value.rename older newer = value := by
  unfold rename
  exact if_pos (by simp [has, present])

theorem get?_rename_of_ne {older newer wanted : String} (notOlder : wanted ≠ older)
    (notNewer : wanted ≠ newer) : (value.rename older newer).get? wanted = value.get? wanted := by
  cases found : value.get? newer with
  | some part => rw [rename_of_present found]
  | none => rw [get?_rename found, if_neg notNewer, if_neg notOlder]

theorem get_rename_of_ne {older newer wanted : String} (notOlder : wanted ≠ older)
    (notNewer : wanted ≠ newer) : (value.rename older newer).get wanted = value.get wanted := by
  rw [get, get, get?_rename_of_ne notOlder notNewer]

theorem get?_without (name : String) (value : Value) (wanted : String) :
    (value.without name).get? wanted = if wanted = name then none else value.get? wanted := by
  cases value with
  | scalar content => simp [without, get?]
  | list elements => simp [without, get?]
  | record entries =>
      simp only [without, get?]
      induction entries with
      | nil => simp [find?]
      | cons entry entries induction =>
          obtain ⟨key, part⟩ := entry
          by_cases gone : key = .text name
          · subst gone
            rw [List.filter_cons_of_neg (by simp), find?_cons, induction]
            by_cases same : wanted = name
            · simp [same]
            · simp [same, Ne.symm same]
          · rw [List.filter_cons_of_pos (by simp [gone]), find?_cons, find?_cons, induction]
            by_cases same : wanted = name
            · subst same
              simp [gone]
            · simp [same]

/-- Only the key that a part is put under leads to something new. -/
theorem find?_put (key : Scalar) (part : Value) (entries : List (Scalar × Value))
    (wanted : String) :
    find? (.text wanted) (put key part entries) =
      if key = .text wanted then some part else find? (.text wanted) entries := by
  by_cases same : key.same (.text wanted) = true
  · rw [find?_put_of_same same, if_pos (Scalar.same_text_iff.mp same)]
  · rw [find?_put_of_other same, if_neg fun found => same (Scalar.same_text_iff.mpr found)]

theorem get?_assign {name : String} (part : Value) (isRecord : value.isRecord = true)
    (wanted : String) :
    (value.assign name part).get? wanted = if wanted = name then some part else value.get? wanted := by
  cases value with
  | scalar content => cases isRecord
  | list elements => cases isRecord
  | record entries =>
      rw [assign, get?, find?_put]
      simp [get?, eq_comm]

theorem isRecord_of_get_text {name content : String} (found : value.get name = .text content) :
    value.isRecord = true := by
  cases value with
  | record entries => rfl
  | _ => cases found

theorem isRecord_without (name : String) (value : Value) :
    (value.without name).isRecord = value.isRecord := by
  cases value <;> rfl

theorem isRecord_assign (value : Value) (name : String) (part : Value) :
    (value.assign name part).isRecord = value.isRecord := by
  cases value <;> rfl

theorem isRecord_alter (name : String) (change : Value → Value) (value : Value) :
    (value.alter name change).isRecord = value.isRecord := by
  cases value <;> rfl

theorem isRecord_rename (older newer : String) (value : Value) :
    (value.rename older newer).isRecord = value.isRecord := by
  unfold rename
  split
  · rfl
  · cases value <;> rfl

end Value

namespace Index

/-! ### The rewriting -/

/-- Truth values in place of words, and newer names in place of older ones. -/
def currentHeader (kind : ItemKind) : Value → Value
  | .list words =>
      let lists (word : String) : Value := .bool (words.any fun value => value.toText == word)
      if kind = .function then
        .ofFields [("is_const", lists "const"), ("is_async", lists "async"),
          ("is_unsafe", lists "unsafe")]
      else .list words
  | header =>
      ((header.rename "const_" "is_const").rename "async_" "is_async").rename "unsafe_" "is_unsafe"

/-- The details of a generic parameter, by its kind. -/
def currentDetails : Value → Value
  | .record details =>
      .record (details.map fun (kind, detail) => (kind, detail.rename "synthetic" "is_synthetic"))
  | other => other

/-- The declared generic parameters of an item. -/
def currentParams : Value → Value
  | .list params => .list (params.map (Value.alter "kind" currentDetails))
  | other => other

/-- A payload of an item of some kind. -/
def currentPayload (kind : ItemKind) (payload : Value) : Value :=
  ((payload.alter "header" (currentHeader kind)).alter "generics"
    (Value.alter "params" currentParams)).rename "synthetic" "is_synthetic"

/-- The tag that stands for a tag of older format versions. -/
def currentTag (tag : String) : String :=
  ((ItemKind.legacyTags.lookup tag).map ItemKind.tag).getD tag

/-- A payload below its tag. -/
def currentInner : Value → Value
  | .record [(tag, payload)] => .record [(tag, currentPayload (ItemKind.ofTag tag.toText) payload)]
  | other => other

/-- A record whose kind stands above its payload and not beside it. -/
def currentRecord (source : Value) : Value :=
  match source.get "kind" with
  | .text tag =>
      let payload := currentPayload (ItemKind.ofTag tag) ((source.get "inner").orElse Entry.noPayload)
      (source.without "kind").assign "inner" (.record [(.text (currentTag tag), payload)])
  | _ => source.alter "inner" currentInner

/-- The records of all items of an index. -/
def currentRecords : Value → Value
  | .record index => .record (index.map fun (key, source) => (key, currentRecord source))
  | other => other

/-- The index in the layout of current format versions. -/
def currentLayout (top : Value) : Value :=
  top.alter "index" currentRecords

/-! ### Parts of a rewritten payload -/

variable {kind : ItemKind} {payload : Value}

/-- The names of parts that the rewriting of a payload touches. -/
def renewedNames : List String :=
  ["header", "generics", "synthetic", "is_synthetic"]

theorem get?_currentPayload {name : String} (untouched : name ∉ renewedNames) :
    (currentPayload kind payload).get? name = payload.get? name := by
  simp only [renewedNames, List.mem_cons, List.not_mem_nil, or_false, not_or] at untouched
  obtain ⟨noHeader, noGenerics, noOlder, noNewer⟩ := untouched
  rw [currentPayload, Value.get?_rename_of_ne noOlder noNewer, Value.get?_alter,
    if_neg noGenerics, Value.get?_alter, if_neg noHeader]

theorem get_currentPayload {name : String} (untouched : name ∉ renewedNames) :
    (currentPayload kind payload).get name = payload.get name := by
  rw [Value.get, Value.get, get?_currentPayload untouched]

theorem isRecord_currentPayload : (currentPayload kind payload).isRecord = payload.isRecord := by
  rw [currentPayload, Value.isRecord_rename, Value.isRecord_alter, Value.isRecord_alter]

theorem get_header_currentPayload :
    (currentPayload kind payload).get "header" = currentHeader kind (payload.get "header") := by
  rw [currentPayload, Value.get_rename_of_ne (by decide) (by decide),
    Value.get_alter_of_ne (by decide), Value.get_alter rfl]

theorem get_generics_currentPayload :
    (currentPayload kind payload).get "generics" =
      (payload.get "generics").alter "params" currentParams := by
  rw [currentPayload, Value.get_rename_of_ne (by decide) (by decide), Value.get_alter rfl,
    Value.get_alter_of_ne (by decide)]

theorem flag_rename (newer older : String) (value : Value) :
    flag (value.rename older newer) newer older = flag value newer older := by
  cases found : value.get? newer with
  | some part => rw [Value.rename_of_present found]
  | none =>
      unfold flag
      rw [Value.get?_rename found, Value.get?_rename found, if_pos rfl, found]
      cases value.get? older with
      | some part => rfl
      | none =>
          by_cases same : older = newer <;> simp [same]

theorem flag_rename_of_ne {newer older other another : String} (value : Value)
    (newerKept : newer ≠ other ∧ newer ≠ another) (olderKept : older ≠ other ∧ older ≠ another) :
    flag (value.rename other another) newer older = flag value newer older := by
  unfold flag
  rw [Value.get?_rename_of_ne newerKept.1 newerKept.2,
    Value.get?_rename_of_ne olderKept.1 olderKept.2]

theorem flag_currentPayload :
    flag (currentPayload kind payload) "is_synthetic" "synthetic" =
      flag payload "is_synthetic" "synthetic" := by
  rw [currentPayload, flag_rename]
  unfold flag
  simp [Value.get?_alter]

theorem currentPayload_noPayload : currentPayload kind Entry.noPayload = Entry.noPayload :=
  rfl

/-! ### Qualifiers and generic parameters -/

theorem qualifiers_of_isRecord (isRecord : (payload.get "header").isRecord = true) :
    qualifiers payload = .ok ⟨flag (payload.get "header") "is_const" "const_",
      flag (payload.get "header") "is_async" "async_",
      flag (payload.get "header") "is_unsafe" "unsafe_"⟩ := by
  unfold qualifiers
  cases header : payload.get "header" with
  | scalar content => simp [header, Value.isRecord] at isRecord
  | list words => simp [header, Value.isRecord] at isRecord
  | record entries => cases entries <;> rfl

theorem qualifiers_currentPayload :
    qualifiers (currentPayload .function payload) = qualifiers payload := by
  by_cases isRecord : (payload.get "header").isRecord = true
  · have current : (currentPayload .function payload).get "header" =
        (((payload.get "header").rename "const_" "is_const").rename "async_" "is_async").rename
          "unsafe_" "is_unsafe" := by
      rw [get_header_currentPayload]
      cases header : payload.get "header" with
      | list words => simp [header, Value.isRecord] at isRecord
      | _ => rfl
    have stillRecord : ((currentPayload .function payload).get "header").isRecord = true := by
      rw [current, Value.isRecord_rename, Value.isRecord_rename, Value.isRecord_rename, isRecord]
    rw [qualifiers_of_isRecord isRecord, qualifiers_of_isRecord stillRecord, current,
      flag_rename_of_ne _ (by decide) (by decide), flag_rename_of_ne _ (by decide) (by decide),
      flag_rename, flag_rename_of_ne _ (by decide) (by decide), flag_rename,
      flag_rename_of_ne _ (by decide) (by decide), flag_rename,
      flag_rename_of_ne _ (by decide) (by decide), flag_rename_of_ne _ (by decide) (by decide)]
  · unfold qualifiers
    rw [get_header_currentPayload]
    generalize payload.get "header" = header at isRecord
    cases header with
    | scalar content => rfl
    | list words => cases words <;> rfl
    | record entries => exact absurd rfl isRecord

theorem genericParam?_current (param : Value) :
    genericParam? (param.alter "kind" currentDetails) = genericParam? param := by
  unfold genericParam?
  rw [Value.isRecord_alter, Value.get_alter rfl, Value.get_alter_of_ne (by decide)]
  cases param.get "kind" with
  | scalar content => rfl
  | list elements => rfl
  | record details =>
      cases details with
      | nil => rfl
      | cons detail details =>
          simp only [currentDetails, List.map_cons, flag_rename]

theorem generics_currentPayload : generics (currentPayload kind payload) = generics payload := by
  have each : ∀ list : List Value,
      (list.map (Value.alter "kind" currentDetails)).filterMap genericParam? =
        list.filterMap genericParam? := by
    intro list
    rw [List.filterMap_map]
    exact congrArg (list.filterMap ·) (funext genericParam?_current)
  unfold generics
  dsimp only
  rw [get_generics_currentPayload, Value.isRecord_alter, Value.get_alter rfl]
  cases (payload.get "generics").get "params" with
  | scalar content => rfl
  | record entries => rfl
  | list elements =>
      cases elements with
      | nil => rfl
      | cons element elements =>
          split
          · exact congrArg Except.ok (each (element :: elements))
          · rfl

/-! ### Entries -/

end Index

/-- The other item is the same, but for the tag and the payload that it keeps. -/
def Item.SameButSpelling (item other : Item) : Prop :=
  other = { item with rawKind := other.rawKind, inner := other.inner }

/-- The other entry is the rewritten one; of its tag only the kind is known. -/
structure Entry.Renewed (entry other : Entry) : Prop where
  id : other.id = entry.id
  kind : other.kind = entry.kind
  source : ∀ name, name ≠ "kind" → name ≠ "inner" →
    other.source.get? name = entry.source.get? name
  payload : other.payload = Index.currentPayload entry.kind entry.payload

theorem ItemKind.ofTag_currentTag (tag : String) :
    ofTag (Index.currentTag tag) = ofTag tag := by
  have each : ∀ entry ∈ legacyTags, ofTag entry.2.tag = ofTag entry.1 := by
    decide +kernel
  unfold Index.currentTag
  cases found : legacyTags.lookup tag with
  | none => rfl
  | some kind =>
      obtain ⟨before, after, split, _⟩ := List.lookup_eq_some_iff.mp found
      exact each (tag, kind) (split ▸ List.mem_append_right _ List.mem_cons_self)

namespace Entry

theorem split_of_text {source : Value} {tag : String} (tagged : source.get "kind" = .text tag) :
    split source = (tag, (source.get "inner").orElse noPayload) := by
  unfold split
  rw [tagged]

theorem isRecord_without_of_text {source : Value} {tag : String}
    (tagged : source.get "kind" = .text tag) : (source.without "kind").isRecord = true := by
  rw [Value.isRecord_without, Value.isRecord_of_get_text tagged]

/-- A record with its kind beside the payload is rewritten to one with the kind above it. -/
theorem split_currentRecord_of_text {source : Value} {tag : String}
    (tagged : source.get "kind" = .text tag) :
    split (Index.currentRecord source) = (Index.currentTag tag,
      Index.currentPayload (ItemKind.ofTag tag) ((source.get "inner").orElse noPayload)) := by
  have isRecord := isRecord_without_of_text tagged
  unfold Index.currentRecord
  rw [tagged]
  dsimp only
  unfold split Value.get
  rw [Value.get?_assign _ isRecord, if_neg (by decide), Value.get?_without, if_pos rfl,
    Value.get?_assign _ isRecord, if_pos rfl]
  rfl

theorem currentRecord_of_untagged {source : Value}
    (untagged : ∀ tag, source.get "kind" ≠ .text tag) :
    Index.currentRecord source = source.alter "inner" Index.currentInner := by
  unfold Index.currentRecord
  split
  · rename_i tag tagged
    exact absurd tagged (untagged tag)
  · rfl

/-- The tag and the payload of a record that has no tag beside its payload. -/
def splitInner : Value → String × Value
  | .record [(tag, payload)] => (tag.toText, payload)
  | .text tag => (tag, noPayload)
  | _ => ("unknown", noPayload)

theorem split_of_untagged {source : Value} (untagged : ∀ tag, source.get "kind" ≠ .text tag) :
    split source = splitInner (source.get "inner") := by
  unfold split
  split
  · rename_i tag tagged
    exact absurd tagged (untagged tag)
  · rfl

theorem splitInner_currentInner (inner : Value) :
    splitInner (Index.currentInner inner) = ((splitInner inner).1,
      Index.currentPayload (ItemKind.ofTag (splitInner inner).1) (splitInner inner).2) := by
  cases inner with
  | scalar content => cases content <;> rfl
  | list elements => rfl
  | record entries =>
      cases entries with
      | nil => rfl
      | cons entry entries =>
          cases entries with
          | nil => rfl
          | cons other entries => rfl

theorem split_currentRecord_of_untagged {source : Value}
    (untagged : ∀ tag, source.get "kind" ≠ .text tag) :
    split (Index.currentRecord source) = ((split source).1,
      Index.currentPayload (ItemKind.ofTag (split source).1) (split source).2) := by
  have stillUntagged : ∀ tag, (source.alter "inner" Index.currentInner).get "kind" ≠ .text tag := by
    intro tag
    rw [Value.get_alter_of_ne (by decide)]
    exact untagged tag
  rw [currentRecord_of_untagged untagged, split_of_untagged untagged,
    split_of_untagged stillUntagged, Value.get_alter rfl, splitInner_currentInner]

theorem get?_currentRecord (source : Value) {name : String} (notKind : name ≠ "kind")
    (notInner : name ≠ "inner") : (Index.currentRecord source).get? name = source.get? name := by
  unfold Index.currentRecord
  split
  · rename_i tag tagged
    have isRecord := isRecord_without_of_text tagged
    rw [Value.get?_assign _ isRecord, if_neg notInner, Value.get?_without, if_neg notKind]
  · rw [Value.get?_alter, if_neg notInner]

theorem renewed_ofRecord (id : ItemId) (source : Value) :
    Renewed (ofRecord id source) (ofRecord id (Index.currentRecord source)) := by
  have rewritten : ItemKind.ofTag (split (Index.currentRecord source)).1 =
        ItemKind.ofTag (split source).1 ∧
      (split (Index.currentRecord source)).2 =
        Index.currentPayload (ItemKind.ofTag (split source).1) (split source).2 := by
    by_cases tagged : ∃ tag, source.get "kind" = .text tag
    · obtain ⟨tag, tagged⟩ := tagged
      rw [split_currentRecord_of_text tagged, split_of_text tagged]
      exact ⟨ItemKind.ofTag_currentTag tag, rfl⟩
    · rw [split_currentRecord_of_untagged (not_exists.mp tagged)]
      exact ⟨rfl, rfl⟩
  exact ⟨rfl, rewritten.1, fun name => get?_currentRecord source, rewritten.2⟩

end Entry

namespace Entry.Renewed

variable {entry other : Entry}

theorem body (renewed : entry.Renewed other) :
    other.body = Index.currentPayload entry.kind entry.body := by
  unfold Entry.body
  rw [renewed.payload, Index.isRecord_currentPayload]
  split
  · rfl
  · rw [Index.currentPayload_noPayload]

theorem source_get (renewed : entry.Renewed other) (name : String) (notKind : name ≠ "kind")
    (notInner : name ≠ "inner") : other.source.get name = entry.source.get name := by
  rw [Value.get, Value.get, renewed.source name notKind notInner]

theorem body_get? (renewed : entry.Renewed other) (name : String)
    (untouched : name ∉ Index.renewedNames) : other.body.get? name = entry.body.get? name := by
  rw [renewed.body, Index.get?_currentPayload untouched]

theorem body_get (renewed : entry.Renewed other) (name : String)
    (untouched : name ∉ Index.renewedNames) : other.body.get name = entry.body.get name := by
  rw [renewed.body, Index.get_currentPayload untouched]

theorem members (renewed : entry.Renewed other) : other.members = entry.members := by
  unfold Entry.members
  dsimp only
  rw [renewed.kind, renewed.body_get "items" (by decide), renewed.body_get "variants" (by decide),
    renewed.body_get? "fields" (by decide), renewed.body_get "kind" (by decide)]

theorem impls (renewed : entry.Renewed other) : other.impls = entry.impls := by
  rw [Entry.impls, Entry.impls, renewed.body_get "impls" (by decide)]

theorem trait? (renewed : entry.Renewed other) : other.trait? = entry.trait? := by
  rw [Entry.trait?, Entry.trait?, renewed.kind, renewed.body_get "trait" (by decide)]

theorem reexportTarget? (renewed : entry.Renewed other) :
    other.reexportTarget? = entry.reexportTarget? := by
  rw [Entry.reexportTarget?, Entry.reexportTarget?, renewed.kind,
    renewed.body_get "id" (by decide)]

theorem owner? (renewed : entry.Renewed other) : other.owner? = entry.owner? := by
  unfold Entry.owner?
  rw [renewed.source_get "parent" (by decide) (by decide)]

theorem visibility (renewed : entry.Renewed other) : other.visibility = entry.visibility := by
  unfold Entry.visibility
  rw [renewed.source_get "visibility" (by decide) (by decide)]

theorem references (renewed : entry.Renewed other) : other.references = entry.references := by
  unfold Entry.references Entry.traitId?
  rw [renewed.members, renewed.impls, renewed.trait?, renewed.reexportTarget?, renewed.visibility]

theorem qualifiers (renewed : entry.Renewed other) :
    Index.entryQualifiers other = Index.entryQualifiers entry := by
  unfold Index.entryQualifiers
  rw [renewed.kind, renewed.body_get? "is_unsafe" (by decide), renewed.body]
  split
  · rename_i isFunction
    rw [isFunction, Index.qualifiers_currentPayload]
  · rfl
  · rfl
  · rfl

theorem flag (renewed : entry.Renewed other) :
    Index.flag other.body "is_synthetic" "synthetic" =
      Index.flag entry.body "is_synthetic" "synthetic" := by
  rw [renewed.body, Index.flag_currentPayload]

/-- A rewritten entry becomes the same item, but for the tag and the payload it keeps. -/
theorem item (renewed : entry.Renewed other) (parents : List ItemId) :
    Outcome.Agree Item.SameButSpelling (Index.item parents entry) (Index.item parents other) := by
  have generics : Index.generics other.payload = Index.generics entry.payload := by
    rw [renewed.payload, Index.generics_currentPayload]
  have attrs : Index.attrs other.source = Index.attrs entry.source := by
    unfold Index.attrs
    rw [renewed.source_get "attrs" (by decide) (by decide)]
  unfold Index.item Entry.traitId?
  dsimp only
  rw [renewed.id, renewed.kind, renewed.qualifiers, renewed.members, attrs, generics,
    renewed.visibility, renewed.reexportTarget?, renewed.trait?, renewed.impls, renewed.flag,
    renewed.source_get "name" (by decide) (by decide),
    renewed.source "crate_id" (by decide) (by decide),
    renewed.source_get "deprecation" (by decide) (by decide),
    renewed.source_get "docs" (by decide) (by decide), renewed.body_get "name" (by decide),
    renewed.body_get? "has_body" (by decide), renewed.body_get "blanket_impl" (by decide)]
  refine .bind_same fun qualifiers => ?_
  refine .bind_same fun children => ?_
  refine .bind_same fun attrs => ?_
  refine .bind_same fun generics => ?_
  refine .ok ?_
  unfold Item.SameButSpelling
  dsimp only

end Entry.Renewed

end ApiCensus
