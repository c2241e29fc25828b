import ApiCensus.Proofs.ReorderedLoading

/-!
# The order of an index does not matter

Two indexes that differ in order only have alike documents, and what is done with a
document is the same for alike ones.  An analysis of any number of indexes therefore
gives the same rows, items, warnings and listings in whatever order the indexes were
written, also where containers or re-exports run in circles.
-/

namespace ApiCensus

/-- Two analysed documents with the same paths and the same classification. -/
structure AnalyzedDocument.Alike (analyzed other : AnalyzedDocument) : Prop where
  document : analyzed.document.Alike other.document
  resolution : analyzed.resolution = other.resolution
  classification : analyzed.classification = other.classification

theorem Document.Alike.analyze {document other : Document} (alike : document.Alike other)
    (config : Value) :
    Outcome.Agree AnalyzedDocument.Alike (document.analyze config) (other.analyze config) := by
  unfold Document.analyze
  rw [alike.resolve, alike.classify]
  refine .bind_same fun resolution => .bind_same fun classification => ?_
  exact .ok ⟨alike, rfl, rfl⟩

namespace Analysis

/-- Nothing that is shown of two analyses tells them apart. -/
structure Alike (analysis other : Analysis) : Prop where
  rows : analysis.rows = other.rows
  items : analysis.items = other.items
  excluded : analysis.excluded = other.excluded
  warnings : analysis.warnings = other.warnings
  unrecognized : analysis.unrecognized = other.unrecognized
  report : ∀ presentation config,
    analysis.report presentation config = other.report presentation config
  listings : ∀ config, analysis.listings config = other.listings config

section

variable {documents others : List AnalyzedDocument}

/-- What is read from alike documents one by one is the same. -/
theorem map_of_alike (pairs : List.Forall₂ AnalyzedDocument.Alike documents others) {β : Type}
    {read : AnalyzedDocument → β}
    (kept : ∀ analyzed other, analyzed.Alike other → read analyzed = read other) :
    documents.map read = others.map read := by
  induction pairs with
  | nil => rfl
  | cons first _ induction => rw [List.map_cons, List.map_cons, kept _ _ first, induction]

theorem mapM_of_alike (pairs : List.Forall₂ AnalyzedDocument.Alike documents others) {ε β : Type}
    {operation : AnalyzedDocument → Except ε β}
    (kept : ∀ analyzed other, analyzed.Alike other → operation analyzed = operation other) :
    documents.mapM operation = others.mapM operation := by
  induction pairs with
  | nil => rfl
  | cons first _ induction => rw [List.mapM_cons, List.mapM_cons, kept _ _ first, induction]

theorem ofDocuments_agree (pairs : List.Forall₂ AnalyzedDocument.Alike documents others)
    (grouping : Grouping) (config : Value) :
    Outcome.Agree Alike (ofDocuments documents grouping config)
      (ofDocuments others grouping config) := by
  have items : documents.flatMap (·.classification.items) =
      others.flatMap (·.classification.items) := by
    rw [List.flatMap_def, List.flatMap_def,
      map_of_alike pairs fun _ _ alike => congrArg Classification.items alike.classification]
  have warnings : documents.flatMap (·.resolution.warnings) =
      others.flatMap (·.resolution.warnings) := by
    rw [List.flatMap_def, List.flatMap_def,
      map_of_alike pairs fun _ _ alike => congrArg Resolution.warnings alike.resolution]
  have unrecognized : documents.flatMap (·.classification.unrecognized) =
      others.flatMap (·.classification.unrecognized) := by
    rw [List.flatMap_def, List.flatMap_def, map_of_alike pairs
      fun _ _ alike => congrArg Classification.unrecognized alike.classification]
  unfold ofDocuments
  rw [items]
  refine .bind_same fun excluded => .bind_same fun kept => .ok ?_
  refine ⟨rfl, rfl, rfl, warnings, congrArg addUp unrecognized, ?_, ?_⟩
  · intro presentation config
    unfold report Analysis.warnings deprecated
    dsimp only
    rw [warnings]
  · intro config
    unfold listings
    refine bind_congr fun excluded => ?_
    dsimp only
    rw [mapM_of_alike pairs]
    intro analyzed other alike
    rw [Listing.ofDocument_of_alike alike.document, alike.classification]

end

theorem examine_agree {source other : Index.Source} (rearranges : source.Rearranges other)
    (loads : ∃ document, Index.load source = .ok document) (config : Value) :
    Outcome.Agree AnalyzedDocument.Alike (examine config source) (examine config other) := by
  obtain ⟨document, loaded⟩ := loads
  obtain ⟨otherDocument, otherLoaded, alike⟩ := Index.exists_alike_of_load rearranges loaded
  unfold examine
  rw [loaded, otherLoaded]
  exact alike.analyze config

/-- Of indexes that differ in order only either both are loaded or none is, and where all are
loaded, the analyses are alike or fail for the same cause. -/
theorem order_immaterial {sources others : List Index.Source}
    (rearranged : List.Forall₂ Index.Source.Rearranges sources others) :
    List.Forall₂ (fun source other => (∃ document, Index.load source = .ok document) ↔
        ∃ document, Index.load other = .ok document) sources others ∧
      ((∀ source ∈ sources, ∃ document, Index.load source = .ok document) →
        ∀ grouping config,
          Outcome.Agree Alike (run sources grouping config) (run others grouping config)) := by
  refine ⟨rearranged.imp fun _ _ pair => Index.exists_load_iff pair, ?_⟩
  intro loads grouping config
  have pairs := (List.forall₂_and_left sources others).mpr ⟨loads, rearranged⟩
  have examined : Outcome.Agree (List.Forall₂ AnalyzedDocument.Alike)
      (sources.mapM (examine config)) (others.mapM (examine config)) :=
    .mapM pairs fun _ _ pair => examine_agree pair.2 pair.1 config
  exact examined.bind fun _ _ pairs => ofDocuments_agree pairs grouping config

end Analysis

/-! ### A knot in two orders -/

namespace Index

/-- The record of a module with members. -/
def moduleRecord (items : List Int) : Value :=
  .ofFields [("kind", .text "module"), ("inner", .ofFields [("items", .list (items.map .int))])]

/-- An index of two modules that list each other and a re-export that exposes itself. -/
def knotRecord : Value :=
  .ofFields [("format_version", .int 30), ("root", .int 0),
    ("index", .ofFields [("0", moduleRecord [1, 2]), ("1", moduleRecord [2]),
      ("2", moduleRecord [1, 3]),
      ("3", .ofFields [("kind", .text "use"), ("inner", .ofFields [("id", .int 3)])])])]

/-- The same index from the end. -/
def reversedKnotRecord : Value :=
  .ofFields [("format_version", .int 30), ("root", .int 0),
    ("index", .ofFields [
      ("3", .ofFields [("kind", .text "use"), ("inner", .ofFields [("id", .int 3)])]),
      ("2", moduleRecord [3, 1]), ("1", moduleRecord [2]), ("0", moduleRecord [2, 1])])]

/-- The text of the knot. -/
def knotText : String :=
  "\x7b\"format_version\":30,\"root\":0,\"index\":\x7b" ++
    "\"0\":\x7b\"kind\":\"module\",\"inner\":\x7b\"items\":[1,2]\x7d\x7d," ++
    "\"1\":\x7b\"kind\":\"module\",\"inner\":\x7b\"items\":[2]\x7d\x7d," ++
    "\"2\":\x7b\"kind\":\"module\",\"inner\":\x7b\"items\":[1,3]\x7d\x7d," ++
    "\"3\":\x7b\"kind\":\"use\",\"inner\":\x7b\"id\":3\x7d\x7d\x7d\x7d"

/-- The text of the same index from the end. -/
def reversedKnotText : String :=
  "\x7b\"format_version\":30,\"root\":0,\"index\":\x7b" ++
    "\"3\":\x7b\"kind\":\"use\",\"inner\":\x7b\"id\":3\x7d\x7d," ++
    "\"2\":\x7b\"kind\":\"module\",\"inner\":\x7b\"items\":[3,1]\x7d\x7d," ++
    "\"1\":\x7b\"kind\":\"module\",\"inner\":\x7b\"items\":[2]\x7d\x7d," ++
    "\"0\":\x7b\"kind\":\"module\",\"inner\":\x7b\"items\":[2,1]\x7d\x7d\x7d\x7d"

theorem knotText_holds : (Source.text knotText).Holds knotRecord := by
  have readOk : Json.read knotText = .ok knotRecord := by decide +kernel
  refine ⟨knotText, rfl, ?_⟩
  unfold readRecord
  rw [readOk]
  rfl

theorem reversedKnotText_holds : (Source.text reversedKnotText).Holds reversedKnotRecord := by
  have readOk : Json.read reversedKnotText = .ok reversedKnotRecord := by decide +kernel
  refine ⟨reversedKnotText, rfl, ?_⟩
  unfold readRecord
  rw [readOk]
  rfl

theorem moduleRecord_sameRecord {items others : List Int} (permuted : items.Perm others) :
    Entry.SameRecord (moduleRecord items) (moduleRecord others) := by
  refine .record (.cons ⟨rfl, .same _ _⟩ (.cons ⟨rfl, ?_⟩ .nil))
  refine .beside rfl (.record (.cons ⟨rfl, ?_⟩ .nil))
  exact .items (.list (permuted.map _))

theorem knot_reordered : Reordered knotRecord reversedKnotRecord := by
  refine .record (.cons ⟨rfl, .same _ _⟩ (.cons ⟨rfl, .same _ _⟩ (.cons ⟨rfl, ?_⟩ .nil)))
  refine .index (.record (List.reverse_perm _).symm ?_)
  refine .cons ⟨rfl, .same _⟩ (.cons ⟨rfl, ?_⟩ (.cons ⟨rfl, .same _⟩ (.cons ⟨rfl, ?_⟩ .nil)))
  · exact moduleRecord_sameRecord (.swap _ _ _)
  · exact moduleRecord_sameRecord (.swap _ _ _)

theorem knot_unambiguous : Unambiguous knotRecord := by
  have indexKeyed := knotText_holds.textKeyed.get "index"
  have numbered : ∀ id, (knotRecord.get "index").has id = true →
      ∃ number : Int, id = toString number ∧ ItemId.key id = .ok (.number number) := by
    intro id present
    have listed : id ∈ ["0", "1", "2", "3"] := indexKeyed.has_iff.mp present
    simp only [List.mem_cons, List.not_mem_nil, or_false] at listed
    rcases listed with rfl | rfl | rfl | rfl
    · exact ⟨0, rfl, rfl⟩
    · exact ⟨1, rfl, rfl⟩
    · exact ⟨2, rfl, rfl⟩
    · exact ⟨3, rfl, rfl⟩
  intro left right key leftPresent rightPresent leftOk rightOk
  obtain ⟨number, rfl, keyOk⟩ := numbered left leftPresent
  obtain ⟨other, rfl, otherOk⟩ := numbered right rightPresent
  cases leftOk.symm.trans keyOk
  cases rightOk.symm.trans otherOk
  rfl

theorem load_knotText : ∃ document, load (.text knotText) = .ok document := by
  have all : ItemId.sort ["0", "1", "2", "3"] = .ok ["0", "1", "2", "3"] :=
    @ItemId.sort_eq_self _ [(.number 0, "0"), (.number 1, "1"), (.number 2, "2"),
      (.number 3, "3")] rfl (by decide)
  have above1 : ItemId.sort ["0", "2"] = .ok ["0", "2"] :=
    @ItemId.sort_eq_self _ [(.number 0, "0"), (.number 2, "2")] rfl (by decide)
  have above2 : ItemId.sort ["0", "1"] = .ok ["0", "1"] :=
    @ItemId.sort_eq_self _ [(.number 0, "0"), (.number 1, "1")] rfl (by decide)
  have above3 : ItemId.sort ["2"] = .ok ["2"] :=
    @ItemId.sort_eq_self _ [(.number 2, "2")] rfl (by decide)
  -- Every stage but the sorting of identifiers is found by evaluation.
  have sorted : ∀ {ids : List ItemId}, ItemId.sort ids = .ok ids →
      (liftM (ItemId.sort ids) : Except Failure (List ItemId)) = .ok ids :=
    Outcome.liftM_integer_eq_ok_iff.mpr
  refine ⟨⟨_, _, _, _, _, _⟩, (load_of_holds knotText_holds).trans (ofValue_eq_ok_iff.mpr
    ⟨_, _, _, ⟨rfl, rfl, rfl, rfl, rfl, rfl, ?_, rfl, Outcome.mapM_eq_ok_iff.mpr
      (.cons rfl (.cons (itemOf_of_parents (sorted above1) rfl)
        (.cons (itemOf_of_parents (sorted above2) rfl)
          (.cons (itemOf_of_parents (sorted above3) rfl) .nil)))), rfl⟩⟩)⟩
  exact Outcome.bind_eq_ok_iff.mpr ⟨_, sorted all, rfl⟩

end Index

/-- The knot in its two orders has the same analyses, whatever the grouping and the
configuration. -/
theorem Analysis.knot_order_immaterial :
    List.Forall₂ Index.Source.Rearranges [.text Index.knotText] [.text Index.reversedKnotText] ∧
    (∃ document, Index.load (.text Index.knotText) = .ok document) ∧
    (∃ document, Index.load (.text Index.reversedKnotText) = .ok document) ∧
    ∀ grouping config, Outcome.Agree Alike (run [.text Index.knotText] grouping config)
      (run [.text Index.reversedKnotText] grouping config) := by
  have rearranged : List.Forall₂ Index.Source.Rearranges [.text Index.knotText]
      [.text Index.reversedKnotText] :=
    .cons ⟨_, _, Index.knotText_holds, Index.reversedKnotText_holds, Index.knot_reordered,
      Index.knot_unambiguous⟩ .nil
  obtain ⟨loads, agree⟩ := order_immaterial rearranged
  cases loads with
  | cons both _ =>
      exact ⟨rearranged, Index.load_knotText, both.mp Index.load_knotText,
        agree (List.forall_mem_singleton.mpr Index.load_knotText)⟩

end ApiCensus
