import ApiCensus.Proofs.CurrentLayout
import ApiCensus.Proofs.HardenedAnalysis
import ApiCensus.Proofs.SeparatorChoices

/-!
# What the separator changes

Analyses with two separators find the same items in the same order and warn of the same cycles.
Where they choose the same containers, their items differ in the texts of their paths alone, and
all counts but those by module are the same.
-/

namespace ApiCensus

/-! ### Configurations with a separator -/

namespace Config

variable {config : Value}

/-- The configuration with this separator. -/
def withSeparator (config : Value) (separator : String) : Value :=
  config.assign "path_separator" (.text separator)

theorem isRecord_withSeparator (isRecord : config.isRecord = true) (separator : String) :
    (withSeparator config separator).isRecord = true :=
  (Value.isRecord_assign config _ _).trans isRecord

theorem get?_withSeparator (isRecord : config.isRecord = true) (separator : String)
    {name : String} (different : name ≠ "path_separator") :
    (withSeparator config separator).get? name = config.get? name := by
  rw [withSeparator, Value.get?_assign _ isRecord, if_neg different]

theorem pathSeparator_withSeparator (isRecord : config.isRecord = true) {separator : String}
    (nonempty : separator ≠ "") : pathSeparator (withSeparator config separator) = .ok separator := by
  have present : (withSeparator config separator).get "path_separator" = .text separator := by
    rw [Value.get, withSeparator, Value.get?_assign _ isRecord, if_pos rfl]
    rfl
  have kept : Value.orElse (.text separator) (.text "::") = .text separator := by
    apply if_pos
    simpa [Value.text, Value.isTruthy, Scalar.isTruthy] using nonempty
  have isRecord := isRecord_withSeparator isRecord separator
  unfold pathSeparator
  rw [Value.orElse_empty isRecord, Value.asRecord_of_isRecord isRecord]
  simp only [bind, Except.bind, present, kept]
  rfl

theorem settings_withSeparator (isRecord : config.isRecord = true) (separator : String) :
    ClassifySettings.ofConfig (withSeparator config separator) =
      ClassifySettings.ofConfig config := by
  have asked := isRecord_withSeparator isRecord separator
  unfold ClassifySettings.ofConfig
  rw [Value.orElse_empty asked, Value.asRecord_of_isRecord asked, Value.orElse_empty isRecord,
    Value.asRecord_of_isRecord isRecord]
  simp only [bind, Except.bind, Value.get, get?_withSeparator isRecord separator
    (show "stability" ≠ "path_separator" by decide), get?_withSeparator isRecord separator
    (show "generics" ≠ "path_separator" by decide)]

theorem excludedPaths_withSeparator (isRecord : config.isRecord = true)
    (nothing : (config.get "exclude_paths").isTruthy = false) (separator : String) :
    Analysis.excludedPaths (withSeparator config separator) = .ok (.list []) := by
  have asked := isRecord_withSeparator isRecord separator
  have same : (withSeparator config separator).get "exclude_paths" = config.get "exclude_paths" := by
    rw [Value.get, get?_withSeparator isRecord separator (by decide), Value.get]
  unfold Analysis.excludedPaths
  rw [Value.asRecord_of_isRecord asked]
  simp only [bind, Except.bind, same, Value.orElse, nothing]
  rfl

end Config

/-! ### Resolutions -/

/-- The same items are found in the same order, their paths are parallel, and the same cycles are
reported. -/
structure Resolution.Parallel (left right : Resolution) : Prop where
  paths : List.Forall₂ Resolver.PairParallel left.paths right.paths
  reports : left.reports = right.reports

variable {document : Document} {separator other : String} {left right : Resolution}

theorem Document.resolve_parallel {config otherConfig : Value}
    (found : pathSeparator config = .ok separator)
    (otherFound : pathSeparator otherConfig = .ok other) :
    Outcome.Agree Resolution.Parallel (document.resolve config) (document.resolve otherConfig) := by
  have inStep := Resolver.resolveAll_inStep document separator other
  rw [resolve_eq found, resolve_eq otherFound]
  generalize (Resolver.resolveAll document separator).run {} = first,
    (Resolver.resolveAll document other).run {} = second at inStep
  cases inStep with
  | error cause _ => exact .error cause
  | ok pairs parallel => exact .ok ⟨pairs, parallel.reports⟩

/-! ### Items at the same paths -/

/-- The item with the texts that it has in another resolution. -/
def ClassifiedItem.rejoined (resolution : Resolution) (item : ClassifiedItem) : ClassifiedItem :=
  { item with path := resolution.pathOf item.id, module := resolution.moduleOf item.id }

namespace Census

theorem visibilityFrom_congr (same : container? left = container? right) (seen : List ItemId)
    (item : Item) :
    visibilityFrom document left seen item = visibilityFrom document right seen item := by
  fun_induction visibilityFrom document left seen item with
  | case1 seen item inherited uncontained =>
      rw [same] at uncontained
      symm
      apply visibilityFrom_of_top inherited
      intro container contained
      rw [uncontained] at contained
      cases contained
  | case2 seen item inherited container contained again =>
      rw [same] at contained
      symm
      apply visibilityFrom_of_top inherited
      intro _ otherContained
      cases contained.symm.trans otherContained
      exact .inl again
  | case3 seen item inherited container contained fresh absent =>
      rw [same] at contained
      symm
      apply visibilityFrom_of_top inherited
      intro _ otherContained
      cases contained.symm.trans otherContained
      exact .inr absent
  | case4 seen item inherited container contained fresh next found induction =>
      rw [same] at contained
      rw [visibilityFrom_of_container inherited contained fresh found]
      exact induction
  | case5 seen item declared => rw [visibilityFrom, if_neg declared]

theorem classifyItem_of_paths (same : left.paths = right.paths) (settings : ClassifySettings)
    (item : Item) :
    Outcome.Agree (fun first second : ClassifiedItem => second = first.rejoined right)
      (classifyItem document left settings item) (classifyItem document right settings item) := by
  have known : left.path? = right.path? := by
    funext id
    rw [Resolution.path?, same, Resolution.path?]
  have containers : container? left = container? right := by
    funext item
    rw [container?, known, container?]
  unfold classifyItem effectiveVisibility
  rw [containers, visibilityFrom_congr containers, known]
  apply Outcome.Agree.bind_same
  intro stability
  apply Outcome.Agree.bind_same
  intro generics
  exact .ok rfl

end Census

theorem Document.classify_of_paths {config otherConfig : Value} (same : left.paths = right.paths)
    (settings : ClassifySettings.ofConfig config = ClassifySettings.ofConfig otherConfig) :
    Outcome.Agree
      (fun first second : Classification => second.items = first.items.map (·.rejoined right))
      (document.classify left config) (document.classify right otherConfig) := by
  unfold Document.classify
  rw [settings]
  apply Outcome.Agree.bind_same
  intro ids
  apply Outcome.Agree.bind_same
  intro settings
  have each : List.Forall₂ Eq (ids.filterMap document.item?) (ids.filterMap document.item?) :=
    List.forall₂_refl _
  have items : ∀ item another : Item, item = another → Outcome.Agree
      (fun first second : ClassifiedItem => second = first.rejoined right)
      (liftM (Census.classifyItem document left settings item) : Except Failure ClassifiedItem)
      (liftM (Census.classifyItem document right settings another)) := by
    rintro item _ rfl
    have agree := @Census.classifyItem_of_paths document left right same settings item
    generalize Census.classifyItem document left settings item = first,
      Census.classifyItem document right settings item = second at agree
    cases agree with
    | error cause => exact .error _
    | ok holds => exact .ok holds
  apply (Outcome.Agree.mapM each items).bind
  intro found others pairs
  apply Outcome.Agree.ok
  dsimp only
  induction pairs with
  | nil => rfl
  | cons first _ induction => rw [first, List.map_cons, induction]

/-! ### Counts of such items -/

/-- Rows depend on nothing but the groups and the metrics of items. -/
theorem aggregate_map {grouping : Grouping} {change : ClassifiedItem → ClassifiedItem}
    (keys : ∀ item, grouping.key (change item) = grouping.key item)
    (metrics : ∀ item, Metrics.ofItem (change item) = Metrics.ofItem item)
    (items : List ClassifiedItem) :
    aggregate grouping (items.map change) = aggregate grouping items := by
  have entries : (items.map change).map grouping.entry = items.map grouping.entry := by
    rw [List.map_map]
    exact List.map_congr_left fun item _ => Prod.ext (keys item) (metrics item)
  rw [aggregate, aggregate, entries]

theorem aggregate_rejoined {grouping : Grouping} (plain : grouping ≠ .module)
    (resolution : Resolution) (items : List ClassifiedItem) :
    aggregate grouping (items.map (·.rejoined resolution)) = aggregate grouping items := by
  apply aggregate_map
  · intro item
    cases grouping with
    | module => exact absurd rfl plain
    | _ => rfl
  · exact fun item => rfl

namespace Analysis

/-- Without excluded paths all items are kept. -/
theorem ofDocuments_of_nothing {config : Value} (nothing : excludedPaths config = .ok (.list []))
    (documents : List AnalyzedDocument) (grouping : Grouping) :
    ∃ analysis, ofDocuments documents grouping config = .ok analysis ∧
      analysis.items = classified documents ∧
      analysis.rows = aggregate grouping (classified documents) := by
  have all : (classified documents).filter (!excludes (.list []) ·) = classified documents :=
    List.filter_eq_self.mpr fun _ _ => rfl
  refine ⟨gathered documents grouping (.list []), ?_, all, ?_⟩
  · exact ofDocuments_eq_ok_iff.mpr ⟨.list [], nothing, fun _ _ => ⟨false, rfl⟩, rfl⟩
  · rw [gathered, all]

theorem run_singleton {source : Index.Source} {config : Value} (grouping : Grouping)
    (loaded : Index.load source = .ok document) (resolved : document.resolve config = .ok left) :
    run [source] grouping config = (document.classify left config >>= fun classification =>
      ofDocuments [⟨document, left, classification⟩] grouping config) := by
  unfold run examine Document.analyze
  rw [List.mapM_cons, List.mapM_nil, loaded]
  dsimp only [bind, Except.bind]
  rw [resolved]
  dsimp only
  cases document.classify left config with
  | error cause => rfl
  | ok classification => rfl

/-- At the same paths the analyses of an index differ in the texts of paths alone. -/
theorem run_of_paths {source : Index.Source} {config : Value} (isRecord : config.isRecord = true)
    (nothing : (config.get "exclude_paths").isTruthy = false)
    (loaded : Index.load source = .ok document)
    (resolved : document.resolve (Config.withSeparator config separator) = .ok left)
    (otherResolved : document.resolve (Config.withSeparator config other) = .ok right)
    (same : left.paths = right.paths) (grouping : Grouping) :
    Outcome.Agree (fun first second : Analysis =>
        second.items = first.items.map (·.rejoined right) ∧
          (grouping ≠ .module → second.rows = first.rows))
      (run [source] grouping (Config.withSeparator config separator))
      (run [source] grouping (Config.withSeparator config other)) := by
  have settings := (Config.settings_withSeparator isRecord separator).trans
    (Config.settings_withSeparator isRecord other).symm
  rw [run_singleton grouping loaded resolved, run_singleton grouping loaded otherResolved]
  apply (Document.classify_of_paths same settings).bind
  intro first second renamed
  obtain ⟨analysis, analysisOk, items, rows⟩ := ofDocuments_of_nothing
    (Config.excludedPaths_withSeparator isRecord nothing separator) [⟨document, left, first⟩] grouping
  obtain ⟨otherAnalysis, otherOk, otherItems, otherRows⟩ := ofDocuments_of_nothing
    (Config.excludedPaths_withSeparator isRecord nothing other) [⟨document, right, second⟩] grouping
  have all : classified [⟨document, right, second⟩] =
      (classified [⟨document, left, first⟩]).map (·.rejoined right) := by
    simp [classified, renamed]
  rw [analysisOk, otherOk]
  refine .ok ⟨?_, ?_⟩
  · rw [otherItems, all, items]
  · intro plain
    rw [otherRows, all, aggregate_rejoined plain, rows]

end Analysis

/-- Two separators find the same items in the same order, at paths of the same length and of the
same sort, and warn of the same cycles.  The paths are the same exactly if at the end of one run
the other separator chooses all containers again; it does so if no name holds a character that is
between the first characters of the separators or one of them.  At the same paths nothing differs
but the texts of paths, and if no paths are excluded, all counts but those by module are the
same. -/
theorem separators_in_step {source : Index.Source} (loaded : Index.load source = .ok document)
    {config : Value} (isRecord : config.isRecord = true) (nonempty : separator ≠ "")
    (otherNonempty : other ≠ "") :
    Outcome.Agree Resolution.Parallel (document.resolve (Config.withSeparator config separator))
      (document.resolve (Config.withSeparator config other)) ∧
    ∀ left right, document.resolve (Config.withSeparator config separator) = .ok left →
      document.resolve (Config.withSeparator config other) = .ok right →
      left.warnings = right.warnings ∧
      (left.paths = right.paths ↔ Resolver.SettlesAlike document other
        ((Resolver.resolveAll document separator).run {}).2) ∧
      ((∀ text ∈ document.words, Text.Clear separator other text) → left.paths = right.paths) ∧
      (left.paths = right.paths → (config.get "exclude_paths").isTruthy = false →
        ∀ grouping, Outcome.Agree (fun first second : Analysis =>
            second.items = first.items.map (·.rejoined right) ∧
              (grouping ≠ .module → second.rows = first.rows))
          (Analysis.run [source] grouping (Config.withSeparator config separator))
          (Analysis.run [source] grouping (Config.withSeparator config other))) := by
  have found := Config.pathSeparator_withSeparator isRecord nonempty
  have otherFound := Config.pathSeparator_withSeparator isRecord otherNonempty
  have parallel := @Document.resolve_parallel document separator other _ _ found otherFound
  refine ⟨parallel, ?_⟩
  intro left right resolved otherResolved
  obtain ⟨last, ran, _⟩ := (Document.resolve_eq_ok_iff found).mp resolved
  obtain ⟨otherLast, otherRan, _⟩ := (Document.resolve_eq_ok_iff otherFound).mp otherResolved
  have reached := @Resolver.resolveAll_advances document separator {} .refl
  have same := Resolver.paths_eq_iff ran otherRan
  rw [ran] at reached ⊢
  rw [resolved, otherResolved] at parallel
  refine ⟨?_, same, ?_, ?_⟩
  · cases parallel with
    | ok both => rw [Resolution.warnings, both.reports, Resolution.warnings]
  · intro clear
    exact same.mpr (Resolver.settlesAlike_of_clear nonempty otherNonempty reached clear)
  · intro samePaths nothing grouping
    exact Analysis.run_of_paths isRecord nothing loaded resolved otherResolved samePaths grouping

/-! ### A fork that separators take differently -/

namespace Index

/-- An index with an item in two modules of the same depth, `crate1` above one of them and the
crate itself above the other. -/
def forkText : String :=
  "\x7b\"format_version\":30,\"root\":0,\"index\":\x7b\"0\":\x7b\x7d," ++
    "\"1\":\x7b\"name\":\"crate1\",\"parent\":0\x7d," ++
    "\"2\":\x7b\"name\":\"b\",\"parent\":1,\"inner\":\x7b\"module\":\x7b\"items\":[4]\x7d\x7d\x7d," ++
    "\"3\":\x7b\"name\":\"b\",\"inner\":\x7b\"module\":\x7b\"items\":[4]\x7d\x7d\x7d," ++
    "\"4\":\x7b\x7d\x7d\x7d"

/-- What the modules of the fork list. -/
def forkMembers : Value :=
  .ofFields [("items", .list [.int 4])]

/-- The record that the text of the fork holds. -/
def forkRecord : Value :=
  .ofFields [("format_version", .int 30), ("root", .int 0),
    ("index", .ofFields [("0", .record []),
      ("1", .ofFields [("name", .text "crate1"), ("parent", .int 0)]),
      ("2", .ofFields [("name", .text "b"), ("parent", .int 1),
        ("inner", .ofFields [("module", forkMembers)])]),
      ("3", .ofFields [("name", .text "b"), ("inner", .ofFields [("module", forkMembers)])]),
      ("4", .record [])])]

/-- The item with two containers. -/
def forkedItem : Item :=
  plainItem "4" .other "unknown" none ["2", "3"] [] (.record [])

/-- The document of the fork. -/
def fork : Document where
  formatVersion := 30
  root := "0"
  crateName := "crate"
  items := [plainItem "0" .other "unknown" none [] [] (.record []),
    plainItem "1" .other "unknown" (some "crate1") ["0"] [] (.record []),
    plainItem "2" .module "module" (some "b") ["1"] ["4"] forkMembers,
    plainItem "3" .module "module" (some "b") [] ["4"] forkMembers, forkedItem]
  paths := []
  externalCrates := []

theorem load_fork : load (.text forkText) = .ok fork := by
  have read : Json.read forkText = .ok forkRecord := by decide +kernel
  have alone : ItemId.sort [] = .ok [] := @ItemId.sort_eq_self _ [] rfl (by decide)
  have both : ItemId.sort ["2", "3"] = .ok ["2", "3"] :=
    @ItemId.sort_eq_self _ [(.number 2, "2"), (.number 3, "3")] rfl (by decide)
  have sorted : ∀ {ids : List ItemId}, ItemId.sort ids = .ok ids →
      (liftM (ItemId.sort ids) : Except Failure (List ItemId)) = .ok ids :=
    Outcome.liftM_integer_eq_ok_iff.mpr
  refine load_of_stages read rfl
    ⟨rfl, rfl, rfl, rfl, rfl, rfl, ?_, rfl, Outcome.mapM_eq_ok_iff.mpr
      (.cons rfl (.cons rfl (.cons rfl (.cons (itemOf_of_parents (sorted alone) rfl)
        (.cons (itemOf_of_parents (sorted both) rfl) .nil))))), rfl⟩
  exact Outcome.bind_eq_ok_iff.mpr ⟨_, sorted sort_tangled, rfl⟩

/-- What is placed of the fork before the item with two containers. -/
def forkPlaced : Resolver :=
  ((Resolver.place {} "0" ⟨[], none, none⟩).place "1" ⟨[], some "0", none⟩).place "2"
    ⟨["crate1"], some "1", none⟩ |>.place "3" ⟨["crate"], none, none⟩

/-- The paths of the fork by the container of the item that has two. -/
def forkPaths (above : String) (container : ItemId) : List (ItemId × ResolvedPath) :=
  [("0", { segments := ["<unknown>"] }), ("1", { segments := ["crate1"], parent := some "0" }),
    ("2", { segments := ["crate1", "b"], parent := some "1" }),
    ("3", { segments := ["crate", "b"] }),
    ("4", ⟨[above, "b", "<unknown>"], false, false, some container, some container⟩)]

open Resolver in
theorem run_fork {above : String} {container : ItemId}
    (settled : settle fork separator forkPlaced forkedItem =
      .ok ⟨[above, "b"], some container, some container⟩) :
    ∃ last, (resolveAll fork separator).run {} = (.ok (forkPaths above container), last) := by
  have ids : fork.sortedIds = .ok ["0", "1", "2", "3", "4"] := sort_tangled
  have first : settle fork separator {} (plainItem "0" .other "unknown" none [] [] (.record [])) =
      .ok ⟨[], none, none⟩ := rfl
  have second : settle fork separator (place {} "0" ⟨[], none, none⟩)
      (plainItem "1" .other "unknown" (some "crate1") ["0"] [] (.record [])) =
      .ok ⟨[], some "0", none⟩ := rfl
  have third : settle fork separator
      ((place {} "0" ⟨[], none, none⟩).place "1" ⟨[], some "0", none⟩)
      (plainItem "2" .module "module" (some "b") ["1"] ["4"] forkMembers) =
      .ok ⟨["crate1"], some "1", none⟩ := rfl
  have fourth : settle fork separator
      (((place {} "0" ⟨[], none, none⟩).place "1" ⟨[], some "0", none⟩).place "2"
        ⟨["crate1"], some "1", none⟩)
      (plainItem "3" .module "module" (some "b") [] ["4"] forkMembers) =
      .ok ⟨["crate"], none, none⟩ := rfl
  rw [run_resolveAll, ids]
  exact ⟨_, run_resolveList_of_ready rfl rfl rfl first rfl
    (run_resolveList_of_ready rfl rfl rfl second rfl
      (run_resolveList_of_ready rfl rfl rfl third rfl
        (run_resolveList_of_ready rfl rfl rfl fourth rfl
          (run_resolveList_of_ready rfl rfl rfl settled rfl rfl))))⟩

/-- What resolving the fork with a separator comes to. -/
theorem resolve_fork (nonempty : separator ≠ "") {above : String} {container : ItemId}
    (settled : Resolver.settle fork separator forkPlaced forkedItem =
      .ok ⟨[above, "b"], some container, some container⟩) :
    ∃ resolution, fork.resolve (Config.withSeparator Config.defaults separator) = .ok resolution ∧
      resolution.paths = forkPaths above container := by
  obtain ⟨last, ran⟩ := run_fork settled
  refine ⟨⟨_, last.reports, separator⟩, ?_, rfl⟩
  exact (Document.resolve_eq_ok_iff (Config.pathSeparator_withSeparator rfl nonempty)).mpr
    ⟨last, ran, rfl⟩

/-- Before a digit comes the point, but not the colon: with one separator the item with two
containers lies below `crate1`, with the other below the crate itself. -/
theorem fork_taken_differently : ∃ left right, load (.text forkText) = .ok fork ∧
    fork.resolve (Config.withSeparator Config.defaults "::") = .ok left ∧
    fork.resolve (Config.withSeparator Config.defaults ".") = .ok right ∧
    left.path? "4" = some ⟨["crate1", "b", "<unknown>"], false, false, some "2", some "2"⟩ ∧
    right.path? "4" = some ⟨["crate", "b", "<unknown>"], false, false, some "3", some "3"⟩ := by
  obtain ⟨left, resolved, paths⟩ := @resolve_fork "::" (by decide) "crate1" "2" rfl
  obtain ⟨right, otherResolved, otherPaths⟩ := @resolve_fork "." (by decide) "crate" "3" rfl
  refine ⟨left, right, load_fork, resolved, otherResolved, ?_, ?_⟩
  · rw [Resolution.path?, paths]
    rfl
  · rw [Resolution.path?, otherPaths]
    rfl

/-- Separators that both come before the digits take the fork alike. -/
theorem fork_taken_alike : ∃ left right, load (.text forkText) = .ok fork ∧
    fork.resolve (Config.withSeparator Config.defaults ".") = .ok left ∧
    fork.resolve (Config.withSeparator Config.defaults "/") = .ok right ∧
    left.paths = right.paths ∧ left.warnings = right.warnings ∧
    Outcome.Agree (fun first second : Analysis => second.rows = first.rows)
      (Analysis.run [.text forkText] .category (Config.withSeparator Config.defaults "."))
      (Analysis.run [.text forkText] .category (Config.withSeparator Config.defaults "/")) := by
  obtain ⟨left, resolved, _⟩ := @resolve_fork "." (by decide) "crate" "3" rfl
  obtain ⟨agree, inStep⟩ := @separators_in_step fork "." "/" _ load_fork Config.defaults rfl
    (by decide) (by decide)
  obtain ⟨right, otherResolved, _⟩ := agree.exists_ok resolved
  obtain ⟨warnings, _, clear, counts⟩ := inStep left right resolved otherResolved
  have words : fork.words = ["crate", "crate1", "b", "b"] := rfl
  have paths := clear (by rw [words]; decide)
  refine ⟨left, right, load_fork, resolved, otherResolved, paths, warnings, ?_⟩
  exact (counts paths rfl .category).mono fun _ _ same => same.2 (by decide)

end Index

end ApiCensus
