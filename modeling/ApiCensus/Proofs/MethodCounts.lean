import ApiCensus.Proofs.AdmissibleContainers
import ApiCensus.Proofs.AnalysisStages
import ApiCensus.Proofs.Containment
import ApiCensus.Proofs.Separators

/-!
# Counted methods and classified methods

The methods of a trait or a type are counted downwards, along the members of the trait and along
the impl blocks of the type and their members.  Whether a function is a method is decided upwards,
by the container that its path lies below.  Where a function has one container at most, the two
directions meet: the identifiers that are counted are those of the items that are classified as
methods there.
-/

namespace ApiCensus

open Relation

/-- No entry of the index names its owner. -/
def Index.NamesNoOwner (top : Value) : Prop :=
  ∀ id record, (top.get "index").get? id = some record → (record.get "parent").isNull = true

/-- A document in which every function lies where it is listed: below a module, lists are without
repetition and without cycles, and functions are members of one container at most. -/
structure Document.NestsFunctions (document : Document) : Prop where
  rootModule : ∀ item ∈ document.items, item.id = document.root → item.kind = .module
  identified : ∀ id ∈ document.ids, id ≠ ""
  acyclic : ∀ id, ¬ TransGen document.ContainedIn id id
  membersOnce : ∀ item ∈ document.items, item.children.Nodup
  blocksOnce : ∀ item ∈ document.items, item.impls.Nodup
  noBlock : ∀ owner ∈ document.items, ∀ item ∈ document.items, item.kind = .function →
    item.id ∉ owner.impls
  oneContainer : ∀ item ∈ document.items, item.kind = .function →
    ∀ left ∈ document.items, ∀ right ∈ document.items,
      item.id ∈ left.children → item.id ∈ right.children → left.id = right.id

/-- The container that the path of an item lies below. -/
def Resolution.parentOf? (resolution : Resolution) (id : ItemId) : Option ItemId :=
  (resolution.path? id).bind (·.parent)

namespace ClassifiedItem

/-- Whether an item is classified as a method below a trait. -/
def isMethodOfTrait (resolution : Resolution) (trait : ItemId) (method : ClassifiedItem) : Bool :=
  (method.category = .requiredMethod || method.category = .providedMethod) &&
    resolution.parentOf? method.id = some trait

/-- Whether an item is classified as a method below one of the given impl blocks that is neither
for a trait nor made by the compiler. -/
def isMethodOfBlocks (document : Document) (resolution : Resolution) (blocks : List ItemId)
    (method : ClassifiedItem) : Bool :=
  method.category = .method && blocks.any fun id =>
    resolution.parentOf? method.id = some id && (document.item? id).any fun block =>
      block.kind = .impl && block.traitId.isNone && block.traitName.all (·.isEmpty) &&
        !block.isSynthetic && !block.isBlanket

end ClassifiedItem

/-! ### Containers that are listed -/

namespace Index

/-- Where no entry names its owner, the containers of an item are those that list it. -/
theorem mem_parents_iff {source : Source} {document : Document} {top : Value}
    (loaded : load source = .ok document) (holds : source.Holds top)
    (ownerless : NamesNoOwner top) {item : Item} (member : item ∈ document.items)
    (notRoot : item.id ≠ document.root) (container : ItemId) :
    container ∈ item.parents ↔ document.Lists container item.id := by
  obtain ⟨text, sameTop, textOk, topOk, valueOk⟩ := load_eq_ok_iff.mp loaded
  obtain ⟨_, sameText, holdsOk⟩ := holds
  cases sameText.symm.trans textOk
  cases holdsOk.symm.trans topOk
  obtain ⟨index, entries, listed, stages⟩ := ofValue_eq_ok_iff.mp valueOk
  have keyed := (readRecord_textKeyed topOk).get "index"
  rw [stages.indexOk] at keyed
  obtain ⟨entry, entryMember, itemOk⟩ := Outcome.exists_of_mem_mapM stages.itemsOk member
  have yields := yields_of_itemOf_eq_ok itemOk
  obtain ⟨record, found, same⟩ := exists_record_of_mem keyed stages.entriesOk entryMember
  rw [← stages.indexOk] at found
  have unowned : entry.owner? = none := by
    rw [Entry.owner?, same]
    exact if_pos (ownerless _ _ found)
  rw [yields.id] at notRoot ⊢
  rw [(stages.containers_perm notRoot unowned yields.containersOk).mem_iff]
  simp [Document.Lists, and_comm, and_assoc]

/-- A function is no impl block and not the root, so its containers have it as a member. -/
theorem mem_parents_of_function {source : Source} {document : Document} {top : Value}
    (loaded : load source = .ok document) (holds : source.Holds top)
    (ownerless : NamesNoOwner top) (nests : document.NestsFunctions) {item : Item}
    (member : item ∈ document.items) (isFunction : item.kind = .function) (container : ItemId) :
    container ∈ item.parents ↔
      ∃ owner ∈ document.items, owner.id = container ∧ item.id ∈ owner.children := by
  have notRoot : item.id ≠ document.root := by
    intro root
    have isModule := nests.rootModule item member root
    rw [isFunction] at isModule
    cases isModule
  rw [mem_parents_iff loaded holds ownerless member notRoot]
  constructor
  · rintro ⟨owner, ownerMember, same, child | block⟩
    · exact ⟨owner, ownerMember, same, child⟩
    · exact absurd block (nests.noBlock owner ownerMember item member isFunction)
  · rintro ⟨owner, ownerMember, same, child⟩
    exact ⟨owner, ownerMember, same, .inl child⟩

theorem ordersContainers_of_ownerless {source : Source} {document : Document} {top : Value}
    (loaded : load source = .ok document) (holds : source.Holds top)
    (ownerless : NamesNoOwner top) : document.OrdersContainers := by
  have coherent := coherent_of_load loaded
  intro item member container inside
  by_cases root : item.id = document.root
  · rw [coherent.rootFree item member root] at inside
    cases inside
  · obtain ⟨owner, ownerMember, rfl, _⟩ :=
      (mem_parents_iff loaded holds ownerless member root container).mp inside
    exact coherent.keyed owner.id (List.mem_map_of_mem ownerMember)

end Index

/-! ### Containers that are chosen -/

/-- Outside cycles an item lies below one of its containers, unless it has none. -/
theorem Document.Coherent.exists_path {document : Document} (coherent : document.Coherent)
    {config : Value} {resolution : Resolution} (resolved : document.resolve config = .ok resolution)
    {id : ItemId} {item : Item} (found : document.item? id = some item)
    (acyclic : ¬ TransGen document.ContainedIn id id) :
    ∃ path, resolution.path? id = some path ∧
      (path.parent = none ∧ item.parents = [] ∨
        ∃ container ∈ item.parents, path.parent = some container) := by
  obtain ⟨separator, separatorOk, _⟩ := Outcome.bind_eq_ok_iff.mp resolved
  have separatorOk := Outcome.liftM_shape_eq_ok_iff.mp separatorOk
  obtain ⟨last, ran, _⟩ := (resolve_eq_ok_iff separatorOk).mp resolved
  have reached := @Resolver.resolveAll_advances document separator {} .refl
  rw [ran] at reached
  obtain ⟨ids, sorted, resolves⟩ := Resolver.of_resolveAll_eq_ok ran
  have inside : id ∈ resolution.paths.map (·.1) := by
    rw [resolves.paths_ids, (ItemId.sort_perm sorted).mem_iff]
    exact isLocal_iff_mem_ids.mp (isLocal_of_item?_eq_some found)
  obtain ⟨path, looked⟩ : ∃ path, resolution.path? id = some path := by
    rw [← Option.isSome_iff_exists, Resolution.path?, List.lookup_isSome_iff]
    simpa using inside
  obtain ⟨before, after, split, _⟩ := List.lookup_eq_some_iff.mp looked
  have canonical := resolves.canonical .refl (id, path) (by simp [split])
  obtain ⟨placement, placed, parent⟩ := canonical.parent
  refine ⟨path, looked, ?_⟩
  rw [parent]
  cases Resolver.reason_of_placed coherent reached found placed with
  | uncontained sameFound uncontained =>
      cases sameFound.symm.trans found
      exact .inl ⟨rfl, uncontained⟩
  | @below _ container lies =>
      obtain ⟨_, sameFound, contained, _⟩ := lies.admits
      cases sameFound.symm.trans found
      exact .inr ⟨container, contained, lies.parent⟩
  | circular cyclic => exact absurd cyclic acyclic

/-- In a resolution every item has a path, and the functions below an item are its members. -/
structure Resolution.FollowsMembers (resolution : Resolution) (document : Document) : Prop where
  known : ∀ item ∈ document.items, ∃ path, resolution.path? item.id = some path
  below : ∀ item ∈ document.items, item.kind = .function → ∀ owner ∈ document.items,
    (resolution.parentOf? item.id = some owner.id ↔ item.id ∈ owner.children)

theorem Document.Coherent.eq_of_id {document : Document} (coherent : document.Coherent)
    {item other : Item} (member : item ∈ document.items) (otherMember : other ∈ document.items)
    (same : item.id = other.id) : item = other :=
  List.inj_on_of_nodup_map coherent.distinct member otherMember same

theorem Index.followsMembers {source : Source} {document : Document} {top : Value}
    (loaded : load source = .ok document) (holds : source.Holds top)
    (ownerless : NamesNoOwner top) (nests : document.NestsFunctions) {config : Value}
    {resolution : Resolution} (resolved : document.resolve config = .ok resolution) :
    resolution.FollowsMembers document := by
  have coherent := coherent_of_load loaded
  have located : ∀ item ∈ document.items, _ := fun item member =>
    coherent.exists_path resolved (coherent.item?_id member) (nests.acyclic item.id)
  constructor
  · intro item member
    obtain ⟨path, looked, _⟩ := located item member
    exact ⟨path, looked⟩
  · intro item member isFunction owner ownerMember
    have listed := mem_parents_of_function loaded holds ownerless nests member isFunction
    obtain ⟨path, looked, uncontained | ⟨container, contained, chosen⟩⟩ := located item member
    · have childless : item.id ∉ owner.children := by
        intro child
        have contained := (listed owner.id).mpr ⟨owner, ownerMember, rfl, child⟩
        rw [uncontained.2] at contained
        cases contained
      simp [Resolution.parentOf?, looked, uncontained.1, childless]
    · obtain ⟨chosenOwner, chosenMember, rfl, chosenChild⟩ := (listed container).mp contained
      rw [Resolution.parentOf?, looked, Option.bind_some, chosen, Option.some_inj]
      constructor
      · intro same
        rwa [← coherent.eq_of_id chosenMember ownerMember same]
      · intro child
        exact nests.oneContainer item member isFunction chosenOwner chosenMember owner ownerMember
          chosenChild child

/-! ### Categories of functions -/

/-- Only functions become methods. -/
theorem Category.kind_of_method {item : Item} {container : Option ItemKind}
    (method : ofItem item container ∈ [.method, .requiredMethod, .providedMethod]) :
    item.kind = .function := by
  cases kind : item.kind with
  | function => rfl
  | impl =>
      rw [ofItem, kind] at method
      dsimp only at method
      split at method <;> simp at method
  | _ => simp [ofItem, kind] at method

namespace Census

variable {document : Document} {resolution : Resolution}

theorem exists_records {config : Value} {classification : Classification}
    (success : document.classify resolution config = .ok classification)
    {classified : ClassifiedItem} (member : classified ∈ classification.items) :
    ∃ item ∈ document.items, Records document resolution item classified := by
  obtain ⟨ids, settings, _, _, itemsOk⟩ := Document.classify_eq_ok_iff.mp success
  obtain ⟨item, inside, classifiedOk⟩ :=
    Outcome.exists_of_mem_mapM (Outcome.mapM_eq_ok_iff.mpr itemsOk) member
  obtain ⟨id, _, found⟩ := List.mem_filterMap.mp inside
  exact ⟨item, (Document.mem_of_item?_eq_some found).1, records_of_classifyItem classifiedOk⟩

/-- The functions of the index among identifiers. -/
def functionsAmong (document : Document) (ids : List ItemId) : List ItemId :=
  ids.filter fun id => (document.item? id).any (·.kind = .function)

theorem mem_functionsAmong_iff (coherent : document.Coherent) {item : Item}
    (member : item ∈ document.items) {ids : List ItemId} :
    item.id ∈ functionsAmong document ids ↔ item.id ∈ ids ∧ item.kind = .function := by
  simp [functionsAmong, coherent.item?_id member]

section

variable (coherent : document.Coherent) (nests : document.NestsFunctions)
  (follows : resolution.FollowsMembers document)

include coherent nests follows

/-- A classified item is a method in its container exactly if it is a function that the container
lists. -/
theorem method_iff {item owner : Item} {classified : ClassifiedItem}
    (records : Records document resolution item classified) (member : item ∈ document.items)
    (ownerMember : owner ∈ document.items) (methods : List Category)
    (only : ∀ category ∈ methods, category ∈ [.method, .requiredMethod, .providedMethod])
    (all : ∀ hasBody, Category.ofFunction hasBody (some owner.kind) ∈ methods) :
    classified.category ∈ methods ∧ resolution.parentOf? classified.id = some owner.id ↔
      classified.id ∈ functionsAmong document owner.children := by
  rw [records.id, mem_functionsAmong_iff coherent member]
  constructor
  · intro ⟨method, below⟩
    rw [records.category] at method
    have isFunction := Category.kind_of_method (only _ method)
    exact ⟨(follows.below item member isFunction owner ownerMember).mp below, isFunction⟩
  · intro ⟨child, isFunction⟩
    have below := (follows.below item member isFunction owner ownerMember).mpr child
    obtain ⟨path, looked⟩ := follows.known item member
    have container : container? resolution item = some owner.id := by
      rw [Resolution.parentOf?, looked] at below
      rw [container?, looked]
      exact below
    have identified := nests.identified owner.id (List.mem_map_of_mem ownerMember)
    refine ⟨?_, below⟩
    rw [records.category, container, Option.filter_some_pos (by simpa using identified),
      Option.bind_some, coherent.item?_id ownerMember, Option.map_some, Category.ofItem, isFunction]
    exact all item.hasBody

end

/-! ### The identifiers that are counted -/

/-- The impl blocks of a type that are neither for a trait nor made by the compiler. -/
def ownBlocks (document : Document) (type : Item) : List Item :=
  (type.impls.filterMap document.item?).filter isInherentImpl

/-- The identifiers of the methods of a trait or a type. -/
def methodIds (document : Document) (item : Item) : List ItemId :=
  if item.kind = .trait then functionsAmong document item.children
  else if item.kind.isType then
    (ownBlocks document item).flatMap fun block => functionsAmong document block.children
  else []

theorem countMethods_eq_length (item : Item) :
    countMethods document item = (methodIds document item).length := by
  unfold countMethods methodIds
  split
  · exact List.countP_eq_length_filter
  · split
    · rw [List.length_flatMap]
      simp [Number.total, List.sum, ownBlocks, countFunctions, functionsAmong,
        List.countP_eq_length_filter]
    · rfl

theorem isInherentImpl_eq (block : Item) : isInherentImpl block =
    (block.kind = .impl && block.traitId.isNone && block.traitName.all (·.isEmpty) &&
      !block.isSynthetic && !block.isBlanket) := by
  cases traitName : block.traitName <;>
    cases traitId : block.traitId <;> simp [isInherentImpl, Item.implementsTrait, traitName, traitId]

theorem isMethodOfBlocks_iff {blocks : List ItemId} {classified : ClassifiedItem} :
    classified.isMethodOfBlocks document resolution blocks = true ↔
      classified.category = .method ∧ ∃ id ∈ blocks, resolution.parentOf? classified.id = some id ∧
        ∃ block, document.item? id = some block ∧ isInherentImpl block = true := by
  simp [ClassifiedItem.isMethodOfBlocks, isInherentImpl_eq, Option.any_eq_true, and_assoc]

theorem mem_ownBlocks_iff {type block : Item} :
    block ∈ ownBlocks document type ↔
      (∃ id ∈ type.impls, document.item? id = some block) ∧ isInherentImpl block = true := by
  simp [ownBlocks]

theorem exists_of_mem_functionsAmong {ids : List ItemId} {id : ItemId}
    (member : id ∈ functionsAmong document ids) :
    id ∈ ids ∧ ∃ item ∈ document.items, item.id = id ∧ item.kind = .function := by
  obtain ⟨inside, isFunction⟩ := List.mem_filter.mp member
  obtain ⟨item, found, kind⟩ := Option.any_eq_true _ _ |>.mp isFunction
  obtain ⟨itemMember, same⟩ := Document.mem_of_item?_eq_some found
  exact ⟨inside, item, itemMember, same, of_decide_eq_true kind⟩

/-- A function is a member of one block at most, so none is counted twice. -/
theorem nodup_blockMethods (coherent : document.Coherent) (nests : document.NestsFunctions)
    {type : Item} (member : type ∈ document.items) :
    ((ownBlocks document type).flatMap fun block =>
      functionsAmong document block.children).Nodup := by
  have inDocument : ∀ block ∈ ownBlocks document type, block ∈ document.items := by
    intro block inside
    obtain ⟨⟨_, _, found⟩, _⟩ := mem_ownBlocks_iff.mp inside
    exact (Document.mem_of_item?_eq_some found).1
  have blocksOnce : (ownBlocks document type).Nodup := by
    apply List.Nodup.filter
    apply (nests.blocksOnce type member).filterMap
    intro id other block found otherFound
    rw [← (Document.mem_of_item?_eq_some found).2, (Document.mem_of_item?_eq_some otherFound).2]
  rw [List.nodup_flatMap]
  constructor
  · intro block inside
    exact (nests.membersOnce block (inDocument block inside)).filter _
  · apply blocksOnce.pairwise_of_forall_ne
    intro left leftInside right rightInside different id inLeft inRight
    obtain ⟨leftChild, item, itemMember, rfl, isFunction⟩ := exists_of_mem_functionsAmong inLeft
    apply different
    apply coherent.eq_of_id (inDocument left leftInside) (inDocument right rightInside)
    exact nests.oneContainer item itemMember isFunction left (inDocument left leftInside)
      right (inDocument right rightInside) leftChild (exists_of_mem_functionsAmong inRight).1

theorem nodup_methodIds (coherent : document.Coherent) (nests : document.NestsFunctions)
    {item : Item} (member : item ∈ document.items) : (methodIds document item).Nodup := by
  unfold methodIds
  split
  · exact (nests.membersOnce item member).filter _
  · split
    · exact nodup_blockMethods coherent nests member
    · exact List.nodup_nil

theorem mem_ids_of_mem_methodIds {item : Item} {id : ItemId}
    (member : id ∈ methodIds document item) : id ∈ document.ids := by
  have inDocument : ∀ ids, id ∈ functionsAmong document ids → id ∈ document.ids := by
    intro ids inside
    obtain ⟨_, function, functionMember, rfl, _⟩ := exists_of_mem_functionsAmong inside
    exact List.mem_map_of_mem functionMember
  unfold methodIds at member
  split at member
  · exact inDocument _ member
  · split at member
    · obtain ⟨block, _, inside⟩ := List.mem_flatMap.mp member
      exact inDocument _ inside
    · cases member

/-- If the items that are marked are those with the identifiers of methods, there are as many. -/
theorem length_methodIds (coherent : document.Coherent) (nests : document.NestsFunctions)
    {item : Item} (member : item ∈ document.items) {config : Value}
    {classification : Classification}
    (classifiedOk : document.classify resolution config = .ok classification)
    {marks : ClassifiedItem → Bool}
    (marked : ∀ {function : Item} {classified : ClassifiedItem}, function ∈ document.items →
      Records document resolution function classified →
      (marks classified = true ↔ classified.id ∈ methodIds document item)) :
    (methodIds document item).length = classification.items.countP marks := by
  have permuted := ItemId.sort_perm (Document.sortedIds_of_classify classifiedOk)
  have distinct : (classification.items.map (·.id)).Nodup :=
    permuted.nodup_iff.mpr coherent.distinct
  have same : ((classification.items.filter marks).map (·.id)).Perm (methodIds document item) := by
    apply (List.perm_ext_iff_of_nodup (distinct.sublist (List.filter_sublist.map _))
      (nodup_methodIds coherent nests member)).mpr
    intro id
    rw [List.mem_map]
    constructor
    · rintro ⟨classified, kept, rfl⟩
      obtain ⟨inside, mark⟩ := List.mem_filter.mp kept
      obtain ⟨function, functionMember, records⟩ := exists_records classifiedOk inside
      exact (marked functionMember records).mp mark
    · intro counted
      obtain ⟨classified, inside, rfl⟩ :=
        List.mem_map.mp (permuted.mem_iff.mpr (mem_ids_of_mem_methodIds counted))
      obtain ⟨function, functionMember, records⟩ := exists_records classifiedOk inside
      have mark := (marked functionMember records).mpr counted
      exact ⟨classified, List.mem_filter.mpr ⟨inside, mark⟩, rfl⟩
  rw [← same.length_eq, List.length_map, List.countP_eq_length_filter]

section

variable (coherent : document.Coherent) (nests : document.NestsFunctions)
  (follows : resolution.FollowsMembers document)

include coherent nests follows

theorem mem_methodIds_of_trait {item trait : Item} {classified : ClassifiedItem}
    (records : Records document resolution item classified) (member : item ∈ document.items)
    (traitMember : trait ∈ document.items) (isTrait : trait.kind = .trait) :
    classified.isMethodOfTrait resolution trait.id = true ↔
      classified.id ∈ methodIds document trait := by
  have bodies : ∀ hasBody, Category.ofFunction hasBody (some trait.kind) ∈
      [Category.requiredMethod, .providedMethod] := by
    intro hasBody
    rw [isTrait]
    cases hasBody <;> decide
  rw [methodIds, if_pos isTrait,
    ← method_iff coherent nests follows records member traitMember _ (by decide) bodies]
  simp [ClassifiedItem.isMethodOfTrait]

theorem mem_methodIds_of_type {item type : Item} {classified : ClassifiedItem}
    (records : Records document resolution item classified) (member : item ∈ document.items)
    (isType : type.kind.isType = true) :
    classified.isMethodOfBlocks document resolution type.impls = true ↔
      classified.id ∈ methodIds document type := by
  have inBlock : ∀ {block : Item}, block ∈ document.items → isInherentImpl block = true →
      (classified.category = .method ∧ resolution.parentOf? classified.id = some block.id ↔
        classified.id ∈ functionsAmong document block.children) := by
    intro block blockMember own
    have isBlock : block.kind = .impl := by
      simp only [isInherentImpl, Bool.and_eq_true, decide_eq_true_eq] at own
      exact own.1.1.1
    have bodies : ∀ hasBody, Category.ofFunction hasBody (some block.kind) ∈ [Category.method] := by
      intro hasBody
      rw [isBlock]
      exact List.mem_singleton_self _
    rw [← method_iff coherent nests follows records member blockMember _ (by decide) bodies,
      List.mem_singleton]
  have notTrait : type.kind ≠ .trait := by
    intro isTrait
    rw [isTrait] at isType
    cases isType
  rw [methodIds, if_neg notTrait, if_pos isType, List.mem_flatMap, isMethodOfBlocks_iff]
  constructor
  · rintro ⟨method, id, listed, below, block, found, own⟩
    obtain ⟨blockMember, rfl⟩ := Document.mem_of_item?_eq_some found
    exact ⟨block, mem_ownBlocks_iff.mpr ⟨⟨block.id, listed, found⟩, own⟩,
      (inBlock blockMember own).mp ⟨method, below⟩⟩
  · rintro ⟨block, inside, member⟩
    obtain ⟨⟨id, listed, found⟩, own⟩ := mem_ownBlocks_iff.mp inside
    obtain ⟨blockMember, rfl⟩ := Document.mem_of_item?_eq_some found
    obtain ⟨method, below⟩ := (inBlock blockMember own).mpr member
    exact ⟨method, block.id, listed, below, block, found, own⟩

end

/-- Outside cycles, and where functions are members of one container at most, the number of methods
of a trait is that of the items that are classified as its methods, and the number of methods of a
type that of the items classified as methods below its own impl blocks. -/
theorem methodCounts_match_categories {source : Index.Source} {document : Document} {top : Value}
    (loaded : Index.load source = .ok document) (holds : source.Holds top)
    (ownerless : Index.NamesNoOwner top) (nests : document.NestsFunctions) :
    (∀ config, Config.Regular config → ∃ resolution classification,
      document.resolve config = .ok resolution ∧
        document.classify resolution config = .ok classification) ∧
    ∀ paths settings resolution classification, document.resolve paths = .ok resolution →
      document.classify resolution settings = .ok classification →
      (classification.items.map (·.id)).Perm document.ids ∧
      ∀ item ∈ document.items, ∀ classified ∈ classification.items, classified.id = item.id →
        (item.kind = .trait → classified.methodCount =
          classification.items.countP (·.isMethodOfTrait resolution item.id)) ∧
        (item.kind = .struct ∨ item.kind = .enum ∨ item.kind = .union → classified.methodCount =
          classification.items.countP (·.isMethodOfBlocks document resolution item.impls)) := by
  have coherent := Index.coherent_of_load loaded
  constructor
  · intro config regular
    obtain ⟨resolution, resolved⟩ := regular.exists_resolve_eq_ok coherent
      (Index.ordersContainers_of_ownerless loaded holds ownerless)
    obtain ⟨classification, classifiedOk⟩ := regular.exists_classify_eq_ok coherent resolution
    exact ⟨resolution, classification, resolved, classifiedOk⟩
  · intro paths settings resolution classification resolved classifiedOk
    have follows := Index.followsMembers loaded holds ownerless nests resolved
    refine ⟨ItemId.sort_perm (Document.sortedIds_of_classify classifiedOk), ?_⟩
    intro item member classified classifiedMember sameId
    obtain ⟨described, describedMember, records⟩ := exists_records classifiedOk classifiedMember
    cases coherent.eq_of_id describedMember member (records.id.symm.trans sameId)
    rw [records.methodCount, countMethods_eq_length]
    constructor
    · intro isTrait
      apply length_methodIds coherent nests member classifiedOk
      intro function method functionMember methodRecords
      exact mem_methodIds_of_trait coherent nests follows methodRecords functionMember member isTrait
    · intro isType
      apply length_methodIds coherent nests member classifiedOk
      intro function method functionMember methodRecords
      apply mem_methodIds_of_type coherent nests follows methodRecords functionMember
      rcases isType with kind | kind | kind <;> rw [kind] <;> rfl

end Census

/-! ### A trait and a type -/

namespace Index

/-- An index with a trait and a type, each with one method. -/
def methodText : String :=
  "\x7b\"format_version\":30,\"root\":0,\"index\":\x7b" ++
    "\"0\":\x7b\"inner\":\x7b\"module\":\x7b\"items\":[1,2]\x7d\x7d\x7d," ++
    "\"1\":\x7b\"inner\":\x7b\"trait\":\x7b\"items\":[3]\x7d\x7d\x7d," ++
    "\"2\":\x7b\"inner\":\x7b\"struct\":\x7b\"impls\":[4]\x7d\x7d\x7d," ++
    "\"3\":\x7b\"inner\":\x7b\"function\":\x7b\x7d\x7d\x7d," ++
    "\"4\":\x7b\"inner\":\x7b\"impl\":\x7b\"items\":[5]\x7d\x7d\x7d," ++
    "\"5\":\x7b\"inner\":\x7b\"function\":\x7b\x7d\x7d\x7d\x7d\x7d"

/-- The record of an entry of the index. -/
def methodEntry (tag : String) (payload : Value) : Value :=
  .ofFields [("inner", .ofFields [(tag, payload)])]

/-- The entries of the index. -/
def methodEntries : List (String × Value) :=
  [("0", methodEntry "module" (membersOf [1, 2])), ("1", methodEntry "trait" (membersOf [3])),
    ("2", methodEntry "struct" (.ofFields [("impls", .list [.int 4])])),
    ("3", methodEntry "function" (.record [])), ("4", methodEntry "impl" (membersOf [5])),
    ("5", methodEntry "function" (.record []))]

/-- The record that the text of the index holds. -/
def methodRecord : Value :=
  .ofFields [("format_version", .int 30), ("root", .int 0), ("index", .ofFields methodEntries)]

/-- The trait of the index. -/
def methodTrait : Item :=
  plainItem "1" .trait "trait" none ["0"] ["3"] (membersOf [3])

/-- The type of the index. -/
def methodType : Item :=
  { plainItem "2" .struct "struct" none ["0"] [] (.ofFields [("impls", .list [.int 4])]) with
    impls := ["4"] }

/-- The document of the index. -/
def methods : Document where
  formatVersion := 30
  root := "0"
  crateName := "crate"
  items := [plainItem "0" .module "module" none [] ["1", "2"] (membersOf [1, 2]),
    methodTrait, methodType,
    plainItem "3" .function "function" none ["1"] [] (.record []),
    plainItem "4" .impl "impl" none ["2"] ["5"] (membersOf [5]),
    plainItem "5" .function "function" none ["4"] [] (.record [])]
  paths := []
  externalCrates := []

theorem read_methodText : Json.read methodText = .ok methodRecord := by
  decide +kernel

theorem load_methods : load (.text methodText) = .ok methods := by
  have alone : ∀ id : ItemId, id.HasKey →
      (liftM (ItemId.sort [id]) : Except Failure (List ItemId)) = .ok [id] :=
    fun _ keyed => Outcome.liftM_integer_eq_ok_iff.mpr (ItemId.sort_singleton keyed)
  have all : ItemId.sort ["0", "1", "2", "3", "4", "5"] = .ok ["0", "1", "2", "3", "4", "5"] :=
    @ItemId.sort_eq_self _ [(.number 0, "0"), (.number 1, "1"), (.number 2, "2"),
      (.number 3, "3"), (.number 4, "4"), (.number 5, "5")] rfl (by decide)
  refine load_of_stages read_methodText rfl
    ⟨rfl, rfl, rfl, rfl, rfl, rfl, ?_, rfl, Outcome.mapM_eq_ok_iff.mpr
      (.cons rfl (.cons (itemOf_of_parents (alone "0" ⟨.number 0, rfl⟩) rfl)
        (.cons (itemOf_of_parents (alone "0" ⟨.number 0, rfl⟩) rfl)
          (.cons (itemOf_of_parents (alone "1" ⟨.number 1, rfl⟩) rfl)
            (.cons (itemOf_of_parents (alone "2" ⟨.number 2, rfl⟩) rfl)
              (.cons (itemOf_of_parents (alone "4" ⟨.number 4, rfl⟩) rfl) .nil)))))), rfl⟩
  exact Outcome.bind_eq_ok_iff.mpr ⟨_, Outcome.liftM_integer_eq_ok_iff.mpr all, rfl⟩

theorem holds_methods : (Source.text methodText).Holds methodRecord :=
  ⟨methodText, rfl, readRecord_of_read read_methodText rfl⟩

theorem namesNoOwner_methods : NamesNoOwner methodRecord := by
  intro id record found
  have keyed := (readRecord_textKeyed (readRecord_of_read read_methodText rfl)).get "index"
  obtain ⟨field, member, same⟩ := List.mem_map.mp (keyed.get?_eq_some_iff.mp found)
  cases same
  have ownerless : ∀ field ∈ methodEntries, (field.2.get "parent").isNull = true := by decide
  exact ownerless field member

theorem nestsFunctions_methods : methods.NestsFunctions where
  rootModule := by decide
  identified := by decide
  acyclic := by
    have smaller : ∀ item ∈ methods.items, ∀ container ∈ item.parents, container < item.id := by
      decide
    have upwards : ∀ {id container}, methods.ContainedIn id container → container < id := by
      intro id container ⟨item, found, parent, _⟩
      obtain ⟨member, rfl⟩ := Document.mem_of_item?_eq_some found
      exact smaller item member container parent
    have climbs : ∀ {id container}, TransGen methods.ContainedIn id container → container < id := by
      intro id container above
      induction above with
      | single contained => exact upwards contained
      | tail _ contained induction => exact String.lt_trans (upwards contained) induction
    intro id cyclic
    exact String.lt_irrefl id (climbs cyclic)
  membersOnce := by decide
  blocksOnce := by decide
  noBlock := by decide
  oneContainer := by decide

end Index

namespace Census

open Index

/-- The method of the trait and that of the type are counted where they are classified. -/
theorem method_counted_where_classified :
    load (.text methodText) = .ok methods ∧ ∃ resolution classification,
      methods.resolve Config.defaults = .ok resolution ∧
      methods.classify resolution Config.defaults = .ok classification ∧
      classification.items.countP (·.isMethodOfTrait resolution "1") = 1 ∧
      classification.items.countP (·.isMethodOfBlocks methods resolution ["4"]) = 1 := by
  obtain ⟨exists_classification, matched⟩ := methodCounts_match_categories load_methods
    holds_methods namesNoOwner_methods nestsFunctions_methods
  obtain ⟨resolution, classification, resolved, classifiedOk⟩ :=
    exists_classification _ Config.regular_defaults
  obtain ⟨permuted, counted⟩ := matched _ _ _ _ resolved classifiedOk
  have methodCount : ∀ item ∈ methods.items, ∃ classified ∈ classification.items,
      classified.id = item.id ∧ classified.methodCount = countMethods methods item := by
    intro item member
    obtain ⟨classified, inside, same⟩ :=
      List.mem_map.mp (permuted.mem_iff.mpr (List.mem_map_of_mem member))
    obtain ⟨described, describedMember, records⟩ := exists_records classifiedOk inside
    cases (coherent_of_load load_methods).eq_of_id describedMember member
      (records.id.symm.trans same)
    exact ⟨classified, inside, same, records.methodCount⟩
  refine ⟨load_methods, resolution, classification, resolved, classifiedOk, ?_, ?_⟩
  · have member : methodTrait ∈ methods.items := by simp [methods]
    have one : countMethods methods methodTrait = 1 := rfl
    obtain ⟨classified, inside, same, count⟩ := methodCount _ member
    exact ((counted _ member classified inside same).1 rfl).symm.trans (count.trans one)
  · have member : methodType ∈ methods.items := by simp [methods]
    have one : countMethods methods methodType = 1 := rfl
    obtain ⟨classified, inside, same, count⟩ := methodCount _ member
    exact ((counted _ member classified inside same).2 (.inl rfl)).symm.trans (count.trans one)

end Census

end ApiCensus
