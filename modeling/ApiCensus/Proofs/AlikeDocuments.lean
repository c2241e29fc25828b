import ApiCensus.Analysis.Basic
import ApiCensus.Proofs.ResolverRuns
import Mathlib.Data.List.Perm.Basic

/-!
# Documents that differ in order only

Two documents are alike if the same items are found under the same identifiers, apart
from the order in which items list their members and impl blocks.  Everything that is
done with a document goes by identifiers in their own order, asks whether an identifier
is listed, or counts what is listed, so that alike documents have the same resolution,
the same classification and the same listing.
-/

namespace ApiCensus

/-- The parts of a payload in which items are listed. -/
def Item.memberKeys : List String :=
  ["items", "variants", "fields", "impls", "kind"]

/-- The other item differs at most in the order of its members and impl blocks. -/
inductive Item.Alike (item : Item) : Item → Prop
  | mk {children impls : List ItemId} {inner : Value} :
      item.children.Perm children → item.impls.Perm impls →
      (∀ name ∉ Item.memberKeys, item.inner.get? name = inner.get? name) →
      Item.Alike item { item with children, impls, inner }

theorem Item.Alike.of_eq {item other : Item}
    (same : other = { item with
      children := other.children, impls := other.impls, inner := other.inner })
    (children : item.children.Perm other.children) (impls : item.impls.Perm other.impls)
    (parts : ∀ name ∉ Item.memberKeys, item.inner.get? name = other.inner.get? name) :
    item.Alike other := by
  rw [same]
  exact .mk children impls parts

theorem Item.Alike.id {item other : Item} (alike : item.Alike other) : item.id = other.id := by
  cases alike
  rfl

/-- The other document holds the same, in some order. -/
structure Document.Alike (document other : Document) : Prop where
  root : document.root = other.root
  crateName : document.crateName = other.crateName
  sortedIds : document.sortedIds = other.sortedIds
  items : ∀ id, Option.Rel Item.Alike (document.item? id) (other.item? id)
  summaries : document.summary? = other.summary?
  crates : ∀ crateId,
    document.externalCrates.lookup crateId = other.externalCrates.lookup crateId

namespace Document.Alike

variable {document other : Document}

/-! ### Single items -/

theorem item?_cases (alike : document.Alike other) (id : ItemId) :
    (document.item? id = none ∧ other.item? id = none) ∨
      ∃ item otherItem, document.item? id = some item ∧ other.item? id = some otherItem ∧
        item.Alike otherItem := by
  have related := alike.items id
  generalize document.item? id = left, other.item? id = right at related
  cases related with
  | some itemAlike => exact .inr ⟨_, _, rfl, rfl, itemAlike⟩
  | none => exact .inl ⟨rfl, rfl⟩

theorem exists_item?_eq_some (alike : document.Alike other) {id : ItemId} {item : Item}
    (found : document.item? id = some item) :
    ∃ otherItem, other.item? id = some otherItem ∧ item.Alike otherItem := by
  rcases alike.item?_cases id with ⟨absent, _⟩ | ⟨_, otherItem, same, otherFound, itemAlike⟩
  · rw [found] at absent
    cases absent
  · cases found.symm.trans same
    exact ⟨otherItem, otherFound, itemAlike⟩

/-- What is read from an item alike is the same in both documents. -/
theorem map_item? (alike : document.Alike other) {β : Type} {read : Item → β}
    (kept : ∀ item otherItem, item.Alike otherItem → read item = read otherItem) (id : ItemId) :
    (document.item? id).map read = (other.item? id).map read := by
  rcases alike.item?_cases id with ⟨absent, otherAbsent⟩ |
    ⟨item, otherItem, found, otherFound, same⟩
  · rw [absent, otherAbsent]
  · rw [found, otherFound, Option.map_some, Option.map_some, kept item otherItem same]

theorem any_item? (alike : document.Alike other) {test : Item → Bool}
    (kept : ∀ item otherItem, item.Alike otherItem → test item = test otherItem) (id : ItemId) :
    (document.item? id).any test = (other.item? id).any test := by
  rcases alike.item?_cases id with ⟨absent, otherAbsent⟩ |
    ⟨item, otherItem, found, otherFound, same⟩
  · rw [absent, otherAbsent]
  · rw [found, otherFound, Option.any_some, Option.any_some, kept item otherItem same]

theorem isLocal (alike : document.Alike other) : document.isLocal = other.isLocal := by
  funext id
  rcases alike.item?_cases id with ⟨absent, otherAbsent⟩ | ⟨_, _, found, otherFound, _⟩
  · rw [Document.isLocal, Document.isLocal, absent, otherAbsent]
  · rw [Document.isLocal, Document.isLocal, found, otherFound, Option.isSome_some,
      Option.isSome_some]

theorem isKnown (alike : document.Alike other) : document.isKnown = other.isKnown := by
  funext id
  rw [Document.isKnown, Document.isKnown, alike.isLocal, alike.summaries]

theorem crateOf (alike : document.Alike other) : document.crateOf = other.crateOf := by
  have crateId? : document.crateId? = other.crateId? := by
    funext id
    unfold Document.crateId?
    rcases alike.item?_cases id with ⟨absent, otherAbsent⟩ | ⟨_, _, found, otherFound, same⟩
    · rw [absent, otherAbsent, alike.summaries]
    · cases same
      rw [found, otherFound]
  have localCrateId : document.localCrateId = other.localCrateId := by
    unfold Document.localCrateId
    rw [alike.root, alike.map_item?]
    rintro _ _ ⟨⟩
    rfl
  funext id
  unfold Document.crateOf
  rw [crateId?, localCrateId, alike.crateName]
  simp only [alike.crates]

end Document.Alike

/-! ### Resolving paths -/

namespace Resolver

variable {document other : Document} {separator : String}

theorem stem_of_alike (alike : document.Alike other) : stem document = stem other := by
  funext resolver id
  unfold stem
  rcases alike.item?_cases id with ⟨absent, otherAbsent⟩ | ⟨_, _, found, otherFound, same⟩
  · rw [absent, otherAbsent, alike.summaries]
  · cases same
    rw [found, otherFound]
    rfl

theorem implementsOn_of_alike (alike : document.Alike other) :
    implementsOn document = implementsOn other := by
  funext owner id
  unfold implementsOn
  rcases alike.item?_cases owner with ⟨absent, otherAbsent⟩ | ⟨_, _, found, otherFound, same⟩
  · rw [absent, otherAbsent]
  · cases same with
    | mk _ impls _ =>
        rw [found, otherFound]
        dsimp only
        rw [impls.contains_eq]

theorem moduleBelow_of_alike (alike : document.Alike other) :
    moduleBelow document = moduleBelow other := by
  funext resolver container
  unfold moduleBelow
  rcases alike.item?_cases container with ⟨absent, otherAbsent⟩ | ⟨_, _, found, otherFound, same⟩
  · rw [absent, otherAbsent]
  · cases same
    rw [found, otherFound]

theorem settle_of_alike (alike : document.Alike other) {item otherItem : Item}
    (same : item.Alike otherItem) (resolver : Resolver) :
    settle document separator resolver item = settle other separator resolver otherItem := by
  have choices : admissible document = admissible other := by
    unfold admissible
    rw [implementsOn_of_alike alike]
  have offers : candidates document resolver item = candidates other resolver otherItem := by
    unfold candidates
    rw [stem_of_alike alike, alike.isKnown]
    cases same
    rfl
  have alone : orphan document = orphan other := by
    unfold orphan
    rw [alike.root, alike.crateName]
  unfold settle
  rw [choices, offers, alone, moduleBelow_of_alike alike]
  cases same
  rfl

theorem pending?_of_alike (alike : document.Alike other) {item otherItem : Item}
    (same : item.Alike otherItem) (resolver : Resolver) :
    pending? document resolver item = pending? other resolver otherItem := by
  unfold pending?
  rw [alike.isLocal]
  cases same
  rfl

theorem climb_of_alike (alike : document.Alike other) :
    climb document separator = climb other separator := by
  have anchored : breakCycle document = breakCycle other := by
    unfold breakCycle
    rw [alike.crateName]
  funext resolver stack
  -- Both climbs take the same branch at every step: whether an item is there, what it waits
  -- for and how it is settled do not depend on the order of its members.
  fun_induction climb document separator resolver stack with
  | case1 resolver => rw [climb]
  | case2 resolver id below placed induction =>
      rw [climb.eq_2 other, dif_pos placed]
      exact induction
  | case3 resolver id below unplaced absent =>
      rcases alike.item?_cases id with ⟨_, otherAbsent⟩ | ⟨_, _, found, _⟩
      · rw [climb_of_absent unplaced otherAbsent]
      · rw [absent] at found
        cases found
  | case4 resolver id below unplaced item found next pending on induction =>
      obtain ⟨otherItem, otherFound, same⟩ := alike.exists_item?_eq_some found
      rw [pending?_of_alike alike same] at pending
      rw [climb_of_pending unplaced otherFound pending, if_pos on, ← anchored]
      exact induction
  | case5 resolver id below unplaced item found next pending off induction =>
      obtain ⟨otherItem, otherFound, same⟩ := alike.exists_item?_eq_some found
      rw [pending?_of_alike alike same] at pending
      rw [climb_of_pending unplaced otherFound pending, if_neg off]
      exact induction
  | case6 resolver id below unplaced item found ready cause failed =>
      obtain ⟨otherItem, otherFound, same⟩ := alike.exists_item?_eq_some found
      rw [pending?_of_alike alike same] at ready
      rw [settle_of_alike alike same] at failed
      rw [climb_of_unsettled unplaced otherFound ready failed]
  | case7 resolver id below unplaced item found ready placement settled induction =>
      obtain ⟨otherItem, otherFound, same⟩ := alike.exists_item?_eq_some found
      rw [pending?_of_alike alike same] at ready
      rw [settle_of_alike alike same] at settled
      rw [climb_of_settled unplaced otherFound ready settled]
      exact induction

theorem location_of_alike (alike : document.Alike other) :
    location document separator = location other separator := by
  funext id
  unfold location
  rw [climb_of_alike alike]
  rcases alike.item?_cases id with ⟨absent, otherAbsent⟩ | ⟨_, _, found, otherFound, same⟩
  · rw [absent, otherAbsent]
  · cases same
    rw [found, otherFound]
    refine bind_congr fun _ => bind_congr fun now => ?_
    cases now.placement? id with
    | none => rfl
    | some placement => rfl

theorem isReexport_of_alike (alike : document.Alike other) :
    isReexport document = isReexport other := by
  funext id
  apply alike.any_item?
  rintro _ _ ⟨⟩
  rfl

theorem nextTarget?_of_alike {item otherItem : Item} (same : item.Alike otherItem) :
    nextTarget? item = nextTarget? otherItem := by
  cases same
  rfl

theorem trace_of_alike (alike : document.Alike other) : trace document = trace other := by
  funext reexports chain id
  fun_induction trace document reexports chain id with
  | case1 chain id path known => rw [trace, known]
  | case2 chain id unknown absent summary outside =>
      rcases alike.item?_cases id with ⟨_, otherAbsent⟩ | ⟨_, _, found, _⟩
      · rw [trace_of_absent unknown otherAbsent, ← alike.summaries, outside]
        rfl
      · rw [absent] at found
        cases found
  | case3 chain id unknown absent missing =>
      rcases alike.item?_cases id with ⟨_, otherAbsent⟩ | ⟨_, _, found, _⟩
      · rw [trace_of_absent unknown otherAbsent, ← alike.summaries, missing]
        rfl
      · rw [absent] at found
        cases found
  | case4 chain id unknown item found final =>
      obtain ⟨otherItem, otherFound, same⟩ := alike.exists_item?_eq_some found
      rw [nextTarget?_of_alike same] at final
      rw [trace_of_declared unknown otherFound final]
  | case5 chain id unknown item found target exposed passed =>
      obtain ⟨otherItem, otherFound, same⟩ := alike.exists_item?_eq_some found
      rw [nextTarget?_of_alike same] at exposed
      rw [trace_of_target unknown otherFound exposed, if_pos passed]
  | case6 chain id unknown item found target exposed fresh induction =>
      obtain ⟨otherItem, otherFound, same⟩ := alike.exists_item?_eq_some found
      rw [nextTarget?_of_alike same] at exposed
      rw [trace_of_target unknown otherFound exposed, if_neg fresh]
      exact induction

theorem follow_of_alike (alike : document.Alike other) :
    follow document separator = follow other separator := by
  have remembering : rememberChain document = rememberChain other := by
    unfold rememberChain
    rw [isReexport_of_alike alike]
  unfold follow
  rw [trace_of_alike alike, remembering, location_of_alike alike]

theorem resolve_of_alike (alike : document.Alike other) :
    resolve document separator = resolve other separator := by
  unfold resolve
  rw [location_of_alike alike, isReexport_of_alike alike, follow_of_alike alike]

end Resolver

namespace Document.Alike

variable {document other : Document}

theorem resolve (alike : document.Alike other) : document.resolve = other.resolve := by
  unfold Document.resolve Resolver.resolveAll
  funext config
  rw [alike.sortedIds]
  simp only [Resolver.resolve_of_alike alike]

end Document.Alike

/-! ### Classification -/

theorem Stability.ofItem_of_alike {document other : Document} (alike : document.Alike other)
    {item otherItem : Item} (same : item.Alike otherItem) (markers : Value) :
    ofItem document markers item = ofItem other markers otherItem := by
  have own_eq : ∀ {item otherItem : Item}, item.Alike otherItem →
      own markers item = own markers otherItem := by
    rintro _ _ ⟨⟩
    rfl
  have implemented : Option.Rel Item.Alike (implementedTrait? document item)
      (implementedTrait? other otherItem) := by
    unfold implementedTrait?
    cases same
    dsimp only
    cases item.traitId.filter (!·.isEmpty) with
    | none => exact .none
    | some id => exact alike.items id
  unfold ofItem
  rw [own_eq same]
  generalize implementedTrait? document item = left, implementedTrait? other otherItem = right
    at implemented
  cases implemented with
  | none =>
      cases same
      rfl
  | some traits =>
      dsimp only
      rw [own_eq traits]
      cases same
      rfl

namespace Census

variable {document other : Document} {resolution : Resolution}

section

variable {seen : List ItemId} {item : Item}

/-- Without a container to climb to, an item that declares no visibility is public. -/
theorem visibilityFrom_of_top (inherited : item.visibility = .inherited)
    (top : ∀ container, container? resolution item = some container →
      seen.contains container = true ∨ document.item? container = none) :
    visibilityFrom document resolution seen item = .everywhere := by
  rw [visibilityFrom, if_pos inherited]
  split
  · rfl
  · rename_i container contained
    split
    · rfl
    · rename_i fresh
      split
      · rfl
      · rename_i found
        rcases top container contained with again | absent
        · exact absurd again fresh
        · rw [absent] at found
          cases found

theorem visibilityFrom_of_container {container : ItemId} {next : Item}
    (inherited : item.visibility = .inherited)
    (contained : container? resolution item = some container)
    (fresh : ¬ seen.contains container = true) (found : document.item? container = some next) :
    visibilityFrom document resolution seen item =
      visibilityFrom document resolution (container :: seen) next := by
  rw [visibilityFrom, if_pos inherited]
  split
  · rename_i uncontained
    rw [contained] at uncontained
    cases uncontained
  · rename_i otherContained
    cases contained.symm.trans otherContained
    rw [dif_neg fresh]
    split
    · rename_i absent
      rw [absent] at found
      cases found
    · rename_i otherFound
      cases found.symm.trans otherFound
      rfl

end

theorem visibilityFrom_of_alike (alike : document.Alike other) {seen : List ItemId}
    {item otherItem : Item} (same : item.Alike otherItem) :
    visibilityFrom document resolution seen item =
      visibilityFrom other resolution seen otherItem := by
  have containers : ∀ {item otherItem : Item}, item.Alike otherItem →
      container? resolution item = container? resolution otherItem := by
    rintro _ _ ⟨⟩
    rfl
  have levels : ∀ {item otherItem : Item}, item.Alike otherItem →
      item.visibility = otherItem.visibility := by
    rintro _ _ ⟨⟩
    rfl
  -- The first three cases are those without a container to ask: none, one that was seen
  -- before, and one that is not in the index.
  fun_induction visibilityFrom document resolution seen item generalizing otherItem with
  | case1 seen item inherited uncontained =>
      rw [containers same] at uncontained
      rw [levels same] at inherited
      symm
      apply visibilityFrom_of_top inherited
      intro container contained
      rw [uncontained] at contained
      cases contained
  | case2 seen item inherited container contained again =>
      rw [containers same] at contained
      rw [levels same] at inherited
      symm
      apply visibilityFrom_of_top inherited
      intro _ otherContained
      cases contained.symm.trans otherContained
      exact .inl again
  | case3 seen item inherited container contained fresh absent =>
      rw [containers same] at contained
      rw [levels same] at inherited
      symm
      apply visibilityFrom_of_top inherited
      intro _ otherContained
      cases contained.symm.trans otherContained
      rcases alike.item?_cases container with ⟨_, otherAbsent⟩ | ⟨_, _, found, _⟩
      · exact .inr otherAbsent
      · rw [absent] at found
        cases found
  | case4 seen item inherited container contained fresh next found induction =>
      rw [containers same] at contained
      rw [levels same] at inherited
      obtain ⟨otherNext, otherFound, nextAlike⟩ := alike.exists_item?_eq_some found
      rw [visibilityFrom_of_container inherited contained fresh otherFound]
      exact induction nextAlike
  | case5 seen item declared =>
      rw [levels same] at declared ⊢
      rw [visibilityFrom, if_neg declared]

theorem countFunctions_of_alike (alike : document.Alike other) {ids others : List ItemId}
    (permuted : ids.Perm others) : countFunctions document ids = countFunctions other others := by
  have same : (fun id => (document.item? id).any (·.kind = .function)) =
      fun id => (other.item? id).any (·.kind = .function) := by
    funext id
    apply alike.any_item?
    rintro _ _ ⟨⟩
    rfl
  unfold countFunctions
  rw [same]
  exact permuted.countP_eq _

theorem countMethods_of_alike (alike : document.Alike other) {item otherItem : Item}
    (same : item.Alike otherItem) : countMethods document item = countMethods other otherItem := by
  have blocks : (fun id => ((document.item? id).filter isInherentImpl).map fun block =>
        countFunctions document block.children) =
      fun id => ((other.item? id).filter isInherentImpl).map fun block =>
        countFunctions other block.children := by
    funext id
    rcases alike.item?_cases id with ⟨absent, otherAbsent⟩ |
      ⟨block, otherBlock, found, otherFound, same⟩
    · rw [absent, otherAbsent]
      rfl
    · have inherent : isInherentImpl block = isInherentImpl otherBlock := by
        cases same
        rfl
      have counts : countFunctions document block.children =
          countFunctions other otherBlock.children := by
        cases same with
        | mk children _ _ => exact countFunctions_of_alike alike children
      rw [found, otherFound, Option.filter_some, Option.filter_some, inherent]
      split
      · rw [Option.map_some, Option.map_some, counts]
      · rfl
  cases same with
  | mk children impls _ =>
      unfold countMethods
      simp only [List.filter_filterMap, List.map_filterMap, blocks,
        countFunctions_of_alike alike children]
      split
      · rfl
      · split
        · exact (impls.filterMap _).foldr_eq 0
        · rfl

theorem classifyItem_of_alike (alike : document.Alike other) (settings : ClassifySettings)
    {item otherItem : Item} (same : item.Alike otherItem) :
    classifyItem document resolution settings item =
      classifyItem other resolution settings otherItem := by
  have kinds : ∀ id : Option ItemId, (id.bind document.item?).map (·.kind) =
      (id.bind other.item?).map (·.kind) := by
    intro id
    cases id with
    | none => rfl
    | some id =>
        apply alike.map_item?
        rintro _ _ ⟨⟩
        rfl
  unfold classifyItem effectiveVisibility
  dsimp only
  rw [Stability.ofItem_of_alike alike same, countMethods_of_alike alike same, alike.crateOf,
    visibilityFrom_of_alike alike same, kinds]
  cases same
  rfl

end Census

namespace Document.Alike

variable {document other : Document}

/-- What is done with the items of a list of identifiers has the same outcome. -/
theorem mapM_items (alike : document.Alike other) {ε β : Type}
    {operation otherOperation : Item → Except ε β}
    (kept : ∀ item otherItem, item.Alike otherItem → operation item = otherOperation otherItem)
    (ids : List ItemId) :
    (ids.filterMap document.item?).mapM operation =
      (ids.filterMap other.item?).mapM otherOperation := by
  induction ids with
  | nil => rfl
  | cons id ids induction =>
      rcases alike.item?_cases id with ⟨absent, otherAbsent⟩ |
        ⟨item, otherItem, found, otherFound, same⟩
      · rw [List.filterMap_cons_none absent, List.filterMap_cons_none otherAbsent, induction]
      · rw [List.filterMap_cons_some found, List.filterMap_cons_some otherFound, List.mapM_cons,
          List.mapM_cons, kept item otherItem same, induction]

theorem classify (alike : document.Alike other) : document.classify = other.classify := by
  funext resolution config
  unfold Document.classify
  rw [alike.sortedIds]
  refine bind_congr fun ids => bind_congr fun settings => ?_
  rw [alike.mapM_items]
  intro item otherItem same
  rw [Census.classifyItem_of_alike alike settings same]

end Document.Alike

/-! ### Listings -/

theorem Signature.declaration_of_alike {item otherItem : Item} (same : item.Alike otherItem) :
    declaration item = declaration otherItem := by
  cases same with
  | @mk _ _ inner _ _ parts =>
      have part : ∀ name ∉ Item.memberKeys, item.inner.get name = inner.get name := by
        intro name other
        rw [Value.get, Value.get, parts name other]
      unfold declaration formatFunction formatTrait formatImpl listUnder
      dsimp only
      rw [part "generics" (by decide), part "sig" (by decide), part "decl" (by decide),
        part "bounds" (by decide), part "is_unsafe" (by decide), part "is_auto" (by decide),
        part "for" (by decide), part "type" (by decide)]

theorem Listing.ofDocument_of_alike {document other : Document} (alike : document.Alike other) :
    ofDocument document = ofDocument other := by
  have lines : ofItem document = ofItem other := by
    funext item
    unfold ofItem
    rcases alike.item?_cases item.id with ⟨absent, otherAbsent⟩ | ⟨_, _, found, otherFound, same⟩
    · rw [absent, otherAbsent]
    · rw [found, otherFound]
      dsimp only
      rw [Signature.declaration_of_alike same]
  unfold ofDocument
  rw [lines]

end ApiCensus
