import ApiCensus.Census.Classify
import ApiCensus.Proofs.LoadedDocument
import Mathlib.Logic.Relation

/-!
# Inherited visibility

An item that declares no visibility takes over that of its container, and so do the containers
above it.  The climb to a container that declares one remembers what it has passed, so its memory
depends on where it started.  Its answer does not: it is the visibility of the nearest item above
that declares one, or public if there is none, also where the containers go round in a cycle.
Since an item has at most one container to climb to, the answer for an item is the answer for its
container.
-/

namespace ApiCensus

theorem Visibility.level_eq_default_iff {visibility : Visibility} :
    visibility.level = "default" ↔ visibility = .inherited := by
  cases visibility <;> simp [level]

namespace Census

open Relation

variable {document : Document} {resolution : Resolution} {item owner : Item}

/-- The item declares no visibility, and the owner is the container that it takes it over from. -/
def InheritsFrom (document : Document) (resolution : Resolution) (item owner : Item) : Prop :=
  item.visibility = .inherited ∧ ∃ container, container? resolution item = some container ∧
    document.item? container = some owner

theorem inheritsFrom_rightUnique : Relator.RightUnique (InheritsFrom document resolution) := by
  rintro item left right ⟨_, container, contained, found⟩ ⟨_, other, otherContained, otherFound⟩
  cases contained.symm.trans otherContained
  exact Option.some.inj (found.symm.trans otherFound)

theorem not_inheritsFrom (declared : item.visibility ≠ .inherited) :
    ¬ InheritsFrom document resolution item owner :=
  fun inherits => declared inherits.1

/-- The visibility that an item has: that of the first item above it that declares one, itself
included, or public if none does. -/
inductive HasVisibility (document : Document) (resolution : Resolution) (item : Item) :
    Visibility → Prop
  | declared {owner : Item} : ReflTransGen (InheritsFrom document resolution) item owner →
      owner.visibility ≠ .inherited → HasVisibility document resolution item owner.visibility
  | undeclared : (∀ owner, ReflTransGen (InheritsFrom document resolution) item owner →
      owner.visibility = .inherited) → HasVisibility document resolution item .everywhere

namespace HasVisibility

variable {visibility other : Visibility}

theorem unique (first : HasVisibility document resolution item visibility)
    (second : HasVisibility document resolution item other) : visibility = other := by
  cases first with
  | @declared left leftReached leftDeclares =>
      cases second with
      | @declared right rightReached rightDeclares =>
          have linked :=
            ReflTransGen.total_of_right_unique inheritsFrom_rightUnique leftReached rightReached
          rcases linked with forth | back
          · rcases forth.cases_head with rfl | ⟨_, inherits, _⟩
            · rfl
            · exact absurd inherits (not_inheritsFrom leftDeclares)
          · rcases back.cases_head with rfl | ⟨_, inherits, _⟩
            · rfl
            · exact absurd inherits (not_inheritsFrom rightDeclares)
      | undeclared none => exact absurd (none left leftReached) leftDeclares
  | undeclared none =>
      cases second with
      | @declared right rightReached rightDeclares =>
          exact absurd (none right rightReached) rightDeclares
      | undeclared => rfl

theorem ne_inherited (has : HasVisibility document resolution item visibility) :
    visibility ≠ .inherited := by
  cases has with
  | declared _ declares => exact declares
  | undeclared => simp

/-- An item has the visibility of the owner that it inherits from. -/
theorem inherit (inherits : InheritsFrom document resolution item owner)
    (has : HasVisibility document resolution owner visibility) :
    HasVisibility document resolution item visibility := by
  cases has with
  | declared reached declares => exact .declared (.head inherits reached) declares
  | undeclared none =>
      apply HasVisibility.undeclared
      intro above reached
      rcases reached.cases_head with rfl | ⟨next, inheritsNext, later⟩
      · exact inherits.1
      · cases inheritsFrom_rightUnique inherits inheritsNext
        exact none above later

/-- An item that inherits but has no container in the index is public. -/
theorem of_top (inherited : item.visibility = .inherited)
    (absent : ∀ container, container? resolution item = some container →
      document.item? container = none) :
    HasVisibility document resolution item .everywhere := by
  apply HasVisibility.undeclared
  intro above reached
  rcases reached.cases_head with rfl | ⟨next, ⟨_, container, contained, found⟩, _⟩
  · exact inherited
  · rw [absent container contained] at found
    cases found

/-- An item that comes round to itself is public, since all it can reach goes round with it. -/
theorem of_cycle (cyclic : TransGen (InheritsFrom document resolution) item item) :
    HasVisibility document resolution item .everywhere := by
  apply HasVisibility.undeclared
  intro above reached
  obtain ⟨next, inherits, back⟩ := TransGen.head'_iff.mp cyclic
  have returns : ReflTransGen (InheritsFrom document resolution) above item := by
    induction reached with
    | refl => exact cyclic.to_reflTransGen
    | @tail middle above _ step returns =>
        rcases returns.cases_head with rfl | ⟨successor, otherStep, later⟩
        · cases inheritsFrom_rightUnique step inherits
          exact back
        · cases inheritsFrom_rightUnique step otherStep
          exact later
  rcases returns.cases_head with rfl | ⟨_, step, _⟩
  · exact inherits.1
  · exact step.1

end HasVisibility

/-! ### The climb -/

/-- Every item that the climb has passed leads to the one that it is at. -/
def LeadsTo (document : Document) (resolution : Resolution) (seen : List ItemId) (item : Item) :
    Prop :=
  ∀ id ∈ seen, ∀ passed, document.item? id = some passed →
    ReflTransGen (InheritsFrom document resolution) passed item

theorem LeadsTo.step {seen : List ItemId} {container : ItemId}
    (leads : LeadsTo document resolution seen item) (inherited : item.visibility = .inherited)
    (contained : container? resolution item = some container)
    (found : document.item? container = some owner) :
    LeadsTo document resolution (container :: seen) owner := by
  have inherits : InheritsFrom document resolution item owner :=
    ⟨inherited, container, contained, found⟩
  intro id member passed passedFound
  rcases List.mem_cons.mp member with rfl | before
  · cases found.symm.trans passedFound
    exact .refl
  · exact (leads id before passed passedFound).tail inherits

/-- The climb answers alike whatever it has passed, as long as that leads to the item. -/
theorem hasVisibility_visibilityFrom {seen : List ItemId}
    (leads : LeadsTo document resolution seen item) :
    HasVisibility document resolution item (visibilityFrom document resolution seen item) := by
  fun_induction visibilityFrom document resolution seen item with
  | case1 seen item inherited uncontained =>
      apply HasVisibility.of_top inherited
      intro container contained
      rw [uncontained] at contained
      cases contained
  | case2 seen item inherited container contained again =>
      -- The container was passed before; if it is in the index, the climb has come round.
      cases found : document.item? container with
      | none =>
          apply HasVisibility.of_top inherited
          intro other otherContained
          cases contained.symm.trans otherContained
          exact found
      | some owner =>
          apply HasVisibility.of_cycle
          exact .head' ⟨inherited, container, contained, found⟩
            (leads container (by simpa using again) owner found)
  | case3 seen item inherited container contained fresh absent =>
      apply HasVisibility.of_top inherited
      intro other otherContained
      cases contained.symm.trans otherContained
      exact absent
  | case4 seen item inherited container contained fresh next found induction =>
      have inherits : InheritsFrom document resolution item next :=
        ⟨inherited, container, contained, found⟩
      exact (induction (leads.step inherited contained found)).inherit inherits
  | case5 seen item declared => exact .declared .refl declared

theorem hasVisibility_effectiveVisibility (found : document.item? item.id = some item) :
    HasVisibility document resolution item (effectiveVisibility document resolution item) := by
  apply hasVisibility_visibilityFrom
  intro id member passed passedFound
  rw [List.mem_singleton] at member
  subst member
  cases found.symm.trans passedFound
  exact .refl

/-- In a loaded document, and whatever is known about paths, an item has the visibility that it
declares.  One that declares none has that of its container; without a container in the index it
is public.  No item is left without a visibility. -/
theorem visibility_compositional {source : Index.Source} (loaded : Index.load source = .ok document)
    (resolution : Resolution) (member : item ∈ document.items) :
    (item.visibility.level ≠ "default" →
      effectiveVisibility document resolution item = item.visibility) ∧
    (item.visibility.level = "default" → ∀ container owner,
      container? resolution item = some container → document.item? container = some owner →
      effectiveVisibility document resolution item =
        effectiveVisibility document resolution owner) ∧
    (item.visibility.level = "default" →
      (∀ container, container? resolution item = some container →
        document.isLocal container = false) →
      effectiveVisibility document resolution item = .everywhere) ∧
    (effectiveVisibility document resolution item).level ≠ "default" := by
  have coherent := Index.coherent_of_load loaded
  have has : ∀ other ∈ document.items, HasVisibility document resolution other
      (effectiveVisibility document resolution other) :=
    fun _ inside => hasVisibility_effectiveVisibility (coherent.item?_id inside)
  simp only [ne_eq, Visibility.level_eq_default_iff]
  refine ⟨?_, ?_, ?_, (has item member).ne_inherited⟩
  · intro declares
    exact (has item member).unique (.declared .refl declares)
  · intro inherited container owner contained found
    have ownerHas := has owner (Document.mem_of_item?_eq_some found).1
    exact (has item member).unique
      (ownerHas.inherit ⟨inherited, container, contained, found⟩)
  · intro inherited outside
    apply (has item member).unique
    apply HasVisibility.of_top inherited
    intro container contained
    simpa [Document.isLocal] using outside container contained

end Census

/-! ### A cycle and what hangs on it -/

namespace Index

/-- An index with two items that contain each other, one below them, and one below a root that is
restricted to its crate. -/
def lassoText : String :=
  "\x7b\"format_version\":30,\"root\":0,\"index\":\x7b\"0\":\x7b\"visibility\":\"crate\"\x7d," ++
    "\"1\":\x7b\"parent\":2\x7d,\"2\":\x7b\"parent\":1\x7d,\"3\":\x7b\"parent\":1\x7d," ++
    "\"4\":\x7b\"parent\":0\x7d\x7d\x7d"

/-- The record that the text of the index holds. -/
def lassoRecord : Value :=
  .ofFields [("format_version", .int 30), ("root", .int 0),
    ("index", .ofFields [("0", .ofFields [("visibility", .text "crate")]),
      ("1", .ofFields [("parent", .int 2)]), ("2", .ofFields [("parent", .int 1)]),
      ("3", .ofFields [("parent", .int 1)]), ("4", .ofFields [("parent", .int 0)])])]

/-- An item of the index. -/
def lassoItem (id : ItemId) (parents : List ItemId) : Item :=
  plainItem id .other "unknown" none parents [] (.record [])

/-- The document of the index. -/
def lasso : Document where
  formatVersion := 30
  root := "0"
  crateName := "crate"
  items := [{ lassoItem "0" [] with visibility := .restricted "crate" none },
    lassoItem "1" ["2"], lassoItem "2" ["1"], lassoItem "3" ["1"], lassoItem "4" ["0"]]
  paths := []
  externalCrates := []

theorem load_lasso : load (.text lassoText) = .ok lasso := by
  have read : Json.read lassoText = .ok lassoRecord := by decide +kernel
  refine load_of_stages read rfl ⟨rfl, rfl, rfl, rfl, rfl, rfl, ?_, rfl, rfl, rfl⟩
  exact Outcome.bind_eq_ok_iff.mpr ⟨_, Outcome.liftM_integer_eq_ok_iff.mpr sort_tangled, rfl⟩

end Index

namespace Census

open Index

/-- By the first listed parents, the items on the cycle and below it have one visibility, and the
item below the root is as restricted as the root. -/
theorem lasso_visibility :
    load (.text lassoText) = .ok lasso ∧
    effectiveVisibility lasso .unknown (lassoItem "3" ["1"]) =
      effectiveVisibility lasso .unknown (lassoItem "1" ["2"]) ∧
    effectiveVisibility lasso .unknown (lassoItem "1" ["2"]) =
      effectiveVisibility lasso .unknown (lassoItem "2" ["1"]) ∧
    effectiveVisibility lasso .unknown (lassoItem "4" ["0"]) = .restricted "crate" none := by
  have inherits : ∀ {id parents}, lassoItem id parents ∈ lasso.items → ∀ container owner,
      container? .unknown (lassoItem id parents) = some container →
      lasso.item? container = some owner →
      effectiveVisibility lasso .unknown (lassoItem id parents) =
        effectiveVisibility lasso .unknown owner :=
    fun member => (visibility_compositional load_lasso .unknown member).2.1 rfl
  have root := (visibility_compositional load_lasso .unknown List.mem_cons_self).1 (by decide)
  refine ⟨load_lasso, ?_, ?_, ?_⟩
  · exact inherits (by simp [lasso]) "1" _ rfl rfl
  · exact inherits (by simp [lasso]) "2" _ rfl rfl
  · rw [inherits (by simp [lasso]) "0" _ rfl rfl, root]

end Census

end ApiCensus
