import ApiCensus.Proofs.Outcome
import ApiCensus.Signature.ReadType

/-!
# What the text of a type is made of

A type expression holds texts: names, lifetimes, lengths, signs.  Reading it from a value, some of
them are fixed, and the others are the texts of parts of the value, which are copied as they are.
The slots of a value say which parts come into its text, one level deep: as a sign, as a copy, or
read in turn as a type, a path or bounds.  The texts of the expression fill the slots one after
the other, so what is copied, at any depth, is all there is in them beside signs.
-/

namespace ApiCensus

/-! ### Texts of expressions -/

mutual

/-- The texts that a type expression holds, in the order in which it shows them. -/
def TypeExpr.texts : TypeExpr → List String
  | .named name => [name]
  | .path path => path.texts
  | .reference lifetime _ target => lifetime.toList ++ target.texts
  | .pointer _ target => target.texts
  | .tuple elements => TypeExpr.textsOf elements
  | .slice element => element.texts
  | .array element length => element.texts ++ [length]
  | .implTrait bounds => BoundExpr.textsOf bounds
  | .dynTrait traits => PathExpr.textsOf traits
  | .associated self name => self.texts ++ [name]
  | .projection self trait name => self.texts ++ (trait.texts ++ [name])
  | .functionPointer => []
  | .hole => []

/-- The texts of types one after the other. -/
def TypeExpr.textsOf : List TypeExpr → List String
  | [] => []
  | type :: rest => type.texts ++ TypeExpr.textsOf rest

/-- The texts of a path: its name and those of its arguments. -/
def PathExpr.texts : PathExpr → List String
  | .mk name args => name :: ArgExpr.textsOf args

/-- The texts of paths one after the other. -/
def PathExpr.textsOf : List PathExpr → List String
  | [] => []
  | path :: rest => path.texts ++ PathExpr.textsOf rest

/-- The texts of an argument. -/
def ArgExpr.texts : ArgExpr → List String
  | .type content => content.texts
  | .lifetime name => [name]

/-- The texts of arguments one after the other. -/
def ArgExpr.textsOf : List ArgExpr → List String
  | [] => []
  | arg :: rest => arg.texts ++ ArgExpr.textsOf rest

/-- The texts of a bound, with its modifier. -/
def BoundExpr.texts : BoundExpr → List String
  | .trait modifier path => modifier :: path.texts
  | .outlives lifetime => [lifetime]

/-- The texts of bounds one after the other. -/
def BoundExpr.textsOf : List BoundExpr → List String
  | [] => []
  | bound :: rest => bound.texts ++ BoundExpr.textsOf rest

end

namespace Signature

/-! ### What values contribute -/

/-- What a value is read as. -/
inductive Role
  | type
  | path
  | bounds

/-- A contribution to a text: a fixed sign, a value that is copied as it is, or a value that is
read in turn. -/
inductive Slot
  | fixed (sign : String)
  | copied (part : Value)
  | read (role : Role) (part : Value)

/-- The contributions of an argument of a path. -/
def argSlots (arg : Value) : List Slot :=
  match arg.get? "type", arg.get? "lifetime" with
  | some type, _ => [.read .type type]
  | none, some lifetime => [.copied lifetime]
  | none, none => []

/-- The name of a path, under either of its two field names. -/
def nameSlot (path : Value) : Slot :=
  let name := (path.get "path").orElse (path.get "name")
  if name.isTruthy then .copied name else .fixed "_"

/-- The contribution of a path: its name and its arguments in angle brackets. -/
def pathSlots (path : Value) : List Slot :=
  if path.isRecord then
    let args := ((path.get "args").get "angle_bracketed").get "args"
    nameSlot path :: (elementsOf args).flatMap argSlots
  else [.fixed "_"]

/-- The contribution of a bound, which names a trait or a lifetime. -/
def boundSlots (value : Value) : List Slot :=
  let bound := value.get "trait_bound"
  if bound.isRecord then
    [.fixed (modifierSign (bound.get "modifier")), .read .path (bound.get "trait")]
  else
    match value.get? "outlives" with
    | some lifetime => [.copied lifetime]
    | none => []

/-- The contribution of what holds a trait of a trait object. -/
def traitSlots (holder : Value) : List Slot :=
  if holder.isRecord then [.read .path (holder.get "trait")] else []

/-- The contribution of a value that may be absent. -/
def givenSlots (slot : Value → Slot) (value : Value) : List Slot :=
  if value.isTruthy then [slot value] else []

/-- The contributions of a type whose content is a record, by its form. -/
def fieldSlots (form : String) (content : Value) : List Slot :=
  match form with
  | "borrowed_ref" =>
      givenSlots .copied (content.get "lifetime") ++ [.read .type (content.get "type")]
  | "raw_pointer" => [.read .type (content.get "type")]
  | "array" => [.read .type (content.get "type"), .copied (content.get "len")]
  | "dyn_trait" => (elementsOf (content.get "traits")).flatMap traitSlots
  | "qualified_path" =>
      .read .type (content.get "self_type") ::
        (givenSlots (.read .path) (content.get "trait") ++ [.copied (content.get "name")])
  | _ => []

/-- The contributions of a type, by its form. -/
def formSlots (form : String) (content : Value) : List Slot :=
  match form with
  | "generic" => [.copied content]
  | "primitive" => [.copied content]
  | "resolved_path" => [.read .path content]
  | "tuple" => (elementsOf content).map (.read .type)
  | "impl_trait" => [.read .bounds content]
  | "slice" => [.read .type content]
  | form => if content.isRecord then fieldSlots form content else []

/-- The contributions of a type. -/
def typeSlots : Value → List Slot
  | .null => [.fixed "()"]
  | .text name => if name = "infer" then [] else [.copied (.text name)]
  | .record [(tag, content)] => formSlots tag.toText content
  | _ => []

/-- The contributions of a value to its text. -/
def Role.slots : Role → Value → List Slot
  | .type, value => typeSlots value
  | .path, value => pathSlots value
  | .bounds, value => (elementsOf value).flatMap boundSlots

/-- A part is copied as it is into what a slot contributes, at any depth. -/
inductive Slot.Copies : Slot → Value → Prop
  | here {part : Value} : Copies (.copied part) part
  | deeper {role : Role} {value part : Value} {slot : Slot} (member : slot ∈ role.slots value)
      (copies : Copies slot part) : Copies (.read role value) part

/-! ### Slots and readings -/

/-- The texts that a slot shows; a value that is read shows the texts of its expression. -/
inductive Slot.Shows : Slot → List String → Prop
  | fixed {sign : String} : Shows (.fixed sign) [sign]
  | copied {part : Value} : Shows (.copied part) [part.toText]
  | type {value : Value} {type : TypeExpr} (read : readType value = .ok type) :
      Shows (.read .type value) type.texts
  | path {value : Value} {path : PathExpr} (read : readPath value = .ok path) :
      Shows (.read .path value) path.texts
  | bounds {value : Value} {bounds : List BoundExpr}
      (read : readBounds (elementsOf value) = .ok bounds) :
      Shows (.read .bounds value) (BoundExpr.textsOf bounds)

/-- The texts that slots show, one after the other. -/
inductive ShowAll : List Slot → List String → Prop
  | nil : ShowAll [] []
  | cons {slot : Slot} {slots : List Slot} {own texts : List String} (first : slot.Shows own)
      (later : ShowAll slots texts) : ShowAll (slot :: slots) (own ++ texts)

namespace ShowAll

variable {slot : Slot} {slots others : List Slot} {own texts more : List String}

theorem append (first : ShowAll slots texts) (second : ShowAll others more) :
    ShowAll (slots ++ others) (texts ++ more) := by
  induction first with
  | nil => exact second
  | cons shows _ induction =>
      rw [List.append_assoc]
      exact .cons shows induction

theorem single (shows : slot.Shows own) : ShowAll [slot] own := by
  simpa using ShowAll.cons shows .nil

/-- What is read in one step is shown if its part is. -/
theorem of_read {α : Type} {part : Except ShapeError α} {form : α → TypeExpr} {type : TypeExpr}
    (read : (do return form (← part)) = .ok type)
    (shown : ∀ content, part = .ok content → ShowAll slots (form content).texts) :
    ShowAll slots type.texts := by
  obtain ⟨content, partRead, same⟩ := Outcome.bind_eq_ok_iff.mp read
  cases same
  exact shown content partRead

theorem exists_of_slot (showAll : ShowAll slots texts) (member : slot ∈ slots) :
    ∃ own, slot.Shows own ∧ ∀ text ∈ own, text ∈ texts := by
  induction showAll with
  | nil => cases member
  | cons shows _ induction =>
      rcases List.mem_cons.mp member with rfl | later
      · exact ⟨_, shows, fun text inside => List.mem_append_left _ inside⟩
      · obtain ⟨own, ownShown, inside⟩ := induction later
        exact ⟨own, ownShown, fun text known => List.mem_append_right _ (inside text known)⟩

theorem exists_slot (showAll : ShowAll slots texts) {text : String} (member : text ∈ texts) :
    ∃ slot ∈ slots, ∃ own, slot.Shows own ∧ text ∈ own := by
  induction showAll with
  | nil => cases member
  | cons shows _ induction =>
      rcases List.mem_append.mp member with here | later
      · exact ⟨_, List.mem_cons_self, _, shows, here⟩
      · obtain ⟨slot, listed, own, ownShown, inside⟩ := induction later
        exact ⟨slot, List.mem_cons_of_mem _ listed, own, ownShown, inside⟩

end ShowAll

theorem eq_elementsOf_of_parts {value : Value} {elements : List Value}
    (parts : value.parts = .ok elements) : elements = elementsOf value := by
  unfold Value.parts at parts
  split at parts <;> cases parts <;> rfl

theorem eq_elementsOf_of_orElse {value : Value} {elements : List Value}
    (parts : (value.orElse (.list [])).parts = .ok elements) : elements = elementsOf value := by
  have same := eq_elementsOf_of_parts parts
  rw [Value.orElse] at same
  split at same
  · exact same
  · -- A list that counts as absent is empty, and nothing else has elements.
    cases value with
    | scalar content => exact same
    | record entries => exact same
    | list values =>
        cases values with
        | nil => exact same
        | cons first others => exact absurd rfl ‹_›

theorem showAll_types {values : List Value} {types : List TypeExpr}
    (read : readTypes values = .ok types) :
    ShowAll (values.map (.read .type)) (TypeExpr.textsOf types) := by
  induction values generalizing types with
  | nil =>
      rw [readTypes] at read
      cases read
      exact .nil
  | cons value rest induction =>
      rw [readTypes] at read
      obtain ⟨type, typeRead, read⟩ := Outcome.bind_eq_ok_iff.mp read
      obtain ⟨types, restRead, same⟩ := Outcome.bind_eq_ok_iff.mp read
      cases same
      exact .cons (.type typeRead) (induction restRead)

theorem showAll_traits {values : List Value} {paths : List PathExpr}
    (read : readTraits values = .ok paths) :
    ShowAll (values.flatMap traitSlots) (PathExpr.textsOf paths) := by
  induction values generalizing paths with
  | nil =>
      rw [readTraits] at read
      cases read
      exact .nil
  | cons value rest induction =>
      rw [readTraits] at read
      rw [List.flatMap_cons, traitSlots]
      split at read
      · obtain ⟨path, pathRead, read⟩ := Outcome.bind_eq_ok_iff.mp read
        obtain ⟨paths, restRead, same⟩ := Outcome.bind_eq_ok_iff.mp read
        cases same
        rw [if_pos ‹_›]
        exact .cons (.path pathRead) (induction restRead)
      · rw [if_neg ‹_›]
        exact induction read

theorem showAll_args {values : List Value} {args : List ArgExpr}
    (read : readArgs values = .ok args) :
    ShowAll (values.flatMap argSlots) (ArgExpr.textsOf args) := by
  induction values generalizing args with
  | nil =>
      rw [readArgs] at read
      cases read
      exact .nil
  | cons value rest induction =>
      rw [readArgs] at read
      rw [List.flatMap_cons, argSlots]
      cases found : value.get? "type" with
      | some content =>
          rw [found] at read
          obtain ⟨type, typeRead, read⟩ := Outcome.bind_eq_ok_iff.mp read
          obtain ⟨args, restRead, same⟩ := Outcome.bind_eq_ok_iff.mp read
          cases same
          rw [Value.get, found] at typeRead
          exact .cons (.type typeRead) (induction restRead)
      | none =>
          rw [found] at read
          cases lifetime : value.get? "lifetime" with
          | some name =>
              rw [lifetime] at read
              obtain ⟨args, restRead, same⟩ := Outcome.bind_eq_ok_iff.mp read
              cases same
              exact .cons .copied (induction restRead)
          | none =>
              rw [lifetime] at read
              exact induction read

theorem showAll_bounds {values : List Value} {bounds : List BoundExpr}
    (read : readBounds values = .ok bounds) :
    ShowAll (values.flatMap boundSlots) (BoundExpr.textsOf bounds) := by
  induction values generalizing bounds with
  | nil =>
      rw [readBounds] at read
      cases read
      exact .nil
  | cons value rest induction =>
      rw [readBounds] at read
      rw [List.flatMap_cons, boundSlots]
      split at read
      · obtain ⟨path, pathRead, read⟩ := Outcome.bind_eq_ok_iff.mp read
        obtain ⟨bounds, restRead, same⟩ := Outcome.bind_eq_ok_iff.mp read
        cases same
        rw [if_pos ‹_›, BoundExpr.textsOf]
        refine .append ?_ (induction restRead)
        exact .cons .fixed (.single (.path pathRead))
      · rw [if_neg ‹_›]
        cases found : value.get? "outlives" with
        | some lifetime =>
            rw [found] at read
            obtain ⟨bounds, restRead, same⟩ := Outcome.bind_eq_ok_iff.mp read
            cases same
            exact .cons .copied (induction restRead)
        | none =>
            rw [found] at read
            exact induction read

theorem showAll_name (path : Value) : ShowAll [nameSlot path] [pathName path] := by
  unfold nameSlot pathName
  generalize (path.get "path").orElse (path.get "name") = name
  dsimp only [Value.orElse]
  split
  · exact .single .copied
  · exact .single .fixed

theorem eq_elementsOf_of_pathArgs {path : Value} {args : List Value}
    (parts : (pathArgs path).parts = .ok args) :
    args = elementsOf (((path.get "args").get "angle_bracketed").get "args") := by
  unfold pathArgs at parts
  generalize (path.get "args").get "angle_bracketed" = bracketed at parts
  cases bracketed with
  | record entries => exact eq_elementsOf_of_orElse parts
  | scalar content =>
      cases parts
      rfl
  | list elements =>
      cases parts
      rfl

theorem showAll_path {value : Value} {path : PathExpr} (read : readPath value = .ok path) :
    ShowAll (pathSlots value) path.texts := by
  rw [readPath] at read
  rw [pathSlots]
  split at read
  · rw [if_pos ‹_›]
    split at read
    · rename_i listed
      obtain ⟨args, argsRead, same⟩ := Outcome.bind_eq_ok_iff.mp read
      cases same
      rw [eq_elementsOf_of_pathArgs listed] at argsRead
      exact (showAll_name value).append (showAll_args argsRead)
    · cases read
  · rw [if_neg ‹_›]
    cases read
    exact .single .fixed

theorem showAll_lifetime (lifetime : Value) :
    ShowAll (givenSlots .copied lifetime)
      (if lifetime.isTruthy then some lifetime.toText else none).toList := by
  rw [givenSlots]
  split
  · exact .single .copied
  · exact .nil

/-- The texts of a type fill the slots of the value that it is read from, form by form. -/
theorem showAll_type {value : Value} {type : TypeExpr} (read : readType value = .ok type) :
    ShowAll (typeSlots value) type.texts := by
  rw [readType.eq_def] at read
  split at read
  · cases read
    exact .single .fixed
  · cases read
    rw [typeSlots]
    split
    · exact .nil
    · exact .single .copied
  · rename_i tag content
    rw [typeSlots]
    generalize tag.toText = form at read
    -- The forms that take any content come first, then those that take a record.
    split at read
    · cases read
      exact .single .copied
    · cases read
      exact .single .copied
    · exact .of_read read fun _ path => .single (.path path)
    · exact .of_read read fun _ types => showAll_types types
    · exact .of_read read fun _ bounds => .single (.bounds bounds)
    · exact .of_read read fun _ element => (ShowAll.single (.type element) :)
    · split at read
      · rename_i isRecord
        rw [formSlots, if_pos isRecord]
        · split at read
          · exact .of_read read fun _ target => (showAll_lifetime _).append (.single (.type target))
          · exact .of_read read fun _ target => (ShowAll.single (.type target) :)
          · exact .of_read read fun _ element => .cons (.type element) (.single .copied)
          · split at read
            · rename_i listed
              rw [eq_elementsOf_of_orElse listed] at read
              exact .of_read read fun _ traits => showAll_traits traits
            · cases read
          · obtain ⟨self, selfRead, read⟩ := Outcome.bind_eq_ok_iff.mp read
            rw [fieldSlots]
            dsimp only at read
            split at read
            · rename_i given
              rw [givenSlots, if_pos given]
              exact .of_read read fun _ trait =>
                .cons (.type selfRead) (.cons (.path trait) (.single .copied))
            · rename_i absent
              cases read
              rw [givenSlots, if_neg absent]
              exact .cons (.type selfRead) (.single .copied)
          · cases read
            exact .nil
          · cases read
            rw [fieldSlots]
            · exact .nil
            all_goals assumption
        all_goals assumption
      · rename_i noRecord
        cases read
        rw [formSlots, if_neg noRecord]
        · exact .nil
        all_goals assumption
  · cases read
    rw [typeSlots]
    · exact .nil
    all_goals assumption

theorem Slot.Shows.showAll {role : Role} {value : Value} {texts : List String}
    (shows : (Slot.read role value).Shows texts) : ShowAll (role.slots value) texts := by
  cases shows with
  | type read => exact showAll_type read
  | path read => exact showAll_path read
  | bounds read => exact showAll_bounds read

/-! ### Copied parts -/

/-- What is copied is among the texts that are shown. -/
theorem Slot.Copies.mem_texts {slot : Slot} {part : Value} {texts : List String}
    (copies : slot.Copies part) (shows : slot.Shows texts) : part.toText ∈ texts := by
  induction copies generalizing texts with
  | here =>
      cases shows
      exact List.mem_cons_self
  | deeper member _ induction =>
      obtain ⟨own, ownShown, inside⟩ := shows.showAll.exists_of_slot member
      exact inside _ (induction ownShown)

end Signature

end ApiCensus
