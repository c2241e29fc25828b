import ApiCensus.Proofs.Brackets
import ApiCensus.Proofs.CopiedParts
import ApiCensus.Signature.Declaration

/-!
# Rendered types are well bracketed

The text of a type opens and closes brackets around the texts that its expression holds: those of
tuples, slices, arrays, arguments and projections.  Each form closes what it opens, so the text of
a type of any depth, known or unknown, is well bracketed if the names, lifetimes, lengths and other
scalars that are copied into it have no brackets.  The same goes for bounds and paths.
-/

namespace ApiCensus

open Text (WellBracketed Framed FramedAll)

/-! ### Frames of expressions -/

mutual

/-- The text of a type frames the texts that the type holds. -/
theorem TypeExpr.framed_render (type : TypeExpr) : Framed type.texts type.render := by
  cases type with
  | named name => exact .given name
  | path path => exact path.framed_render
  | reference lifetime isMutable target =>
      have mutability : WellBracketed (if isMutable then "mut " else "") := by
        cases isMutable <;> decide
      cases lifetime with
      | none =>
          have sign : WellBracketed ("&" ++ "") := by decide
          rw [TypeExpr.render]
          exact target.framed_render.after (sign.append mutability)
      | some name =>
          have spaced := (Framed.given name).before (by decide : WellBracketed " ")
          have front := (spaced.after (by decide : WellBracketed "&")).before mutability
          rw [TypeExpr.render]
          exact front.append target.framed_render
  | pointer isMutable target =>
      have sign : WellBracketed ("*" ++ (if isMutable then "mut" else "const") ++ " ") := by
        cases isMutable <;> decide
      rw [TypeExpr.render]
      exact target.framed_render.after sign
  | tuple elements =>
      have inner :=
        (TypeExpr.framed_renderList elements).intercalate (by decide : WellBracketed ", ")
      rw [TypeExpr.render]
      exact inner.enclosed (rfl : Text.closing? '(' = some ')') rfl rfl
  | slice element =>
      rw [TypeExpr.render]
      exact element.framed_render.enclosed (rfl : Text.closing? '[' = some ']') rfl rfl
  | array element length =>
      have inner : Framed (element.texts ++ [length]) (element.render ++ "; " ++ length) :=
        (element.framed_render.before (by decide)).append (.given length)
      have framed : Framed _ ("[" ++ (element.render ++ "; " ++ length) ++ "]") :=
        inner.enclosed (rfl : Text.closing? '[' = some ']') rfl rfl
      simpa only [TypeExpr.render, TypeExpr.texts, String.append_assoc] using framed
  | implTrait bounds =>
      have inner :=
        (BoundExpr.framed_renderList bounds).intercalate (by decide : WellBracketed " + ")
      rw [TypeExpr.render]
      exact inner.after (by decide)
  | dynTrait traits =>
      have inner :=
        (PathExpr.framed_renderList traits).intercalate (by decide : WellBracketed " + ")
      rw [TypeExpr.render]
      exact inner.after (by decide)
  | associated self name =>
      rw [TypeExpr.render]
      exact (self.framed_render.before (by decide)).append (.given name)
  | projection self trait name =>
      have inner : Framed (self.texts ++ trait.texts) (self.render ++ " as " ++ trait.render) :=
        (self.framed_render.before (by decide)).append trait.framed_render
      have member : Framed [name] ("::" ++ name) := (Framed.given name).after (by decide)
      have framed : Framed _ ("<" ++ (self.render ++ " as " ++ trait.render) ++ ">") :=
        inner.enclosed (rfl : Text.closing? '<' = some '>') rfl rfl
      have closed : ">::" = ">" ++ "::" := rfl
      simpa only [TypeExpr.render, TypeExpr.texts, closed, String.append_assoc,
        List.append_assoc] using framed.append member
  | functionPointer => exact .fixed (by decide)
  | hole => exact .fixed (by decide)

theorem TypeExpr.framed_renderList (types : List TypeExpr) :
    FramedAll (TypeExpr.textsOf types) (TypeExpr.renderList types) := by
  cases types with
  | nil => exact .nil
  | cons type rest => exact .cons type.framed_render (TypeExpr.framed_renderList rest)

/-- The text of a path frames the texts that the path holds. -/
theorem PathExpr.framed_render (path : PathExpr) : Framed path.texts path.render := by
  cases path with
  | mk name args =>
      have arguments := ArgExpr.framed_renderList args
      rw [PathExpr.render, PathExpr.texts]
      cases rendered : ArgExpr.renderList args with
      | nil =>
          -- Without arguments there are no brackets, and no texts beside the name.
          rw [rendered] at arguments
          generalize ArgExpr.textsOf args = texts at arguments
          cases arguments
          exact .given name
      | cons first others =>
          rw [rendered] at arguments
          have inner := arguments.intercalate (by decide : WellBracketed ", ")
          have framed : Framed _ ("<" ++ ", ".intercalate (first :: others) ++ ">") :=
            inner.enclosed (rfl : Text.closing? '<' = some '>') rfl rfl
          simpa only [String.append_assoc, List.singleton_append] using
            (Framed.given name).append framed

theorem PathExpr.framed_renderList (paths : List PathExpr) :
    FramedAll (PathExpr.textsOf paths) (PathExpr.renderList paths) := by
  cases paths with
  | nil => exact .nil
  | cons path rest => exact .cons path.framed_render (PathExpr.framed_renderList rest)

theorem ArgExpr.framed_render (arg : ArgExpr) : Framed arg.texts arg.render := by
  cases arg with
  | type content => exact content.framed_render
  | lifetime name => exact .given name

theorem ArgExpr.framed_renderList (args : List ArgExpr) :
    FramedAll (ArgExpr.textsOf args) (ArgExpr.renderList args) := by
  cases args with
  | nil => exact .nil
  | cons arg rest => exact .cons arg.framed_render (ArgExpr.framed_renderList rest)

theorem BoundExpr.framed_render (bound : BoundExpr) : Framed bound.texts bound.render := by
  cases bound with
  | trait modifier path => exact (Framed.given modifier).append path.framed_render
  | outlives lifetime => exact .given lifetime

theorem BoundExpr.framed_renderList (bounds : List BoundExpr) :
    FramedAll (BoundExpr.textsOf bounds) (BoundExpr.renderList bounds) := by
  cases bounds with
  | nil => exact .nil
  | cons bound rest => exact .cons bound.framed_render (BoundExpr.framed_renderList rest)

end

namespace Signature

/-! ### Slots of smaller values -/

/-- Signs are well bracketed, and what is read in turn is smaller than the bound, so that reading
slots of slots comes to an end. -/
def Slot.Within (bound : Nat) : Slot → Prop
  | .fixed sign => WellBracketed sign
  | .copied _ => True
  | .read _ part => sizeOf part < bound

theorem Slot.Within.mono {slot : Slot} {bound larger : Nat} (within : slot.Within bound)
    (above : bound ≤ larger) : slot.Within larger := by
  cases slot with
  | fixed sign => exact within
  | copied part => trivial
  | read role part => exact Nat.lt_of_lt_of_le within above

theorem sizeOf_lt_of_mem_elementsOf {value element : Value} (member : element ∈ elementsOf value) :
    sizeOf element < sizeOf value := by
  cases value with
  | scalar content => cases member
  | record entries => cases member
  | list elements =>
      have smaller := List.sizeOf_lt_of_mem member
      rw [Value.list.sizeOf_spec]
      simp only [elementsOf] at smaller
      omega

theorem within_flatMap {slots : Value → List Slot}
    (each : ∀ element, ∀ slot ∈ slots element, slot.Within (sizeOf element + 1)) (value : Value) :
    ∀ slot ∈ (elementsOf value).flatMap slots, slot.Within (sizeOf value) := by
  intro slot member
  obtain ⟨element, listed, inside⟩ := List.mem_flatMap.mp member
  exact (each element slot inside).mono (sizeOf_lt_of_mem_elementsOf listed)

theorem within_argSlots (arg : Value) : ∀ slot ∈ argSlots arg, slot.Within (sizeOf arg + 1) := by
  have smaller := Value.sizeOf_get_le arg "type"
  rw [Value.get] at smaller
  unfold argSlots
  split
  · rename_i found
    rw [found] at smaller
    exact List.forall_mem_singleton.mpr (Nat.lt_succ_of_le smaller)
  · exact List.forall_mem_singleton.mpr trivial
  · exact List.forall_mem_nil _

theorem within_nameSlot (path : Value) (bound : Nat) : (nameSlot path).Within bound := by
  unfold nameSlot
  dsimp only
  split
  · trivial
  · exact (by decide : WellBracketed "_")

theorem within_pathSlots (path : Value) : ∀ slot ∈ pathSlots path, slot.Within (sizeOf path) := by
  unfold pathSlots
  split
  · have args := Value.sizeOf_get_le path "args"
    have bracketed := Value.sizeOf_get_le (path.get "args") "angle_bracketed"
    have listed := Value.sizeOf_get_le ((path.get "args").get "angle_bracketed") "args"
    refine List.forall_mem_cons.mpr ⟨within_nameSlot path _, fun slot member => ?_⟩
    exact (within_flatMap within_argSlots _ slot member).mono (by omega)
  · exact List.forall_mem_singleton.mpr (by decide : WellBracketed "_")

theorem wellBracketed_modifierSign (modifier : Value) : WellBracketed (modifierSign modifier) := by
  unfold modifierSign
  split <;> decide

theorem within_boundSlots (value : Value) :
    ∀ slot ∈ boundSlots value, slot.Within (sizeOf value + 1) := by
  have bound := Value.sizeOf_get_le value "trait_bound"
  have trait := Value.sizeOf_get_le (value.get "trait_bound") "trait"
  unfold boundSlots
  dsimp only
  split
  · refine List.forall_mem_cons.mpr ⟨wellBracketed_modifierSign _, ?_⟩
    exact List.forall_mem_singleton.mpr (Nat.lt_succ_of_le (Nat.le_trans trait bound))
  · split
    · exact List.forall_mem_singleton.mpr trivial
    · exact List.forall_mem_nil _

theorem within_traitSlots (holder : Value) :
    ∀ slot ∈ traitSlots holder, slot.Within (sizeOf holder + 1) := by
  unfold traitSlots
  split
  · exact List.forall_mem_singleton.mpr (Nat.lt_succ_of_le (Value.sizeOf_get_le holder "trait"))
  · exact List.forall_mem_nil _

theorem within_givenSlots {slot : Value → Slot} {value : Value} {bound : Nat}
    (within : (slot value).Within bound) : ∀ given ∈ givenSlots slot value, given.Within bound := by
  unfold givenSlots
  split
  · exact List.forall_mem_singleton.mpr within
  · exact List.forall_mem_nil _

theorem within_part (role : Role) (content : Value) (name : String) :
    (Slot.read role (content.get name)).Within (sizeOf content + 1) :=
  Nat.lt_succ_of_le (Value.sizeOf_get_le content name)

theorem within_fieldSlots (form : String) (content : Value) :
    ∀ slot ∈ fieldSlots form content, slot.Within (sizeOf content + 1) := by
  unfold fieldSlots
  split
  · refine List.forall_mem_append.mpr ⟨within_givenSlots trivial, ?_⟩
    exact List.forall_mem_singleton.mpr (within_part .type content "type")
  · exact List.forall_mem_singleton.mpr (within_part .type content "type")
  · refine List.forall_mem_cons.mpr ⟨within_part .type content "type", ?_⟩
    exact List.forall_mem_singleton.mpr trivial
  · intro slot member
    have traits := Value.sizeOf_get_le content "traits"
    exact (within_flatMap within_traitSlots _ slot member).mono (by omega)
  · refine List.forall_mem_cons.mpr ⟨within_part .type content "self_type", ?_⟩
    refine List.forall_mem_append.mpr ⟨within_givenSlots (within_part .path content "trait"), ?_⟩
    exact List.forall_mem_singleton.mpr trivial
  · exact List.forall_mem_nil _

theorem within_formSlots (form : String) (content : Value) :
    ∀ slot ∈ formSlots form content, slot.Within (sizeOf content + 1) := by
  unfold formSlots
  split
  · exact List.forall_mem_singleton.mpr trivial
  · exact List.forall_mem_singleton.mpr trivial
  · exact List.forall_mem_singleton.mpr (Nat.lt_succ_self _)
  · intro slot member
    obtain ⟨element, listed, rfl⟩ := List.mem_map.mp member
    exact Nat.lt_succ_of_lt (sizeOf_lt_of_mem_elementsOf listed)
  · exact List.forall_mem_singleton.mpr (Nat.lt_succ_self _)
  · exact List.forall_mem_singleton.mpr (Nat.lt_succ_self _)
  · split
    · exact within_fieldSlots _ content
    · exact List.forall_mem_nil _

theorem within_typeSlots (value : Value) :
    ∀ slot ∈ typeSlots value, slot.Within (sizeOf value) := by
  unfold typeSlots
  split
  · exact List.forall_mem_singleton.mpr (by decide : WellBracketed "()")
  · split
    · exact List.forall_mem_nil _
    · exact List.forall_mem_singleton.mpr trivial
  · intro slot member
    refine (within_formSlots _ _ slot member).mono ?_
    simp only [Value.record.sizeOf_spec, List.cons.sizeOf_spec, Prod.mk.sizeOf_spec]
    omega
  · exact List.forall_mem_nil _

theorem Role.within_slots (role : Role) (value : Value) :
    ∀ slot ∈ role.slots value, slot.Within (sizeOf value) := by
  cases role with
  | type => exact within_typeSlots value
  | path => exact within_pathSlots value
  | bounds => exact within_flatMap within_boundSlots value

/-- The texts of an expression are well bracketed if those that are copied are. -/
theorem Slot.Shows.wellBracketed {role : Role} {value : Value} {texts : List String}
    (shows : (Slot.read role value).Shows texts)
    (copied : ∀ part, (Slot.read role value).Copies part → WellBracketed part.toText) :
    ∀ text ∈ texts, WellBracketed text := by
  intro text member
  obtain ⟨slot, listed, own, ownShown, inside⟩ := shows.showAll.exists_slot member
  have within := role.within_slots value slot listed
  have below := fun part (copies : slot.Copies part) => copied part (.deeper listed copies)
  cases slot with
  | fixed sign =>
      cases ownShown
      cases List.mem_singleton.mp inside
      exact within
  | copied part =>
      cases ownShown
      cases List.mem_singleton.mp inside
      exact below part .here
  | read inner next => exact ownShown.wellBracketed below text inside
termination_by sizeOf value

/-! ### Written texts -/

/-- A text that is written for a value: that of a type, of bounds, or of a path with its
arguments. -/
inductive Writes : Role → Value → String → Prop
  | type {value : Value} {text : String} (format : formatType value = .ok text) :
      Writes .type value text
  | bounds {value : Value} {text : String} (format : formatBounds value = .ok text) :
      Writes .bounds value text
  | path {value : Value} {path : PathExpr} (read : readPath value = .ok path) :
      Writes .path value path.render

/-- A scalar whose text holds no bracket. -/
def Plain (part : Value) : Prop :=
  ∃ content : Scalar, part = .scalar content ∧ Text.Unbracketed content.toText

theorem wellBracketed_of_plain {part : Value} (plain : Plain part) :
    WellBracketed part.toText := by
  obtain ⟨content, rfl, unbracketed⟩ := plain
  have same : (Value.scalar content).toText = content.toText := by
    cases content <;> rfl
  rw [same]
  exact .of_unbracketed unbracketed

theorem Writes.exists_framed {role : Role} {value : Value} {text : String}
    (writes : Writes role value text) :
    ∃ texts, (Slot.read role value).Shows texts ∧ Framed texts text := by
  cases writes with
  | type format =>
      obtain ⟨type, read, same⟩ := Outcome.bind_eq_ok_iff.mp format
      cases same
      exact ⟨_, .type read, type.framed_render⟩
  | bounds format =>
      obtain ⟨bounds, listRead, same⟩ := Outcome.bind_eq_ok_iff.mp format
      cases same
      obtain ⟨elements, parts, read⟩ := Outcome.bind_eq_ok_iff.mp listRead
      rw [eq_elementsOf_of_parts parts] at read
      exact ⟨_, .bounds read, (BoundExpr.framed_renderList bounds).intercalate (by decide)⟩
  | @path _ path read => exact ⟨_, .path read, path.framed_render⟩

/-- A text that is written for a value is well bracketed if all that is copied into it as it is are
scalars without brackets; and what counts as copied does stand in it. -/
theorem written_wellBracketed {role : Role} {value : Value} {text : String}
    (writes : Writes role value text)
    (plain : ∀ part, (Slot.read role value).Copies part → Plain part) :
    WellBracketed text ∧
      ∀ part, (Slot.read role value).Copies part → Text.contains text part.toText = true := by
  obtain ⟨texts, shows, framed⟩ := writes.exists_framed
  have bracketed := shows.wellBracketed fun part copies =>
    wellBracketed_of_plain (plain part copies)
  exact ⟨framed.wellBracketed bracketed,
    fun part copies => framed.contains (copies.mem_texts shows)⟩

/-- A path with an argument. -/
def vector : Value :=
  .ofFields [("path", .text "Vec"), ("args", .ofFields [("angle_bracketed",
    .ofFields [("args", .list [.ofFields [("type", .ofFields [("generic", .text "T")])]])])])]

/-- A slice of tuples. -/
def slice : Value :=
  .ofFields [("slice", .ofFields [("tuple", .list [.null, .ofFields [("resolved_path", vector)]])])]

theorem formatType_slice : formatType slice = .ok "[((), Vec<T>)]" := by
  have generic : readType (.ofFields [("generic", .text "T")]) = .ok (.named "T") := by
    rw [readType.eq_def]
    rfl
  have args : readArgs [.ofFields [("type", .ofFields [("generic", .text "T")])]] =
      .ok [.type (.named "T")] := by
    rw [readArgs.eq_def]
    refine Outcome.bind_eq_ok_iff.mpr ⟨_, generic, Outcome.bind_eq_ok_iff.mpr ⟨[], ?_, rfl⟩⟩
    rw [readArgs]
  have path : readPath vector = .ok (.mk "Vec" [.type (.named "T")]) := by
    rw [readPath.eq_def]
    exact Outcome.bind_eq_ok_iff.mpr ⟨_, args, rfl⟩
  have unit : readType .null = .ok (.named "()") := by rw [readType]
  have resolved : readType (.ofFields [("resolved_path", vector)]) =
      .ok (.path (.mk "Vec" [.type (.named "T")])) := by
    rw [readType.eq_def]
    exact Outcome.bind_eq_ok_iff.mpr ⟨_, path, rfl⟩
  have types : readTypes [.null, .ofFields [("resolved_path", vector)]] =
      .ok [.named "()", .path (.mk "Vec" [.type (.named "T")])] := by
    rw [readTypes, readTypes, readTypes, unit, resolved]
    rfl
  have tuple :
      readType (.ofFields [("tuple", .list [.null, .ofFields [("resolved_path", vector)]])]) =
      .ok (.tuple [.named "()", .path (.mk "Vec" [.type (.named "T")])]) := by
    rw [readType.eq_def]
    exact Outcome.bind_eq_ok_iff.mpr ⟨_, types, rfl⟩
  have read : readType slice =
      .ok (.slice (.tuple [.named "()", .path (.mk "Vec" [.type (.named "T")])])) := by
    rw [readType.eq_def]
    exact Outcome.bind_eq_ok_iff.mpr ⟨_, tuple, rfl⟩
  exact Outcome.bind_eq_ok_iff.mpr ⟨_, read, rfl⟩

theorem forall_copies_read_iff {role : Role} {value : Value} {property : Value → Prop} :
    (∀ part, (Slot.read role value).Copies part → property part) ↔
      ∀ slot ∈ role.slots value, ∀ part, slot.Copies part → property part := by
  constructor
  · intro each slot member part copies
    exact each part (.deeper member copies)
  · rintro each part ⟨⟩
    exact each _ ‹_› part ‹_›

theorem forall_copies_slice {property : Value → Prop} (name : property (.text "Vec"))
    (argument : property (.text "T")) :
    ∀ part, (Slot.read .type slice).Copies part → property part := by
  have unit : ∀ part, (Slot.read .type .null).Copies part → property part :=
    forall_copies_read_iff.mpr (List.forall_mem_singleton.mpr fun part copies => nomatch copies)
  have generic : ∀ part, (Slot.read .type (.ofFields [("generic", .text "T")])).Copies part →
      property part := by
    refine forall_copies_read_iff.mpr (List.forall_mem_singleton.mpr ?_)
    rintro part ⟨⟩
    exact argument
  have path : ∀ part, (Slot.read .path vector).Copies part → property part := by
    refine forall_copies_read_iff.mpr (List.forall_mem_cons.mpr ⟨?_, ?_⟩)
    · rintro part ⟨⟩
      exact name
    · exact List.forall_mem_singleton.mpr generic
  have resolved : ∀ part, (Slot.read .type (.ofFields [("resolved_path", vector)])).Copies part →
      property part :=
    forall_copies_read_iff.mpr (List.forall_mem_singleton.mpr path)
  refine forall_copies_read_iff.mpr (List.forall_mem_singleton.mpr ?_)
  refine forall_copies_read_iff.mpr (List.forall_mem_cons.mpr ⟨unit, ?_⟩)
  exact List.forall_mem_singleton.mpr resolved

theorem slice_wellBracketed :
    formatType slice = .ok "[((), Vec<T>)]" ∧ WellBracketed "[((), Vec<T>)]" ∧
      Text.contains "[((), Vec<T>)]" "Vec" = true := by
  have plain : ∀ part, (Slot.read .type slice).Copies part → Plain part :=
    forall_copies_slice ⟨.text "Vec", rfl, by decide⟩ ⟨.text "T", rfl, by decide⟩
  have name : (Slot.read .path vector).Copies (.text "Vec") := .deeper List.mem_cons_self .here
  have copied : (Slot.read .type slice).Copies (.text "Vec") :=
    .deeper List.mem_cons_self (.deeper (List.mem_cons_of_mem _ List.mem_cons_self)
      (.deeper List.mem_cons_self name))
  have written := written_wellBracketed (.type formatType_slice) plain
  exact ⟨formatType_slice, written.1, written.2 _ copied⟩

end Signature

end ApiCensus
