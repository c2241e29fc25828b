import ApiCensus.Signature.TypeExpr
import ApiCensus.Value.Basic

/-!
# Reading type expressions

Type trees of an index become type expressions.  A type tree is a record with one
entry, whose key tells the form of the type.  What is not understood becomes a
hole; only a value in the place of a list that cannot be run through is an error.
-/

namespace ApiCensus.Signature

/-- Whether a reference or pointer is mutable; older versions use another name. -/
def isMutable (value : Value) : Bool :=
  ((value.get? "is_mutable").getD (value.get "mutable")).isTruthy

/-- The sign of a trait bound modifier. -/
def modifierSign (modifier : Value) : String :=
  match (modifier.orElse (.text "none")).toText with
  | "maybe" => "?"
  | "maybe_const" => "~const "
  | _ => ""

/-- The name of a path. -/
def pathName (path : Value) : String :=
  (((path.get "path").orElse (path.get "name")).orElse (.text "_")).toText

/-- The value that holds the arguments of a path. -/
def pathArgs (path : Value) : Value :=
  let bracketed := (path.get "args").get "angle_bracketed"
  if bracketed.isRecord then (bracketed.get "args").orElse (.list []) else .list []

private theorem sizeOf_list_nil_le (value : Value) : sizeOf (Value.list []) ≤ sizeOf value :=
  Value.two_le_sizeOf value

private theorem sizeOf_pathArgs_le (path : Value) : sizeOf (pathArgs path) ≤ sizeOf path := by
  have args := Value.sizeOf_get_le path "args"
  have bracketed := Value.sizeOf_get_le (path.get "args") "angle_bracketed"
  have inner := Value.sizeOf_get_le ((path.get "args").get "angle_bracketed") "args"
  have small := sizeOf_list_nil_le path
  simp only [pathArgs, Value.orElse]
  split
  · split
    · omega
    · exact small
  · exact small

/-- The list that a record holds under a name; nothing stands for an empty one. -/
def listUnder (value : Value) (name : String) : Value :=
  (value.get name).orElse (.list [])

private theorem sizeOf_listUnder_le (value : Value) (name : String) :
    sizeOf (listUnder value name) ≤ sizeOf value := by
  have part := Value.sizeOf_get_le value name
  have small := sizeOf_list_nil_le value
  simp only [listUnder, Value.orElse]
  split <;> assumption

/-- The elements of a list; anything else has none. -/
def elementsOf : Value → List Value
  | .list elements => elements
  | _ => []

private theorem sizeOf_elementsOf_lt (value : Value) : sizeOf (elementsOf value) < sizeOf value := by
  cases value with
  | scalar content => exact Value.two_le_sizeOf _
  | list elements =>
      simp only [elementsOf, Value.list.sizeOf_spec]
      omega
  | record entries => exact Value.two_le_sizeOf _

set_option linter.unusedVariables false in
mutual

/-- Read a type. -/
def readType (value : Value) : Except ShapeError TypeExpr :=
  match value with
  | .null => .ok (.named "()")
  | .text name => .ok (if name = "infer" then .hole else .named name)
  | .record [(tag, content)] =>
      match tag.toText with
      | "generic" => .ok (.named content.toText)
      | "primitive" => .ok (.named content.toText)
      | "resolved_path" => do return .path (← readPath content)
      | "tuple" => do return .tuple (← readTypes (elementsOf content))
      | "impl_trait" => do return .implTrait (← readBounds (elementsOf content))
      | "slice" => do return .slice (← readType content)
      | form =>
          if content.isRecord then
            match form with
            | "borrowed_ref" => do
                let lifetime := content.get "lifetime"
                let name := if lifetime.isTruthy then some lifetime.toText else none
                return .reference name (isMutable content) (← readType (content.get "type"))
            | "raw_pointer" => do
                return .pointer (isMutable content) (← readType (content.get "type"))
            | "array" => do
                return .array (← readType (content.get "type")) (content.get "len").toText
            | "dyn_trait" =>
                match found : (listUnder content "traits").parts with
                | .ok traits => do return .dynTrait (← readTraits traits)
                | .error cause => .error cause
            | "qualified_path" => do
                let self ← readType (content.get "self_type")
                let name := (content.get "name").toText
                if (content.get "trait").isTruthy then
                  return .projection self (← readPath (content.get "trait")) name
                else return .associated self name
            | "function_pointer" => .ok .functionPointer
            | _ => .ok .hole
          else .ok .hole
  | _ => .ok .hole
termination_by sizeOf value
decreasing_by
  all_goals
    have elements := sizeOf_elementsOf_lt content
    have target := Value.sizeOf_get_le content "type"
    have self := Value.sizeOf_get_le content "self_type"
    have trait := Value.sizeOf_get_le content "trait"
    have traits := sizeOf_listUnder_le content "traits"
    try have parts := Value.sizeOf_lt_of_parts_eq_ok found
    simp only [Value.record.sizeOf_spec, List.cons.sizeOf_spec, Prod.mk.sizeOf_spec]
    omega

/-- Read types. -/
def readTypes (values : List Value) : Except ShapeError (List TypeExpr) :=
  match values with
  | [] => .ok []
  | value :: rest => do return (← readType value) :: (← readTypes rest)
termination_by sizeOf values

/-- Read a path. -/
def readPath (value : Value) : Except ShapeError PathExpr :=
  if value.isRecord then
    match found : (pathArgs value).parts with
    | .ok args => do return .mk (pathName value) (← readArgs args)
    | .error cause => .error cause
  else .ok .hole
termination_by sizeOf value
decreasing_by
  have parts := Value.sizeOf_lt_of_parts_eq_ok found
  have args := sizeOf_pathArgs_le value
  omega

/-- Read the arguments of a path; only types and lifetimes are kept. -/
def readArgs (values : List Value) : Except ShapeError (List ArgExpr) :=
  match values with
  | [] => .ok []
  | value :: rest =>
      match value.get? "type", value.get? "lifetime" with
      | some _, _ => do return .type (← readType (value.get "type")) :: (← readArgs rest)
      | none, some name => do return .lifetime name.toText :: (← readArgs rest)
      | none, none => readArgs rest
termination_by sizeOf values
decreasing_by
  all_goals
    have type := Value.sizeOf_get_le value "type"
    simp only [List.cons.sizeOf_spec]
    omega

/-- Read the traits of a trait object. -/
def readTraits (values : List Value) : Except ShapeError (List PathExpr) :=
  match values with
  | [] => .ok []
  | value :: rest =>
      if value.isRecord then do
        return (← readPath (value.get "trait")) :: (← readTraits rest)
      else readTraits rest
termination_by sizeOf values
decreasing_by
  all_goals
    have trait := Value.sizeOf_get_le value "trait"
    simp only [List.cons.sizeOf_spec]
    omega

/-- Read bounds; only traits and lifetimes are kept. -/
def readBounds (values : List Value) : Except ShapeError (List BoundExpr) :=
  match values with
  | [] => .ok []
  | value :: rest =>
      if (value.get "trait_bound").isRecord then do
        let bound := value.get "trait_bound"
        let trait ← readPath ((value.get "trait_bound").get "trait")
        return .trait (modifierSign (bound.get "modifier")) trait :: (← readBounds rest)
      else
        match value.get? "outlives" with
        | some lifetime => do return .outlives lifetime.toText :: (← readBounds rest)
        | none => readBounds rest
termination_by sizeOf values
decreasing_by
  all_goals
    have bound := Value.sizeOf_get_le value "trait_bound"
    have trait := Value.sizeOf_get_le (value.get "trait_bound") "trait"
    simp only [List.cons.sizeOf_spec]
    omega

end

/-- Read the bounds that a value lists. -/
def readBoundList (value : Value) : Except ShapeError (List BoundExpr) := do
  readBounds (← value.parts)

end ApiCensus.Signature
