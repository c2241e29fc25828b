import ApiCensus.Index.Item
import ApiCensus.Signature.ReadType

/-!
# Declarations

The one-line declaration of an item: qualifiers, name, generic parameters,
arguments, result and where clause, with the body elided.
-/

namespace ApiCensus.Signature

/-- A generic parameter of a declaration. -/
inductive ParamDecl
  | type (name : String) (bounds : List BoundExpr) (default : Option TypeExpr)
  | const (name : String) (type : TypeExpr)

/-- The text of a generic parameter. -/
def ParamDecl.render : ParamDecl → String
  | .type name bounds default =>
      let limits := BoundExpr.renderAll bounds
      name ++ (if limits.isEmpty then "" else ": " ++ limits) ++
        (match default with | some filler => " = " ++ filler.render | none => "")
  | .const name content => "const " ++ name ++ ": " ++ content.render

/-- The text of generic parameters; none leave no brackets. -/
def renderParams (params : List ParamDecl) : String :=
  if params.isEmpty then "" else "<" ++ ", ".intercalate (params.map ParamDecl.render) ++ ">"

/-- What a listed generic parameter amounts to: nothing to declare, a
declaration, or one that lacks a text for its name. -/
inductive ParamReading
  | skipped
  | declared (param : ParamDecl)
  | nameless

/-- Read the detail of a type parameter. A name that is no text is accepted in
front of bounds only. -/
def readTypeParam (name detail : Value) : Except ShapeError ParamReading := do
  let detail ← (detail.orElse (.record [])).asRecord
  if (detail.get "is_synthetic").isTruthy || (detail.get "synthetic").isTruthy then
    return .skipped
  let bounds ← readBoundList (listUnder detail "bounds")
  let default ←
    if (detail.get "default").isNull then pure none
    else some <$> readType (detail.get "default")
  match name with
  | .text content => return .declared (.type content bounds default)
  | _ =>
      if !(BoundExpr.renderAll bounds).isEmpty then
        return .declared (.type name.toText bounds default)
      else if default.isSome && !name.isList then throw .unsuited
      else return .nameless

/-- Read a generic parameter; lifetimes are left out. -/
def readParam (value : Value) : Except ShapeError ParamReading :=
  let kind := value.get "kind"
  let name := (value.get? "name").getD (.text "")
  match kind.get? "type", kind.get? "const" with
  | some detail, _ => readTypeParam name detail
  | none, some detail => do
      let detail ← (detail.orElse (.record [])).asRecord
      return .declared (.const name.toText (← readType (detail.get "type")))
  | none, none => .ok .skipped

/-- The declared parameters, if all of them have a name. -/
def collectParams : List ParamReading → Except ShapeError (List ParamDecl)
  | [] => .ok []
  | .skipped :: rest => collectParams rest
  | .declared param :: rest => do return param :: (← collectParams rest)
  | .nameless :: _ => .error .unsuited

/-- Read generic parameters. -/
def readParams (value : Value) : Except ShapeError (List ParamDecl) := do
  let readings ← (← value.parts).mapM readParam
  collectParams readings

/-- The text of the generic parameters that a value lists. -/
def formatParams (value : Value) : Except ShapeError String := do
  return renderParams (← readParams value)

/-- A condition of a where clause. -/
inductive Predicate
  | bound (type : TypeExpr) (bounds : List BoundExpr)
  | equality (left right : TypeExpr)

/-- The text of a condition. -/
def Predicate.render : Predicate → String
  | .bound type bounds => type.render ++ ": " ++ BoundExpr.renderAll bounds
  | .equality left right => left.render ++ " = " ++ right.render

/-- Read a condition; one of another form is left out. -/
def readPredicate (value : Value) : Except ShapeError (Option Predicate) := do
  let bound := value.get "bound_predicate"
  let equality := value.get "eq_predicate"
  if bound.isRecord then
    let bounds ← readBoundList (listUnder bound "bounds")
    return some (.bound (← readType (bound.get "type")) bounds)
  else if equality.isRecord then
    let right := equality.get "rhs"
    let left ← readType (equality.get "lhs")
    return some (.equality left (← readType (if right.isRecord then right.get "type" else right)))
  else return none

/-- The text of a where clause; no conditions leave it out. -/
def renderWhere (predicates : List Predicate) : String :=
  if predicates.isEmpty then ""
  else " where " ++ ", ".intercalate (predicates.map Predicate.render)

/-- The text of the where clause that a value lists. -/
def formatWhere (value : Value) : Except ShapeError String := do
  let predicates ← (← value.parts).mapM readPredicate
  return renderWhere (predicates.filterMap id)

/-- The text of a type. -/
def formatType (value : Value) : Except ShapeError String := do
  return (← readType value).render

/-- The text of the bounds that a value lists. -/
def formatBounds (value : Value) : Except ShapeError String := do
  return BoundExpr.renderAll (← readBoundList value)

/-- The text of an argument: a pair of name and type. What is no pair is none. -/
def formatArgument (value : Value) : Except ShapeError (Option String) :=
  match value with
  | .list [name, type] => do return some (name.toText ++ ": " ++ (← formatType type))
  | _ => .ok none

/-- The text of an elided body. -/
def elided : String := " \x7b .. \x7d"

/-- The declaration of a function. -/
def formatFunction (item : Item) (params condition : String) : Except ShapeError String := do
  let qualifiers := (if item.isConst then "const " else "") ++
    (if item.isAsync then "async " else "") ++ (if item.isUnsafe then "unsafe " else "")
  let sig ← (((item.inner.get "sig").orElse (item.inner.get "decl")).orElse (.record [])).asRecord
  let args ← (← (listUnder sig "inputs").parts).mapM formatArgument
  let output := sig.get "output"
  let result ← if output.isTruthy then (" -> " ++ ·) <$> formatType output else pure ""
  return qualifiers ++ "fn " ++ item.name.getD "None" ++ params ++ "(" ++
    ", ".intercalate (args.filterMap id) ++ ")" ++ result ++ condition ++
    (if item.hasBody then elided else ";")

/-- The declaration of a trait. -/
def formatTrait (item : Item) (params condition : String) : Except ShapeError String := do
  let inner := item.inner
  let bounds ← formatBounds (listUnder inner "bounds")
  return (if (inner.get "is_unsafe").isTruthy then "unsafe " else "") ++
    (if (inner.get "is_auto").isTruthy then "auto " else "") ++
    "trait " ++ item.name.getD "" ++ params ++ (if bounds.isEmpty then "" else ": " ++ bounds) ++
    condition ++ elided

/-- The declaration of an impl block. -/
def formatImpl (item : Item) (params condition : String) : Except ShapeError String := do
  let self ← formatType (item.inner.get "for")
  let trait := match item.traitName.filter (!·.isEmpty) with
    | some name => name ++ " for "
    | none => ""
  return (if item.isUnsafe then "unsafe " else "") ++ "impl" ++ params ++ " " ++ trait ++ self ++
    condition ++ elided

/-- The declaration of an item. -/
def declaration (item : Item) : Except ShapeError String := do
  let name := item.name.getD ""
  let generics := item.inner.get "generics"
  let params ← formatParams (listUnder generics "params")
  let condition ← formatWhere (listUnder generics "where_predicates")
  match item.kind with
  | .function => formatFunction item params condition
  | .trait => formatTrait item params condition
  | .struct | .enum | .union =>
      return item.kind.tag ++ " " ++ name ++ params ++ condition ++ elided
  | .impl => formatImpl item params condition
  | .typeAlias =>
      return "type " ++ name ++ params ++ " = " ++ (← formatType (item.inner.get "type")) ++ ";"
  | .constant =>
      return "const " ++ name ++ ": " ++ (← formatType (item.inner.get "type")) ++ ";"
  | .static =>
      return "static " ++ name ++ ": " ++ (← formatType (item.inner.get "type")) ++ ";"
  | _ => return Text.trim (item.rawKind ++ " " ++ name)

end ApiCensus.Signature
