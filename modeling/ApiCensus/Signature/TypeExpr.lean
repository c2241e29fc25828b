/-!
# Type expressions

Types, paths with type arguments, and bounds, as they stand in declarations, and
their one-line text.
-/

namespace ApiCensus

mutual

/-- A type. -/
inductive TypeExpr
  /-- A type that is written as it is named. -/
  | named (name : String)
  /-- A path to a type. -/
  | path (path : PathExpr)
  /-- A borrowed reference. -/
  | reference (lifetime : Option String) (isMutable : Bool) (target : TypeExpr)
  /-- A raw pointer. -/
  | pointer (isMutable : Bool) (target : TypeExpr)
  | tuple (elements : List TypeExpr)
  | slice (element : TypeExpr)
  | array (element : TypeExpr) (length : String)
  /-- Some type that satisfies bounds. -/
  | implTrait (bounds : List BoundExpr)
  /-- A trait object. -/
  | dynTrait (traits : List PathExpr)
  /-- An associated type of a type. -/
  | associated (self : TypeExpr) (name : String)
  /-- An associated type of a type as an implementor of a trait. -/
  | projection (self : TypeExpr) (trait : PathExpr) (name : String)
  | functionPointer
  /-- A type that is left to inference, or whose form is not known. -/
  | hole

/-- A name with type arguments. -/
inductive PathExpr
  | mk (name : String) (args : List ArgExpr)

/-- An argument of a path. -/
inductive ArgExpr
  | type (content : TypeExpr)
  | lifetime (name : String)

/-- A bound on a type: a trait with a modifier before it, or a lifetime. -/
inductive BoundExpr
  | trait (modifier : String) (path : PathExpr)
  | outlives (lifetime : String)

end

mutual

/-- The text of a type. -/
def TypeExpr.render : TypeExpr → String
  | .named name => name
  | .path path => path.render
  | .reference lifetime isMutable target =>
      "&" ++ (match lifetime with | some name => name ++ " " | none => "") ++
        (if isMutable then "mut " else "") ++ target.render
  | .pointer isMutable target =>
      "*" ++ (if isMutable then "mut" else "const") ++ " " ++ target.render
  | .tuple elements => "(" ++ ", ".intercalate (TypeExpr.renderList elements) ++ ")"
  | .slice element => "[" ++ element.render ++ "]"
  | .array element length => "[" ++ element.render ++ "; " ++ length ++ "]"
  | .implTrait bounds => "impl " ++ " + ".intercalate (BoundExpr.renderList bounds)
  | .dynTrait traits => "dyn " ++ " + ".intercalate (PathExpr.renderList traits)
  | .associated self name => self.render ++ "::" ++ name
  | .projection self trait name =>
      "<" ++ self.render ++ " as " ++ trait.render ++ ">::" ++ name
  | .functionPointer => "fn(..)"
  | .hole => "_"

/-- The texts of types. -/
def TypeExpr.renderList : List TypeExpr → List String
  | [] => []
  | type :: rest => type.render :: TypeExpr.renderList rest

/-- The text of a path; empty arguments are left out. -/
def PathExpr.render : PathExpr → String
  | .mk name args =>
      match ArgExpr.renderList args with
      | [] => name
      | rendered => name ++ "<" ++ ", ".intercalate rendered ++ ">"

/-- The texts of paths. -/
def PathExpr.renderList : List PathExpr → List String
  | [] => []
  | path :: rest => path.render :: PathExpr.renderList rest

/-- The text of an argument. -/
def ArgExpr.render : ArgExpr → String
  | .type content => content.render
  | .lifetime name => name

/-- The texts of arguments. -/
def ArgExpr.renderList : List ArgExpr → List String
  | [] => []
  | arg :: rest => arg.render :: ArgExpr.renderList rest

/-- The text of a bound. -/
def BoundExpr.render : BoundExpr → String
  | .trait modifier path => modifier ++ path.render
  | .outlives lifetime => lifetime

/-- The texts of bounds. -/
def BoundExpr.renderList : List BoundExpr → List String
  | [] => []
  | bound :: rest => bound.render :: BoundExpr.renderList rest

end

/-- The text of bounds that hold together. -/
def BoundExpr.renderAll (bounds : List BoundExpr) : String :=
  " + ".intercalate (BoundExpr.renderList bounds)

/-- The path whose form is not known. -/
def PathExpr.hole : PathExpr :=
  .mk "_" []

theorem TypeExpr.renderList_eq_map (types : List TypeExpr) :
    TypeExpr.renderList types = types.map TypeExpr.render := by
  induction types with
  | nil => simp [TypeExpr.renderList]
  | cons type rest ih => simp [TypeExpr.renderList, ih]

theorem PathExpr.renderList_eq_map (paths : List PathExpr) :
    PathExpr.renderList paths = paths.map PathExpr.render := by
  induction paths with
  | nil => simp [PathExpr.renderList]
  | cons path rest ih => simp [PathExpr.renderList, ih]

theorem ArgExpr.renderList_eq_map (args : List ArgExpr) :
    ArgExpr.renderList args = args.map ArgExpr.render := by
  induction args with
  | nil => simp [ArgExpr.renderList]
  | cons arg rest ih => simp [ArgExpr.renderList, ih]

theorem BoundExpr.renderList_eq_map (bounds : List BoundExpr) :
    BoundExpr.renderList bounds = bounds.map BoundExpr.render := by
  induction bounds with
  | nil => simp [BoundExpr.renderList]
  | cons bound rest ih => simp [BoundExpr.renderList, ih]

end ApiCensus
