import ApiCensus.Index.Item

/-!
# Categories

The classes that items are counted in.  Every item belongs to exactly one.  The
category of a function depends on its container: a function of a trait is a
required or a provided method, one of an impl block a method.
-/

namespace ApiCensus

/-- What an item is counted as. -/
inductive Category
  | module
  | struct
  | enum
  | union
  | variant
  | field
  | trait
  | traitAlias
  | function
  | method
  | requiredMethod
  | providedMethod
  | inherentImpl
  | traitImpl
  | definedMacro
  | constant
  | static
  | typeAlias
  | assocType
  | reexport
  | externCrate
  | primitive
  | foreignType
  | other
deriving DecidableEq, Repr

namespace Category

/-- The name of a category. -/
def name : Category → String
  | .module => "Module"
  | .struct => "Struct"
  | .enum => "Enum"
  | .union => "Union"
  | .variant => "Variant"
  | .field => "Field"
  | .trait => "Trait"
  | .traitAlias => "TraitAlias"
  | .function => "Function"
  | .method => "Method"
  | .requiredMethod => "RequiredMethod"
  | .providedMethod => "ProvidedMethod"
  | .inherentImpl => "InherentImpl"
  | .traitImpl => "TraitImpl"
  | .definedMacro => "Macro"
  | .constant => "Constant"
  | .static => "Static"
  | .typeAlias => "TypeAlias"
  | .assocType => "AssocType"
  | .reexport => "ReExport"
  | .externCrate => "ExternCrate"
  | .primitive => "Primitive"
  | .foreignType => "ForeignType"
  | .other => "Other"

/-- All categories. -/
def all : List Category :=
  [.module, .struct, .enum, .union, .variant, .field, .trait, .traitAlias, .function, .method,
    .requiredMethod, .providedMethod, .inherentImpl, .traitImpl, .definedMacro, .constant,
    .static, .typeAlias, .assocType, .reexport, .externCrate, .primitive, .foreignType, .other]

/-- The category with a name. -/
def ofName? (name : String) : Option Category :=
  all.find? (·.name == name)

/-- The category of a function in a container. -/
def ofFunction (hasBody : Bool) (container : Option ItemKind) : Category :=
  match container with
  | some .trait => if hasBody then .providedMethod else .requiredMethod
  | some .impl => .method
  | _ => .function

/-- The category of an item in a container. -/
def ofItem (item : Item) (container : Option ItemKind) : Category :=
  match item.kind with
  | .function => ofFunction item.hasBody container
  | .impl => if item.implementsTrait then .traitImpl else .inherentImpl
  | .module => .module
  | .externCrate => .externCrate
  | .reexport => .reexport
  | .union => .union
  | .struct => .struct
  | .structField => .field
  | .enum => .enum
  | .variant => .variant
  | .trait => .trait
  | .traitAlias => .traitAlias
  | .typeAlias => .typeAlias
  | .constant | .assocConst => .constant
  | .static => .static
  | .externType => .foreignType
  | .declMacro | .procMacro => .definedMacro
  | .primitive => .primitive
  | .assocType => .assocType
  | .other => .other

end Category

end ApiCensus
