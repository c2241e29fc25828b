import ApiCensus.Text.Blank
import ApiCensus.Text.Case

/-!
# Kinds of items

The kinds that an index distinguishes, their tags, and the tags that older
format versions used for the same kinds.
-/

namespace ApiCensus

/-- What an item declares; `other` stands for every kind that is not known. -/
inductive ItemKind
  | module
  | externCrate
  | reexport
  | union
  | struct
  | structField
  | enum
  | variant
  | function
  | trait
  | traitAlias
  | impl
  | typeAlias
  | constant
  | static
  | externType
  | declMacro
  | procMacro
  | primitive
  | assocConst
  | assocType
  | other
deriving DecidableEq, Repr

namespace ItemKind

/-- The tag of a kind. -/
def tag : ItemKind → String
  | .module => "module"
  | .externCrate => "extern_crate"
  | .reexport => "use"
  | .union => "union"
  | .struct => "struct"
  | .structField => "struct_field"
  | .enum => "enum"
  | .variant => "variant"
  | .function => "function"
  | .trait => "trait"
  | .traitAlias => "trait_alias"
  | .impl => "impl"
  | .typeAlias => "type_alias"
  | .constant => "constant"
  | .static => "static"
  | .externType => "extern_type"
  | .declMacro => "macro"
  | .procMacro => "proc_macro"
  | .primitive => "primitive"
  | .assocConst => "assoc_const"
  | .assocType => "assoc_type"
  | .other => "other"

/-- The kinds with a tag of their own. -/
def known : List ItemKind :=
  [.module, .externCrate, .reexport, .union, .struct, .structField, .enum, .variant,
    .function, .trait, .traitAlias, .impl, .typeAlias, .constant, .static, .externType,
    .declMacro, .procMacro, .primitive, .assocConst, .assocType]

/-- Tags of older format versions. -/
def legacyTags : List (String × ItemKind) :=
  [("import", .reexport), ("typedef", .typeAlias), ("foreign_type", .externType),
    ("method", .function), ("opaque_ty", .typeAlias)]

/-- The kind of a tag, in any case and with blanks around it. -/
def ofTag (tag : String) : ItemKind :=
  let word := Text.lower (Text.trim tag)
  match known.find? (·.tag == word) with
  | some kind => kind
  | none => (legacyTags.lookup word).getD .other

/-- Whether the kind declares a type that impl blocks can belong to. -/
def isType : ItemKind → Bool
  | .struct | .enum | .union => true
  | _ => false

end ItemKind

end ApiCensus
