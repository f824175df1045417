/-!
# Kinds of types
-/

namespace ClassAtlas

/-- What a source file declares. -/
inductive TypeKind
  | concrete
  | abstract
  | interface
  deriving DecidableEq, Repr, Inhabited

namespace TypeKind

/-- The name of a kind in every listing. -/
def name : TypeKind → String
  | concrete => "concrete"
  | abstract => "abstract"
  | interface => "interface"

/-- The kind with a given name. -/
def ofName? (name : String) : Option TypeKind :=
  [concrete, abstract, interface].find? (·.name = name)

/-- Abstract classes and interfaces cannot be instantiated. -/
def isAbstract : TypeKind → Bool
  | concrete => false
  | abstract => true
  | interface => true

end TypeKind

end ClassAtlas
