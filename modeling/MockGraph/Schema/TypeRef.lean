set_option autoImplicit false

namespace MockGraph

inductive TypeRef where
  | named (name : String)
  | list (item : TypeRef)
  | nonNull (inner : TypeRef)
deriving DecidableEq, Inhabited, Repr

namespace TypeRef

/-- Marks a type as non-null. A second mark changes nothing. -/
def required : TypeRef → TypeRef
  | nonNull inner => nonNull inner
  | type => nonNull type

def isNonNull : TypeRef → Bool
  | nonNull _ => true
  | _ => false

def isList : TypeRef → Bool
  | list _ => true
  | nonNull inner => inner.isList
  | named _ => false

def namedType : TypeRef → String
  | named name => name
  | list item => item.namedType
  | nonNull inner => inner.namedType

/-- The type without a non-null mark of its own. -/
def nullable : TypeRef → TypeRef
  | nonNull inner => inner
  | type => type

/-- The type of a list's items; a named type stands for its own items. -/
def itemType : TypeRef → TypeRef
  | list item => item
  | nonNull (list item) => item
  | type => type

/-- The text of a type as schemas write it. -/
def text : TypeRef → String
  | named name => name
  | list item => "[" ++ item.text ++ "]"
  | nonNull inner => inner.text ++ "!"

/-- A value of the first type can stand where the second is wanted: it may be stricter, level by
level. -/
def fitsInto : TypeRef → TypeRef → Bool
  | nonNull inner, nonNull target => inner.fitsInto target
  | nonNull inner, target => inner.fitsInto target
  | list item, list target => item.fitsInto target
  | named name, named target => name == target
  | _, _ => false

end TypeRef

end MockGraph
