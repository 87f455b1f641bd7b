import MemberAccess.Text.Path

/-!
# Runtime types

What a member's metadata says about the type of a value.

* `HostClass`: a class of the host, with its identity and its path.
* `BaseType`: the universal object type, the empty type, the primitives, strings and classes.
* `TypeKind`: the four kinds of base type, which decide how a value is coerced.
* `TypeHandle`: a base type with or without null, with its names and its texts.
-/

namespace MemberAccess

/-- A class of the host. A path need not be one class's alone, as classes that are declared in
different blocks of one function share theirs; the number tells them apart. -/
structure HostClass where
  number : Nat
  path : String
  deriving DecidableEq, Repr, Inhabited

namespace HostClass

/-- The class's name without its module path. -/
def shortName (c : HostClass) : String := String.ofList (Path.shortName c.path.toList)

end HostClass

/-- A type without regard to null. -/
inductive BaseType where
  /-- The universal object type; it holds every value. -/
  | any
  /-- The type of members that return nothing; it holds null only. -/
  | void
  | bool
  | int32
  | int64
  | float64
  | string
  /-- The instances of a class. -/
  | host (c : HostClass)
  deriving DecidableEq, Repr, Inhabited

/-- The kinds of type. -/
inductive TypeKind where
  /-- The universal object type. -/
  | any
  /-- The empty type. -/
  | void
  /-- A primitive that is stored in place. -/
  | value
  /-- A string or an instance of a class. -/
  | reference
  deriving DecidableEq, Repr

namespace TypeKind

def name : TypeKind → String
  | any => "Any"
  | void => "Void"
  | value => "Value"
  | reference => "Reference"

end TypeKind

namespace BaseType

def kind : BaseType → TypeKind
  | any => .any
  | void => .void
  | bool | int32 | int64 | float64 => .value
  | string | host _ => .reference

def name : BaseType → String
  | any => "object"
  | void => "void"
  | bool => "bool"
  | int32 => "i32"
  | int64 => "i64"
  | float64 => "f64"
  | string => "alloc::string::String"
  | host c => c.path

def shortName (b : BaseType) : String := String.ofList (Path.shortName b.name.toList)

/-- The kinds that hold null whatever the type says. -/
def alwaysNullable (b : BaseType) : Bool := b == .any || b == .void

end BaseType

/-- A runtime type: a base type, and whether null belongs to it. -/
structure TypeHandle where
  base : BaseType
  nullable : Bool
  deriving DecidableEq, Repr, Inhabited

namespace TypeHandle

/-- The handle of a base type; only the object type and the empty type hold null. -/
def of (b : BaseType) : TypeHandle := ⟨b, b.alwaysNullable⟩

def ofHost (c : HostClass) : TypeHandle := of (.host c)

def withNull (t : TypeHandle) : TypeHandle := { t with nullable := true }

def kind (t : TypeHandle) : TypeKind := t.base.kind

def name (t : TypeHandle) : String := t.base.name

def shortName (t : TypeHandle) : String := t.base.shortName

def sameType (s t : TypeHandle) : Bool := s.base == t.base

/-- The mark of a type that admits null and need not. -/
def nullMark (t : TypeHandle) : String :=
  if t.nullable && !t.base.alwaysNullable then "?" else ""

def display (t : TypeHandle) : String := t.shortName ++ t.nullMark

def debug (t : TypeHandle) : String := "TypeHandle(" ++ t.name ++ t.nullMark ++ ")"

end TypeHandle

end MemberAccess
