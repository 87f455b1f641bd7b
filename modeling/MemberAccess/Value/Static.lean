import MemberAccess.Value.Basic
import MemberAccess.Value.Error

/-!
# Static types

The types that a member is registered with, and the conversions between them and untyped values.

* `StaticType`: a base type under any number of optional layers, and `StaticType.Carrier`, the Lean
  type of its values.
* `StaticType.fromValue`: the checked conversion from a value.
* `StaticType.toValue`: boxing.
* `StaticType.handle`: the runtime type that stands for a static type.
-/

namespace MemberAccess

/-- A typed reference: a cell whose object is of the class `c`. -/
structure Handle (c : HostClass) where
  cell : Nat
  deriving DecidableEq, Repr, Inhabited

namespace Handle

variable {c : HostClass}

def ref (h : Handle c) : ObjectRef := ⟨h.cell, c⟩

def toValue (h : Handle c) : Value := .object h.ref

def ofObject (c : HostClass) (o : ObjectRef) : Except ValueError (Handle c) :=
  if o.host = c then .ok ⟨o.cell⟩
  else .error (.typeMismatch (.host c) o.host.shortName)

/-- The handle to the object that a value refers to. -/
def cast (c : HostClass) : Value → Except ValueError (Handle c)
  | .object o => ofObject c o
  | .null => .error (.nullValue (.host c))
  | v => .error (.typeMismatch (.host c) v.typeName)

end Handle

/-! ## Base types -/

namespace BaseType

def Carrier : BaseType → Type
  | any => Value
  | void => Unit
  | bool => Bool
  | int32 => Int32
  | int64 => Int64
  | float64 => Binary64
  | string => String
  | host c => Handle c

/-- The error for a value that is not of the base type. -/
def refuse (b : BaseType) (v : Value) : ValueError :=
  if v.isNull then .nullValue b else .typeMismatch b v.typeName

def fromValue : (b : BaseType) → Value → Except ValueError b.Carrier
  | any, v => .ok v
  | void, .null => .ok ()
  | void, v => .error (refuse .void v)
  | bool, .bool x => .ok x
  | bool, v => .error (refuse .bool v)
  | int32, .int32 x => .ok x
  | int32, v => .error (refuse .int32 v)
  | int64, .int64 x => .ok x
  | int64, v => .error (refuse .int64 v)
  | float64, .float64 x => .ok x
  | float64, v => .error (refuse .float64 v)
  | string, .string x => .ok x
  | string, v => .error (refuse .string v)
  | host c, v => Handle.cast c v

def toValue : (b : BaseType) → b.Carrier → Value
  | any, v => v
  | void, () => .null
  | bool, x => .bool x
  | int32, x => .int32 x
  | int64, x => .int64 x
  | float64, x => .float64 x
  | string, x => .string x
  | host _, h => Handle.toValue h

end BaseType

/-! ## Static types -/

/-- A type that a member is registered with. -/
inductive StaticType where
  | base (b : BaseType)
  /-- The type with one more value, which is boxed as null. -/
  | optional (t : StaticType)
  deriving DecidableEq, Repr, Inhabited

namespace StaticType

def Carrier : StaticType → Type
  | base b => b.Carrier
  | optional t => Option t.Carrier

/-- The runtime type that stands for a static type. -/
def handle : StaticType → TypeHandle
  | base b => .of b
  | optional t => t.handle.withNull

def name : StaticType → String
  | base .any => "safe_value::value::Value"
  | base .void => "()"
  | base (.host c) => "safe_value::object::Handle<" ++ c.path ++ ">"
  | base b => b.name
  | optional t => "core::option::Option<" ++ t.name ++ ">"

/-- The checked conversion; null is the extra value of an optional type. -/
def fromValue : (t : StaticType) → Value → Except ValueError t.Carrier
  | base b, v => b.fromValue v
  | optional _, .null => .ok none
  | optional t, v => (t.fromValue v).map some

def toValue : (t : StaticType) → t.Carrier → Value
  | base b, x => b.toValue x
  | optional _, none => .null
  | optional t, some x => t.toValue x

end StaticType

end MemberAccess
