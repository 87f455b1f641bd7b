import MemberAccess.Decimal.Binary64
import MemberAccess.Text.Quoted
import MemberAccess.Value.Types

/-!
# Values

What travels across the untyped surface.

* `ObjectRef`: a reference to an object cell, with the class of the object.
* `Value`: null, a primitive, a string, or a reference to an object.
* `Value.runtimeType`: the type of a value.
* `Value.same`: primitives are compared by value, strings by contents, objects by identity.
* `TypeHandle.accepts`: the values that may be stored under a type.
-/

namespace MemberAccess

/-- A reference to the object cell with this number; all references to one cell share it. -/
structure ObjectRef where
  cell : Nat
  host : HostClass
  deriving DecidableEq, Repr, Inhabited

/-- An untyped value. -/
inductive Value where
  | null
  | bool (b : Bool)
  | int32 (i : Int32)
  | int64 (i : Int64)
  | float64 (x : Binary64)
  | string (s : String)
  | object (o : ObjectRef)
  deriving DecidableEq, Inhabited

namespace Value

def isNull : Value → Bool
  | null => true
  | _ => false

def isObject : Value → Bool
  | object _ => true
  | _ => false

def runtimeBase : Value → Option BaseType
  | null => none
  | bool _ => some .bool
  | int32 _ => some .int32
  | int64 _ => some .int64
  | float64 _ => some .float64
  | string _ => some .string
  | object o => some (.host o.host)

/-- The handle of the type of a value that is not null. -/
def runtimeType (v : Value) : Option TypeHandle := v.runtimeBase.map .of

/-- The name of the value's type in error messages. -/
def typeName (v : Value) : String :=
  match v.runtimeBase with
  | none => "null"
  | some b => b.shortName

def object? : Value → Option ObjectRef
  | object o => some o
  | _ => none

/-- Equality of values: numbers by value, strings by contents, objects by identity. -/
def same : Value → Value → Bool
  | null, null => true
  | bool a, bool b => a == b
  | int32 a, int32 b => a == b
  | int64 a, int64 b => a == b
  | float64 a, float64 b => a.sameNumber b
  | string a, string b => a == b
  | object a, object b => a.cell == b.cell
  | _, _ => false

/-- The value in diagnostic texts, with `*` in the place of an object's address. -/
def debug : Value → String
  | null => "Value::Null"
  | bool b => "Value::Bool(" ++ Text.truth b ++ ")"
  | int32 i => "Value::I32(" ++ toString i.toInt ++ ")"
  | int64 i => "Value::I64(" ++ toString i.toInt ++ ")"
  | float64 x => "Value::F64(" ++ x.text ++ ")"
  | string s => "Value::Str(" ++ Text.quoted s ++ ")"
  | object o => "Value::Object(" ++ o.host.shortName ++ "@*)"

/-- The value written into a slot key or a joined text: a float by its bits, an object by its
class. -/
def plain : Value → String
  | null => "null"
  | bool b => Text.truth b
  | int32 i => toString i.toInt
  | int64 i => toString i.toInt
  | float64 x => if x.isNaN then "nan" else Text.hexadecimalPadded 16 x.bits.toNat
  | string s => s
  | object o => o.host.shortName

end Value

/-- The runtime type test: whether a value may be stored under the type. -/
def TypeHandle.accepts (t : TypeHandle) (v : Value) : Bool :=
  match t.kind with
  | .any => true
  | .void => v.isNull
  | .value | .reference =>
    match v.runtimeBase with
    | some b => b == t.base
    | none => t.nullable

end MemberAccess
