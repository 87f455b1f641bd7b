import MemberAccess.Accessor.OnObjects
import MemberAccess.Text.Quoted

/-!
# Diagnostic texts

Members, descriptors and accessors as records of what they say about themselves.

* `Member.debug`, `Descriptor.debug`.
* `Accessor.debug`, and its like for typed accessors.
-/

namespace MemberAccess

open Text (record quoted truth)

def Modifiers.debug (m : Modifiers) : String :=
  record "Modifiers"
    [("visibility", m.visibility.debug), ("is_static", truth m.isStatic),
      ("is_readonly", truth m.isReadonly)]

/-- The member in diagnostic texts, with the flags as they are now. -/
def Member.debug (flags : Flags) (m : Member) : String :=
  record "MemberInfo"
    [("id", "MemberId(" ++ toString m.id.index ++ ")"), ("name", quoted m.qualifiedName),
      ("kind", m.kind.debug), ("value_type", m.valueType.debug),
      ("parameters", toString m.arity), ("modifiers", m.modifiers.debug),
      ("is_abstract", truth (m.isAbstract flags))]

def Descriptor.debug (d : Descriptor) : String :=
  record "MemberDescriptor"
    [("kind", d.role.debug), ("member", quoted d.qualifiedName), ("is_static", truth d.isStatic),
      ("can_read", truth d.canRead), ("can_write", truth d.canWrite), ("arity", toString d.arity)]

/-- The field of a record that names the member. -/
def Descriptor.memberField (d : Descriptor) : String × String := ("member", quoted d.qualifiedName)

/-- The field of a record that says whether the value can be read. -/
def Descriptor.readField (d : Descriptor) : String × String := ("can_read", truth d.canRead)

/-- The field of a record that says whether the value can be written. -/
def Descriptor.writeField (d : Descriptor) : String × String := ("can_write", truth d.canWrite)

/-- The field of a record that gives the number of index arguments. -/
def Descriptor.indexField (d : Descriptor) : String × String := ("index_arity", toString d.arity)

/-! ## Untyped accessors -/

def CallAccessor.debug (a : CallAccessor) : String :=
  let name :=
    match a.descriptor.role with
    | .constructor => "ConstructorAccessor"
    | .reconstructor => "ConstructorMethodAccessor"
    | _ => "MethodAccessor"
  record name [("descriptor", a.descriptor.debug), ("thunk", a.thunk.debug)]

def ValueAccessor.debug (a : ValueAccessor) : String :=
  let d := a.descriptor
  match d.role with
  | .field => record "FieldAccessor" [d.memberField, d.writeField]
  | .indexed => record "IndexedPropertyAccessor" [d.memberField, d.indexField, d.writeField]
  | _ => record "PropertyAccessor" [d.memberField, d.readField, d.writeField]

def Accessor.debug : Accessor → String
  | calls a => a.debug
  | holds a => a.debug

/-! ## Typed accessors -/

def TypedConstructorAccessor.debug (a : TypedConstructorAccessor) : String :=
  record "TypedConstructorAccessor" [a.descriptor.memberField]

def TypedReconstructorAccessor.debug (a : TypedReconstructorAccessor) : String :=
  record "TypedConstructorMethodAccessor" [a.descriptor.memberField]

def TypedMethodAccessor.debug {result : StaticType} (a : TypedMethodAccessor result) : String :=
  record "TypedMethodAccessor" [a.descriptor.memberField, ("arity", toString a.descriptor.arity)]

def TypedValueAccessor.debug {type : StaticType} (a : TypedValueAccessor type) : String :=
  let d := a.descriptor
  match d.role with
  | .field => record "TypedFieldAccessor" [d.memberField, d.readField, d.writeField]
  | .indexed => record "TypedIndexedPropertyAccessor" [d.memberField, d.indexField]
  | _ => record "TypedPropertyAccessor" [d.memberField, d.readField, d.writeField]

def TypedAccessor.debug : TypedAccessor → String
  | constructor _ a => a.debug
  | reconstructor _ a => a.debug
  | method _ _ a => a.debug
  | value _ _ a => a.debug

end MemberAccess
