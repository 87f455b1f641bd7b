import MemberAccess.Accessor.Untyped
import MemberAccess.Thunk.Typed

/-!
# Typed accessors

The typed counterparts of the accessors: the target is the contents of an instance of a class, and
the value or the result is of a static type.

* `TypedConstructorAccessor`, `TypedReconstructorAccessor`, `TypedMethodAccessor`,
  `TypedValueAccessor`, each with its `build` and its operations.
-/

namespace MemberAccess

/-- Plans an operation for the typed surface. -/
def Descriptor.planTyped (d : Descriptor) (options : Options) (operation : Operation) :
    Except AccessError Plan :=
  d.plan .typed options.castPolicy operation

/-! ## Constructors -/

/-- Makes the contents of new instances. -/
structure TypedConstructorAccessor where
  descriptor : Descriptor
  thunk : TypedConstruct

def TypedConstructorAccessor.build (flags : Flags) (options : Options) (host : HostClass)
    (d : Descriptor) : Except AccessError TypedConstructorAccessor := do
  d.expectRole .constructor
  let plan ← d.planTyped options .construct
  let thunk ← compileConstruct flags options.policy d plan host
  return ⟨d, thunk⟩

/-- Constructs over instances that exist. -/
structure TypedReconstructorAccessor where
  descriptor : Descriptor
  thunk : TypedReconstruct

/-- Compiles a construction over an instance of a class. -/
def TypedReconstructorAccessor.build (flags : Flags) (options : Options) (host : HostClass)
    (d : Descriptor) : Except AccessError TypedReconstructorAccessor := do
  d.expectRole .reconstructor
  let plan ← d.planTyped options .invoke
  let thunk ← compileReconstruct flags options.policy d plan host
  return ⟨d, thunk⟩

/-! ## Methods -/

/-- Calls a method that returns a static type. -/
structure TypedMethodAccessor (result : StaticType) where
  descriptor : Descriptor
  thunk : TypedInvoke result

/-- Compiles a call for a class and a result type. -/
def TypedMethodAccessor.build (flags : Flags) (options : Options) (host : HostClass)
    (result : StaticType) (d : Descriptor) : Except AccessError (TypedMethodAccessor result) := do
  d.expectRole .method
  let plan ← d.planTyped options .invoke
  let thunk ← compileInvoke flags options.policy d plan host result
  return ⟨d, thunk⟩

/-! ## Values -/

/-- Reads and writes a value of a static type. -/
structure TypedValueAccessor (type : StaticType) where
  descriptor : Descriptor
  getter : Option (TypedRead type)
  setter : Option (TypedWrite type)

namespace TypedValueAccessor

variable {type : StaticType}

/-- Compiles the getter, then the setter, for a class and a type. -/
def build (flags : Flags) (options : Options) (role : Role) (host : HostClass) (type : StaticType)
    (d : Descriptor) : Except AccessError (TypedValueAccessor type) := do
  d.expectRole role
  let getter ←
    if d.canRead then do
      let plan ← d.planTyped options .get
      let thunk ← compileGet flags options.policy d plan host type
      pure (some thunk)
    else pure none
  let setter ←
    if d.canWrite then do
      let plan ← d.planTyped options .set
      let thunk ← compileSet flags options.policy d plan host type
      pure (some thunk)
    else pure none
  return ⟨d, getter, setter⟩

/-- The index that a call passes on: a field or property has none. -/
def index (a : TypedValueAccessor type) (args : List Value) : List Value :=
  match a.descriptor.role with
  | .indexed => args
  | _ => []

def get (a : TypedValueAccessor type) (w : World) (target : Option Slots) (args : List Value) :
    Effect type.Carrier :=
  match a.getter with
  | some t => t.run w target (a.index args)
  | none => .refused (a.descriptor.notSupported .get) target w

def set (a : TypedValueAccessor type) (w : World) (target : Option Slots) (args : List Value)
    (x : type.Carrier) : Effect Unit :=
  match a.setter with
  | some t => t.run w target (a.index args) x
  | none => .refused (a.descriptor.notSupported .set) target w

end TypedValueAccessor

end MemberAccess
