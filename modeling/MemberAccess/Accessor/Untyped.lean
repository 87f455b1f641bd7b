import MemberAccess.Settings.Options
import MemberAccess.Thunk.Compile

/-!
# Untyped accessors

An accessor owns a descriptor and what was compiled for it; calls go straight to the compiled
operations. There is one accessor for each role: those of constructors and methods call, those of
fields, properties and indexers read and write.

* `Accessor.build`: an accessor for a role, compiled under options.
* `CallAccessor.invoke`, `ValueAccessor.get`, `ValueAccessor.set`: the operations.
-/

namespace MemberAccess

/-- An accessor of a constructor or method. -/
structure CallAccessor where
  descriptor : Descriptor
  thunk : Thunk

/-- An accessor of a field, property or indexer; what cannot be read or written has no thunk. -/
structure ValueAccessor where
  descriptor : Descriptor
  getter : Option Thunk
  setter : Option Thunk

/-- An accessor of any role. -/
inductive Accessor where
  | calls (a : CallAccessor)
  | holds (a : ValueAccessor)

/-- The descriptor has the role that the accessor serves. -/
def Descriptor.expectRole (d : Descriptor) (role : Role) : Except AccessError Unit :=
  if d.role = role then .ok ()
  else .error (.invalidMember (.otherRole d.qualifiedName d.role))

/-- Plans an operation for the untyped surface and compiles it. -/
def compileUntyped (flags : Flags) (options : Options) (d : Descriptor) (operation : Operation) :
    Except AccessError Thunk :=
  match d.plan .untyped options.castPolicy operation with
  | .error e => .error e
  | .ok plan => compile flags options.policy d plan

/-- Compiles an operation if the member offers it. -/
def compileIf (offered : Bool) (flags : Flags) (options : Options) (d : Descriptor)
    (operation : Operation) : Except AccessError (Option Thunk) :=
  if offered then (compileUntyped flags options d operation).map some else .ok none

/-- The error of an operation that the accessor does not have. -/
def Descriptor.notSupported (d : Descriptor) (operation : ValueOperation) : AccessError :=
  .notSupported d.qualifiedName operation

/-! ## Values -/

namespace ValueAccessor

def build (flags : Flags) (options : Options) (d : Descriptor) : Except AccessError ValueAccessor :=
  match compileIf d.canRead flags options d .get with
  | .error e => .error e
  | .ok getter =>
    match compileIf d.canWrite flags options d .set with
    | .error e => .error e
    | .ok setter => .ok ⟨d, getter, setter⟩

/-- The index that a call passes on: a field or property has none. -/
def index (a : ValueAccessor) (args : List Value) : List Value :=
  match a.descriptor.role with
  | .indexed => args
  | _ => []

def get (a : ValueAccessor) (w : World) (target : Value) (args : List Value) : Outcome Value :=
  match a.getter with
  | some t => t.runRead w target (a.index args)
  | none => (.error (a.descriptor.notSupported .get), w)

def set (a : ValueAccessor) (w : World) (target : Value) (args : List Value) (v : Value) :
    Outcome Unit :=
  match a.setter with
  | some t => t.runWrite w target (a.index args) v
  | none => (.error (a.descriptor.notSupported .set), w)

end ValueAccessor

/-! ## Calls -/

namespace CallAccessor

/-- The operation that is compiled: allocation for a constructor, else a call. -/
def operation (role : Role) : Operation :=
  match role with
  | .constructor => .construct
  | _ => .invoke

def build (flags : Flags) (options : Options) (d : Descriptor) : Except AccessError CallAccessor :=
  (compileUntyped flags options d (operation d.role)).map fun t => ⟨d, t⟩

/-- Calls the member; a constructor ignores the target. -/
def invoke (a : CallAccessor) (w : World) (target : Value) (args : List Value) : Outcome Value :=
  match a.descriptor.role with
  | .constructor => a.thunk.runConstruct w args
  | _ => a.thunk.runCall w target args

end CallAccessor

/-! ## Any accessor -/

namespace Accessor

def build (flags : Flags) (options : Options) (role : Role) (d : Descriptor) :
    Except AccessError Accessor :=
  match d.expectRole role with
  | .error e => .error e
  | .ok () =>
    if role.holdsValue then (ValueAccessor.build flags options d).map holds
    else (CallAccessor.build flags options d).map calls

def descriptor : Accessor → Descriptor
  | calls a => a.descriptor
  | holds a => a.descriptor

end Accessor

end MemberAccess
