import MemberAccess.Accessor.Typed

/-!
# Typed accessors used on objects

A typed call works on the contents of an instance. Here the instance is an object that is lent to
the call, and what the call returns is boxed.

* `lend`: a call on an object; it works on a copy of the contents, which is stored afterwards.
* `TypedThunk`, `TypedAccessor`: typed operations and accessors of any class and type.
* `TypedThunk.runInvoke`, `TypedAccessor.runGet` and their like: the calls; nothing where there is
  no such operation.
-/

namespace MemberAccess

/-- A typed call on an object of a class, or on nothing for null. The call works on a copy of the
object's contents, which is stored when the call is over, whatever its result. -/
def lend {α : Type} (host : HostClass) (w : World) (target : Value)
    (run : Option Slots → Effect α) : Outcome α :=
  if target.isNull then
    let x := run none
    (x.result, x.world)
  else
    match Handle.cast host target with
    | .error e => (.error (.value e), w)
    | .ok h =>
      let x := run (some (w.contents h.ref))
      (x.result, x.world.restore h.ref x.receiver)

/-- A typed write of an untyped value, which is converted when the target is known. -/
def lendWrite (host : HostClass) (type : StaticType) (w : World) (target v : Value)
    (run : Option Slots → type.Carrier → Effect Unit) : Outcome Unit :=
  lend host w target fun own =>
    match type.fromValue v with
    | .error e => .refused (.value e) own w
    | .ok x => run own x

/-- Allocates an object with the contents that a typed constructor made. -/
def allocateBuilt (host : HostClass) (w : World) (built : Except AccessError Slots) :
    Outcome Value :=
  match built with
  | .error e => (.error e, w)
  | .ok s =>
    let (o, w') := w.allocate host s
    (.ok (.object o), w')

/-- The result of a call that returns nothing. -/
def Effect.asNull (x : Effect Unit) : Effect Value := x.map fun _ => .null

/-! ## Compiled operations -/

/-- A typed operation of any class and type. -/
inductive TypedThunk where
  | construct (host : HostClass) (t : TypedConstruct)
  | reconstruct (host : HostClass) (t : TypedReconstruct)
  | read (host : HostClass) (type : StaticType) (t : TypedRead type)
  | write (host : HostClass) (type : StaticType) (t : TypedWrite type)
  | invoke (host : HostClass) (result : StaticType) (t : TypedInvoke result)

/-- The typed operations that a plan can be compiled to. -/
inductive TypedShape where
  | construct
  | reconstruct
  | get
  | set
  | invoke
  deriving DecidableEq, Repr

namespace TypedThunk

/-- Compiles a plan to a typed operation for a class and a type. -/
def compile (flags : Flags) (policy : Policy) (d : Descriptor) (plan : Plan) (shape : TypedShape)
    (host : HostClass) (type : StaticType) : Except AccessError TypedThunk :=
  match shape with
  | .construct => (compileConstruct flags policy d plan host).map (construct host)
  | .reconstruct => (compileReconstruct flags policy d plan host).map (reconstruct host)
  | .get => (compileGet flags policy d plan host type).map (read host type)
  | .set => (compileSet flags policy d plan host type).map (write host type)
  | .invoke => (compileInvoke flags policy d plan host type).map (invoke host type)

/-- Constructs or calls; a constructor ignores the target. -/
def runInvoke (t : TypedThunk) (w : World) (target : Value) (args : List Value) :
    Option (Outcome Value) :=
  match t with
  | construct host t => some (allocateBuilt host w (t.run args))
  | reconstruct host t => some (lend host w target fun own => (t.run w own args).asNull)
  | invoke host result t =>
    some (lend host w target fun own => (t.run w own args).map result.toValue)
  | _ => none

def runGet (t : TypedThunk) (w : World) (target : Value) (index : List Value) :
    Option (Outcome Value) :=
  match t with
  | read host type t => some (lend host w target fun own => (t.run w own index).map type.toValue)
  | _ => none

def runSet (t : TypedThunk) (w : World) (target : Value) (index : List Value) (v : Value) :
    Option (Outcome Unit) :=
  match t with
  | write host type t =>
    some (lendWrite host type w target v fun own x => t.run w own index x)
  | _ => none

end TypedThunk

/-! ## Accessors -/

/-- A typed accessor of any class and type. -/
inductive TypedAccessor where
  | constructor (host : HostClass) (a : TypedConstructorAccessor)
  | reconstructor (host : HostClass) (a : TypedReconstructorAccessor)
  | method (host : HostClass) (result : StaticType) (a : TypedMethodAccessor result)
  | value (host : HostClass) (type : StaticType) (a : TypedValueAccessor type)

namespace TypedAccessor

/-- Builds the typed accessor that serves a role, for a class and a type. -/
def build (flags : Flags) (options : Options) (role : Role) (host : HostClass) (type : StaticType)
    (d : Descriptor) : Except AccessError TypedAccessor :=
  match role with
  | .constructor => (TypedConstructorAccessor.build flags options host d).map (constructor host)
  | .reconstructor =>
    (TypedReconstructorAccessor.build flags options host d).map (reconstructor host)
  | .method => (TypedMethodAccessor.build flags options host type d).map (method host type)
  | _ => (TypedValueAccessor.build flags options role host type d).map (value host type)

def descriptor : TypedAccessor → Descriptor
  | constructor _ a => a.descriptor
  | reconstructor _ a => a.descriptor
  | method _ _ a => a.descriptor
  | value _ _ a => a.descriptor

/-- Constructs or calls; a constructor ignores the target. -/
def runInvoke (a : TypedAccessor) (w : World) (target : Value) (args : List Value) :
    Option (Outcome Value) :=
  match a with
  | constructor host a => (TypedThunk.construct host a.thunk).runInvoke w target args
  | reconstructor host a => (TypedThunk.reconstruct host a.thunk).runInvoke w target args
  | method host result a => (TypedThunk.invoke host result a.thunk).runInvoke w target args
  | value _ _ _ => none

def runGet (a : TypedAccessor) (w : World) (target : Value) (args : List Value) :
    Option (Outcome Value) :=
  match a with
  | value host type a =>
    some (lend host w target fun own => (a.get w own args).map type.toValue)
  | _ => none

def runSet (a : TypedAccessor) (w : World) (target : Value) (args : List Value) (v : Value) :
    Option (Outcome Unit) :=
  match a with
  | value host type a =>
    some (lendWrite host type w target v fun own x => a.set w own args x)
  | _ => none

end TypedAccessor

end MemberAccess
