import MemberAccess.Accessor.OnObjects

/-!
# Requests

What can be asked of accessors and of compiled operations, as data, so that a statement about all
calls is one statement.

* `Request`, `Thunk.answer`, `Accessor.answer`: the untyped calls.
* `TypedRequest`, `TypedThunk.answer`, `TypedAccessor.answer`: the typed ones, which run on the
  contents of an instance.
* `Effect.settle`: the outcome of a typed run for the object whose contents it was given.
-/

namespace MemberAccess

/-! ## Untyped requests -/

/-- An untyped call with the values given to it. -/
inductive Request where
  /-- Allocates an instance; only a compiled operation is asked this, a constructor's accessor is
  invoked. -/
  | construct (args : List Value)
  | invoke (target : Value) (args : List Value)
  | get (target : Value) (index : List Value)
  | set (target : Value) (index : List Value) (v : Value)
  deriving DecidableEq

namespace Request

def target : Request → Value
  | construct _ => .null
  | invoke target _ | get target _ | set target _ _ => target

def arguments : Request → List Value
  | construct args | invoke _ args => args
  | get _ index | set _ index _ => index

def assigned : Request → Option Value
  | set _ _ v => some v
  | _ => none

end Request

/-- The outcome of a call that returns nothing. -/
def Outcome.asNull (x : Outcome Unit) : Outcome Value := (x.1.map fun _ => .null, x.2)

def Thunk.answer (t : Thunk) (w : World) : Request → Outcome Value
  | .construct args => t.runConstruct w args
  | .invoke target args => t.runCall w target args
  | .get target index => t.runRead w target index
  | .set target index v => (t.runWrite w target index v).asNull

/-- The part of a vector that reaches the member: a field or property takes no index. -/
def Descriptor.vector (d : Descriptor) (args : List Value) : List Value :=
  match d.role with
  | .field | .property => []
  | _ => args

/-- Puts a request to an accessor; nothing where the accessor has no such call. -/
def Accessor.answer (a : Accessor) (w : World) (q : Request) : Option (Outcome Value) :=
  match a, q with
  | .calls a, .invoke target args => some (a.invoke w target args)
  | .holds a, .get target index => some (a.get w target index)
  | .holds a, .set target index v => some (a.set w target index v).asNull
  | _, _ => none

/-! ## Typed requests -/

/-- A typed call with the values given to it, for a value or result of a static type. -/
inductive TypedRequest (type : StaticType) where
  | invoke (args : List Value)
  | get (index : List Value)
  | set (index : List Value) (x : type.Carrier)

namespace TypedRequest

variable {type : StaticType}

def arguments : TypedRequest type → List Value
  | invoke args => args
  | get index | set index _ => index

/-- The values that the request hands over, the assigned one boxed. -/
def values : TypedRequest type → List Value
  | invoke args => args
  | get index => index
  | set index x => index ++ [type.toValue x]

/-- The same request with its value boxed, for a target. -/
def boxed (target : Value) : TypedRequest type → Request
  | invoke args => .invoke target args
  | get index => .get target index
  | set index x => .set target index (type.toValue x)

end TypedRequest

/-- The new instance of a typed constructor, put into a cell of its own. -/
def Effect.ofBuilt (host : HostClass) (w : World) (own : Option Slots)
    (built : Except AccessError Slots) : Effect Value :=
  let x := allocateBuilt host w built
  ⟨x.1, own, x.2⟩

namespace TypedThunk

def type : TypedThunk → StaticType
  | construct _ _ | reconstruct _ _ => .base .void
  | read _ type _ | write _ type _ | invoke _ type _ => type

/-- Puts a request to a compiled operation, on the contents of an instance or on nothing; there is
no answer where the operation has no such call. -/
def answer (t : TypedThunk) (w : World) (own : Option Slots) (q : TypedRequest t.type) :
    Option (Effect Value) :=
  match t, q with
  | construct host t, .invoke args => some (.ofBuilt host w own (t.run args))
  | reconstruct _ t, .invoke args => some (t.run w own args).asNull
  | invoke _ result t, .invoke args => some ((t.run w own args).map result.toValue)
  | read _ type t, .get index => some ((t.run w own index).map type.toValue)
  | write _ _ t, .set index x => some (t.run w own index x).asNull
  | _, _ => none

end TypedThunk

namespace TypedAccessor

def type : TypedAccessor → StaticType
  | constructor _ _ | reconstructor _ _ => .base .void
  | method _ type _ | value _ type _ => type

/-- Puts a request to an accessor, on the contents of an instance or on nothing; there is no answer
where the accessor has no such call. -/
def answer (a : TypedAccessor) (w : World) (own : Option Slots) (q : TypedRequest a.type) :
    Option (Effect Value) :=
  match a, q with
  | constructor host a, q => (TypedThunk.construct host a.thunk).answer w own q
  | reconstructor host a, q => (TypedThunk.reconstruct host a.thunk).answer w own q
  | method host result a, q => (TypedThunk.invoke host result a.thunk).answer w own q
  | value _ type a, .get index => some ((a.get w own index).map type.toValue)
  | value _ _ a, .set index x => some (a.set w own index x).asNull
  | value _ _ _, .invoke _ => none

end TypedAccessor

/-! ## Index vectors -/

theorem Descriptor.mem_vector {d : Descriptor} {args : List Value} {v : Value}
    (h : v ∈ d.vector args) : v ∈ args := by
  unfold vector at h
  split at h
  · cases h
  · cases h
  · exact h

theorem ValueAccessor.index_eq {d : Descriptor} (hrole : d.role.holdsValue = true)
    (getter setter : Option Thunk) (args : List Value) :
    (ValueAccessor.mk d getter setter).index args = d.vector args := by
  unfold index Descriptor.vector
  cases h : d.role <;> rw [h] at hrole <;> first | rfl | cases hrole

theorem TypedValueAccessor.index_eq {d : Descriptor} (hrole : d.role.holdsValue = true)
    {type : StaticType} (getter : Option (TypedRead type)) (setter : Option (TypedWrite type))
    (args : List Value) : (TypedValueAccessor.mk d getter setter).index args = d.vector args := by
  unfold index Descriptor.vector
  cases h : d.role <;> rw [h] at hrole <;> first | rfl | cases hrole

/-! ## Typed runs on objects -/

/-- The outcome of a typed run for the object whose contents it was given: what the run leaves of
them is stored. -/
def Effect.settle {α : Type} (x : Effect α) : Option ObjectRef → Outcome α
  | some o => (x.result, x.world.restore o x.receiver)
  | none => (x.result, x.world)

/-- A target as an untyped value; no target is null. -/
def Value.ofTarget : Option ObjectRef → Value
  | some o => .object o
  | none => .null

end MemberAccess
