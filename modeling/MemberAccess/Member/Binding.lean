import MemberAccess.Error
import MemberAccess.Member.Body
import MemberAccess.Value.Arguments

/-!
# Bindings

What stands behind a member: how it is constructed, read, written or called. A binding works on
typed values; a receiver is the contents of the object that an instance member is used on. Bindings
do not coerce, that is the work of a compiled plan.

* `Construction`, `Attribute`, `Method`: the three forms, and `Binding`, any of them.
* `Construction.build`, `Attribute.read`, `Attribute.write`, `Method.invoke`: their typed runs.
* `Effect`: the result of a run with the receiver and the world that it leaves.
-/

namespace MemberAccess

/-- What a run returns or fails with, and the receiver and the world that it leaves. -/
structure Effect (α : Type) where
  result : Except AccessError α
  receiver : Option Slots
  world : World

namespace Effect

variable {α β : Type}

/-- A run that failed without a trace. -/
def refused (e : AccessError) (receiver : Option Slots) (w : World) : Effect α :=
  ⟨.error e, receiver, w⟩

def map (f : α → β) (x : Effect α) : Effect β := ⟨x.result.map f, x.receiver, x.world⟩

end Effect

/-- The slots that a member works on. -/
inductive Storage where
  /-- Those of the receiver. -/
  | own
  /-- Those that all static members share. -/
  | shared
  deriving DecidableEq, Repr

/-- The error of an instance member that runs without a receiver. -/
def missingReceiver : AccessError := .invalidOperation .missingReceiver

/-! ## Construction -/

/-- A constructor: it writes its arguments into the slots of these names, from the first on. -/
structure Construction where
  parameters : List StaticType
  slots : List String
  deriving DecidableEq

def Construction.build (k : Construction) (args : List Value) : Except AccessError Slots :=
  match Arguments.unpack k.parameters args with
  | .error e => .error (.value e)
  | .ok xs => .ok (Slots.ofList (k.slots.zip (Arguments.box k.parameters xs)))

/-! ## Attributes -/

/-- Where the value of a field, property or indexer is kept. -/
inductive Location where
  /-- In one slot. -/
  | slot (storage : Storage) (name : String)
  /-- In the receiver's slot that the index arguments name. -/
  | element (name : String) (index : List StaticType)
  deriving DecidableEq

/-- The slot of an indexer's element: `name[i,j]`. -/
def elementSlot (name : String) (index : List Value) : String :=
  name ++ "[" ++ String.intercalate "," (index.map Value.plain) ++ "]"

/-- A field, property or indexer of a static type. -/
structure Attribute (type : StaticType) where
  location : Location
  hasGetter : Bool
  hasSetter : Bool
  deriving DecidableEq

/-- A place that a location has been resolved to. -/
inductive Place where
  | own (slots : Slots) (name : String)
  | shared (name : String)

/-- The place that a location means for a receiver and an index vector. Plain slots ignore the
index, static ones the receiver too. -/
def Location.resolve (l : Location) (receiver : Option Slots) (index : List Value) :
    Except AccessError Place :=
  match l, receiver with
  | .slot .shared name, _ => .ok (.shared name)
  | .slot .own name, some slots => .ok (.own slots name)
  | .element name types, some slots =>
    match Arguments.unpack types index with
    | .error e => .error (.value e)
    | .ok xs => .ok (.own slots (elementSlot name (Arguments.box types xs)))
  | _, none => .error missingReceiver

def Place.get (w : World) : Place → Value
  | own slots name => slots.get name
  | shared name => w.statics.get name

namespace Attribute

variable {type : StaticType}

/-- Reads the attribute; a value that is not of its type is replaced by the type's substitute. -/
def read (a : Attribute type) (w : World) (receiver : Option Slots) (index : List Value) :
    Effect type.Carrier :=
  match a.location.resolve receiver index with
  | .error e => .refused e receiver w
  | .ok place =>
    let (x, w') := type.fit (place.get w) w
    ⟨.ok x, receiver, w'⟩

def write (a : Attribute type) (w : World) (receiver : Option Slots) (index : List Value)
    (x : type.Carrier) : Effect Unit :=
  match a.location.resolve receiver index with
  | .error e => .refused e receiver w
  | .ok (.own slots name) => ⟨.ok (), some (slots.set name (type.toValue x)), w⟩
  | .ok (.shared name) =>
    ⟨.ok (), receiver, { w with statics := w.statics.set name (type.toValue x) }⟩

end Attribute

/-! ## Methods -/

/-- A method that returns a static type. -/
structure Method (result : StaticType) where
  parameters : List StaticType
  storage : Storage
  /-- The name under which a failure of the body is reported; none if failures are swallowed. -/
  reportsAs : Option String
  body : Body
  deriving DecidableEq

namespace Method

variable {result : StaticType}

def conclude (m : Method result) (outcome : Except String Value) (w : World) :
    Except AccessError result.Carrier × World :=
  match outcome, m.reportsAs with
  | .ok v, _ => let (x, w') := result.fit v w; (.ok x, w')
  | .error report, some name => (.error (.memberFailed name report), w)
  | .error _, none => let (x, w') := result.fit .null w; (.ok x, w')

/-- Runs the body over unpacked arguments. A body sees the contents of other objects as they were
before the call. -/
def execute (m : Method result) (w : World) (receiver : Option Slots) (args : List Value) :
    Effect result.Carrier :=
  match m.storage, receiver with
  | .shared, _ =>
    let (slots, outcome) := m.body.run w.contents args w.statics
    let (r, w') := m.conclude outcome { w with statics := slots }
    ⟨r, receiver, w'⟩
  | .own, some own =>
    let (slots, outcome) := m.body.run w.contents args own
    let (r, w') := m.conclude outcome w
    ⟨r, some slots, w'⟩
  | .own, none => .refused missingReceiver receiver w

/-- Calls the method: an instance method needs a receiver before its arguments are unpacked. -/
def invoke (m : Method result) (w : World) (receiver : Option Slots) (args : List Value) :
    Effect result.Carrier :=
  if m.storage = .own ∧ receiver.isNone then .refused missingReceiver receiver w
  else
    match Arguments.unpack m.parameters args with
    | .error e => .refused (.value e) receiver w
    | .ok xs => m.execute w receiver (Arguments.box m.parameters xs)

end Method

/-! ## Any binding -/

/-- What stands behind a member. -/
inductive Binding where
  | construction (k : Construction)
  | value (type : StaticType) (a : Attribute type)
  | method (result : StaticType) (m : Method result)

namespace Binding

/-- There is something to read; constructors and methods always count as readable. -/
def hasGetter : Binding → Bool
  | construction _ | method _ _ => true
  | value _ a => a.hasGetter

def hasSetter : Binding → Bool
  | construction _ | method _ _ => false
  | value _ a => a.hasSetter

end Binding

end MemberAccess
