import MemberAccess.Member.Basic

/-!
# Registrations

One step in the description of a class: a member, or a setting for what follows.

* `Registration`: the steps.
* `MemberSpec`: what a step says about a member, before the member has an identity.
* `Registration.spec?`: the member that a step registers.
-/

namespace MemberAccess

/-- One step in the description of a class. -/
inductive Registration where
  /-- The visibility of the members after this step. -/
  | visibility (v : Visibility)
  /-- The class refuses allocation from now on. -/
  | abstractClass
  | constructor (parameters : List StaticType) (slots : List String)
  | field (name : String) (type : StaticType) (slot : String)
  | readonlyField (name : String) (type : StaticType) (slot : String)
  | staticField (name : String) (type : StaticType) (slot : String)
  | staticReadonlyField (name : String) (type : StaticType) (slot : String)
  | property (name : String) (type : StaticType) (slot : String)
  | readonlyProperty (name : String) (type : StaticType) (slot : String)
  | writeonlyProperty (name : String) (type : StaticType) (slot : String)
  | staticProperty (name : String) (type : StaticType) (slot : String)
  | staticReadonlyProperty (name : String) (type : StaticType) (slot : String)
  | indexer (name : String) (index : List StaticType) (type : StaticType) (slot : String)
  | readonlyIndexer (name : String) (index : List StaticType) (type : StaticType) (slot : String)
  | method (name : String) (parameters : List StaticType) (result : StaticType) (body : Body)
  /-- A method whose failure is reported to the caller. -/
  | tryMethod (name : String) (parameters : List StaticType) (result : StaticType) (body : Body)
  | staticMethod (name : String) (parameters : List StaticType) (result : StaticType) (body : Body)
  deriving DecidableEq

/-- What a step says about a member. That a member is static is said apart from its binding, which
has a storage of its own. -/
structure MemberSpec where
  name : String
  kind : MemberKind
  valueType : TypeHandle
  parameters : List TypeHandle
  isStatic : Bool
  binding : Binding

namespace MemberSpec

def ofAttribute (name : String) (kind : MemberKind) (index : List StaticType) {type : StaticType}
    (isStatic : Bool) (a : Attribute type) : MemberSpec :=
  ⟨name, kind, type.handle, index.map StaticType.handle, isStatic, .value type a⟩

def ofMethod (name : String) {result : StaticType} (isStatic : Bool) (m : Method result) :
    MemberSpec :=
  ⟨name, .method, result.handle, m.parameters.map StaticType.handle, isStatic, .method result m⟩

/-- Only a field is read-only for want of a setter; a property without one simply cannot be
written. -/
def isReadonly (s : MemberSpec) : Bool := s.kind == .field && !s.binding.hasSetter

/-- The member that a step's description becomes, with the flag of its class. -/
def member (s : MemberSpec) (id : MemberId) (host : HostClass) (v : Visibility) (flag : FlagId) :
    Member :=
  ⟨id, s.name, s.kind, host, s.valueType, s.parameters, ⟨v, s.isStatic, s.isReadonly⟩, s.binding,
    flag⟩

end MemberSpec

def constructorName : String := "new"

namespace Registration

/-- The member that a step registers in the class `host`. -/
def spec? (host : HostClass) : Registration → Option MemberSpec
  | visibility _ | abstractClass => none
  | constructor parameters slots =>
    some ⟨constructorName, .constructor, .ofHost host, parameters.map StaticType.handle, false,
      .construction ⟨parameters, slots⟩⟩
  | field name type slot =>
    some (.ofAttribute name .field [] false (⟨.slot .own slot, true, true⟩ : Attribute type))
  | readonlyField name type slot =>
    some (.ofAttribute name .field [] false (⟨.slot .own slot, true, false⟩ : Attribute type))
  | staticField name type slot =>
    some (.ofAttribute name .field [] true (⟨.slot .shared slot, true, true⟩ : Attribute type))
  | staticReadonlyField name type slot =>
    some (.ofAttribute name .field [] true (⟨.slot .shared slot, true, false⟩ : Attribute type))
  | property name type slot =>
    some (.ofAttribute name .property [] false (⟨.slot .own slot, true, true⟩ : Attribute type))
  | readonlyProperty name type slot =>
    some (.ofAttribute name .property [] false (⟨.slot .own slot, true, false⟩ : Attribute type))
  | writeonlyProperty name type slot =>
    some (.ofAttribute name .property [] false (⟨.slot .own slot, false, true⟩ : Attribute type))
  | staticProperty name type slot =>
    some (.ofAttribute name .property [] true (⟨.slot .shared slot, true, true⟩ : Attribute type))
  | staticReadonlyProperty name type slot =>
    some (.ofAttribute name .property [] true (⟨.slot .shared slot, true, false⟩ : Attribute type))
  | indexer name index type slot =>
    some (.ofAttribute name .indexer index false
      (⟨.element slot index, true, true⟩ : Attribute type))
  | readonlyIndexer name index type slot =>
    some (.ofAttribute name .indexer index false
      (⟨.element slot index, true, false⟩ : Attribute type))
  | method name parameters result body =>
    some (.ofMethod name false (⟨parameters, .own, none, body⟩ : Method result))
  | tryMethod name parameters result body =>
    some (.ofMethod name false
      (⟨parameters, .own, some (host.shortName ++ "." ++ name), body⟩ : Method result))
  | staticMethod name parameters result body =>
    some (.ofMethod name true (⟨parameters, .shared, none, body⟩ : Method result))

end Registration

end MemberAccess
