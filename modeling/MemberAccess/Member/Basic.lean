import MemberAccess.Member.Flag
import MemberAccess.Member.Receiver

/-!
# Members

* `MemberId`: the identity of a registered member.
* `Member`: what metadata says about one member, together with its binding.
* `Member.qualifiedName`: the member in error messages.
-/

namespace MemberAccess

/-- The identity of a registered member: its place in the order of registration. -/
structure MemberId where
  index : Nat
  deriving DecidableEq, Repr, Inhabited

/-- A registered member. -/
structure Member where
  id : MemberId
  name : String
  kind : MemberKind
  /-- The class that declares the member. -/
  host : HostClass
  /-- The type of the value, of the result, or of the instance constructed. -/
  valueType : TypeHandle
  /-- The types of the arguments, or of an indexer's index. -/
  parameters : List TypeHandle
  modifiers : Modifiers
  /-- The member's code. The typed surface runs it as it was registered; the form that the untyped
  surface runs is derived from that, by `Construction.allocate`, `Construction.rebuild`,
  `Attribute.readValue`, `Attribute.writeValue` and `Method.invokeValue`. -/
  binding : Binding
  /-- The flag of the class, set once the class refuses allocation. -/
  flag : FlagId

namespace Member

/-- The member's name after its class's short name. -/
def qualifiedName (m : Member) : String := m.host.shortName ++ "." ++ m.name

def declaringType (m : Member) : TypeHandle := .ofHost m.host

def isStatic (m : Member) : Bool := m.modifiers.isStatic

/-- The member is a constructor of a class that is abstract now. -/
def isAbstract (flags : Flags) (m : Member) : Bool := m.kind == .constructor && flags.load m.flag

def arity (m : Member) : Nat := m.parameters.length

end Member

end MemberAccess
