import MemberAccess.Member.Registry

/-!
# Descriptors

A descriptor fixes which member an accessor wraps and in which role. What it says never changes, but
for the flag of the class, to which the member refers.

* `Descriptor.new`: a descriptor over a member, if the member has the role.
* `Descriptor.resolve`: the same over the first member of a class that fits.
* `Descriptor.isStatic`, `canRead`, `canWrite`, `canInvoke`: what the member offers in its role.
-/

namespace MemberAccess

/-- A member in a role. -/
structure Descriptor where
  role : Role
  member : Member

namespace Descriptor

/-- A descriptor over a member. The member has to exist, to be of a kind that has the role, and for
an indexed property to have index parameters. -/
def new (member : Option Member) (role : Role) : Except AccessError Descriptor :=
  match member with
  | none => .error (.invalidMember (.absent role))
  | some m =>
    if m.kind ≠ role.memberKind then
      .error (.invalidMember (.wrongKind m.qualifiedName m.kind role))
    else if role = .indexed ∧ m.parameters = [] then
      .error (.invalidMember (.noIndex m.qualifiedName))
    else .ok ⟨role, m⟩

/-- A descriptor over the first member of a class under a name whose kind has the role. -/
def resolve (r : Registry) (host : HostClass) (name : String) (role : Role) :
    Except AccessError Descriptor :=
  match r.find? host name role.memberKind with
  | some m => new (some m) role
  | none => .error (.invalidMember (.notFound host role.memberKind name))

def qualifiedName (d : Descriptor) : String := d.member.qualifiedName

def host (d : Descriptor) : HostClass := d.member.host

def parameters (d : Descriptor) : List TypeHandle := d.member.parameters

def arity (d : Descriptor) : Nat := d.parameters.length

def isPrivate (d : Descriptor) : Bool := d.member.modifiers.isPrivate

/-- No target is needed: a constructor allocates, one in the other role runs over its target. -/
def isStatic (d : Descriptor) : Bool :=
  match d.role with
  | .constructor => true
  | .reconstructor => false
  | _ => d.member.isStatic

def canRead (d : Descriptor) : Bool := d.role.holdsValue && d.member.binding.hasGetter

def canWrite (d : Descriptor) : Bool :=
  d.role.holdsValue && d.member.binding.hasSetter && !d.member.modifiers.isReadonly

/-- The member is called, not read or written. -/
def canInvoke (d : Descriptor) : Bool := !d.role.holdsValue

end Descriptor

end MemberAccess
