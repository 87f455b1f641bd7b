/-!
# Permissions

A permission is a set of seven flags: reading, writing and invoking public and private members, and
construction.

* `Permission.contains`, `Permission.union`, `Permission.difference`: the set operations.
* `Permission.named`: the permissions that have names, in the order in which a name is looked up.
* `Permission.text`: the name of a permission, or its bits in hexadecimal.
* `Permission.required`: what an operation on a member needs.
-/

namespace MemberAccess

/-- The operations on members. -/
inductive Operation where
  | construct
  | get
  | set
  | invoke
  deriving DecidableEq, Repr

def Operation.name : Operation → String
  | construct => "construct"
  | get => "get"
  | set => "set"
  | invoke => "invoke"

/-- A set of permission flags. -/
structure Permission where
  flags : BitVec 7
  deriving DecidableEq, Repr

namespace Permission

/-! ## The flags -/

def none : Permission := ⟨0x00⟩

/-- Public fields, properties and indexers are read. -/
def readPublic : Permission := ⟨0x01⟩

def readPrivate : Permission := ⟨0x02⟩

/-- Public fields, properties and indexers are written. -/
def writePublic : Permission := ⟨0x04⟩

def writePrivate : Permission := ⟨0x08⟩

def invokePublic : Permission := ⟨0x10⟩

/-- Private methods and private constructors are called. -/
def invokePrivate : Permission := ⟨0x20⟩

def construction : Permission := ⟨0x40⟩

def readAll : Permission := ⟨0x03⟩

def writeAll : Permission := ⟨0x0C⟩

def invokeAll : Permission := ⟨0x30⟩

def publicOnly : Permission := ⟨0x55⟩

/-- Every flag; what holds where nothing is said. -/
def all : Permission := ⟨0x7F⟩

instance : Inhabited Permission := ⟨all⟩

def named : List (String × Permission) :=
  [("NONE", none), ("READ_PUBLIC", readPublic), ("READ_PRIVATE", readPrivate),
    ("WRITE_PUBLIC", writePublic), ("WRITE_PRIVATE", writePrivate),
    ("INVOKE_PUBLIC", invokePublic), ("INVOKE_PRIVATE", invokePrivate),
    ("CONSTRUCT", construction), ("READ_ALL", readAll), ("WRITE_ALL", writeAll),
    ("INVOKE_ALL", invokeAll), ("PUBLIC_ONLY", publicOnly), ("ALL", all)]

/-! ## Sets -/

/-- The flags among the lowest seven bits of a number. -/
def ofBits (n : Nat) : Permission := ⟨BitVec.ofNat 7 n⟩

def bits (p : Permission) : Nat := p.flags.toNat

def contains (p q : Permission) : Bool := p.flags &&& q.flags == q.flags

def union (p q : Permission) : Permission := ⟨p.flags ||| q.flags⟩

def difference (p q : Permission) : Permission := ⟨p.flags &&& ~~~q.flags⟩

def hexDigits (n : Nat) : String :=
  String.ofList ([n / 16, n % 16].map fun d => (Nat.digitChar d).toUpper)

/-- The name of the permission, or its bits when it has none. -/
def text (p : Permission) : String :=
  match named.find? (fun entry => entry.2 == p) with
  | some entry => entry.1
  | Option.none => "0x" ++ hexDigits p.bits

/-- What an operation on a public or private member needs. -/
def required : Operation → (onPrivate : Bool) → Permission
  | .get, false => readPublic
  | .get, true => readPrivate
  | .set, false => writePublic
  | .set, true => writePrivate
  | .invoke, false => invokePublic
  | .invoke, true => invokePrivate
  | .construct, false => construction
  | .construct, true => construction.union invokePrivate

end Permission

end MemberAccess
