import MemberAccess.Member.Registration
import MemberAccess.Table

/-!
# The registry

Where members are registered and looked up. Members are numbered in the order of registration; each
class has an entry with the numbers of its members, its constructors, and its members by name, and
with a flag that its members refer to as well.

* `Registry.enter`: the entry of a class, made if there is none.
* `Registry.markAbstract`, `Registry.add`: the mark is stored in the flag of the class, to which a
  new member is given a reference.
* `Registry.describe`: one block of registrations for a class.
* `Registry.ofBlocks`: the registry after a list of blocks.
* `Registry.find?`, `Registry.findConstructor?` and their like: the first member that fits.
* `Registry.typeByName?`: a class by its full path or its short name.
-/

namespace MemberAccess

/-- What the registry knows of a class; member lists are in order of registration. -/
structure ClassEntry where
  host : HostClass
  members : List MemberId
  constructors : List MemberId
  byName : Table String (List MemberId)
  /-- The flag that is set once the class refuses allocation. -/
  flag : FlagId
  deriving DecidableEq

namespace ClassEntry

def new (host : HostClass) (flag : FlagId) : ClassEntry := ⟨host, [], [], .empty, flag⟩

/-- The members of a class that are registered under a name. -/
def named (entry : ClassEntry) (name : String) : List MemberId :=
  (entry.byName.get? name).getD []

/-- Lists a member, everywhere at the end. -/
def list (entry : ClassEntry) (m : Member) : ClassEntry :=
  { entry with
    members := entry.members ++ [m.id]
    constructors :=
      if m.kind = .constructor then entry.constructors ++ [m.id] else entry.constructors
    byName := entry.byName.upsert m.name [] (· ++ [m.id]) }

end ClassEntry

/-- Registered members and described classes. -/
structure Registry where
  members : List Member
  classes : Table HostClass ClassEntry
  /-- Classes by full path and by short name. -/
  names : Table String HostClass
  /-- The flags of the classes. -/
  flags : Flags

namespace Registry

def empty : Registry := ⟨[], .empty, .empty, .empty⟩

instance : Inhabited Registry := ⟨empty⟩

/-! ## Registration -/

/-- The entry of a class. A class without one gets an entry with a new flag. -/
def enter (r : Registry) (host : HostClass) : ClassEntry × Registry :=
  match r.classes.get? host with
  | some entry => (entry, r)
  | none =>
    let (flag, flags) := r.flags.alloc
    let entry := ClassEntry.new host flag
    (entry, { r with classes := r.classes.insert host entry, flags := flags })

/-- Opens a block for a class: the class has an entry, and its names mean it from now on. -/
def opened (r : Registry) (host : HostClass) : Registry :=
  let x := r.enter host
  { x.2 with names := (x.2.names.insert host.path host).insert host.shortName host }

def abstractFlag (r : Registry) (host : HostClass) : FlagId × Registry :=
  let x := r.enter host
  (x.1.flag, x.2)

def markAbstract (r : Registry) (host : HostClass) : Registry :=
  let x := r.abstractFlag host
  { x.2 with flags := x.2.flags.store x.1 true }

/-- Puts the member that is built for the next number under it. -/
def addMember (r : Registry) (build : MemberId → Member) : MemberId × Registry :=
  let id : MemberId := ⟨r.members.length⟩
  let m := build id
  let x := r.enter m.host
  (id, { x.2 with
    members := x.2.members ++ [m]
    classes := x.2.classes.insert m.host (x.1.list m) })

/-- Registers a member, which gets the flag of its class. -/
def add (r : Registry) (host : HostClass) (v : Visibility) (s : MemberSpec) :
    MemberId × Registry :=
  let x := r.abstractFlag host
  x.2.addMember fun id => s.member id host v x.1

/-- A block in progress: the visibility for what follows, and the last member registered. -/
structure Progress where
  registry : Registry
  visibility : Visibility
  last : Option MemberId

def Progress.step (host : HostClass) (p : Progress) (step : Registration) : Progress :=
  match step with
  | .visibility v => { p with visibility := v }
  | .abstractClass => { p with registry := p.registry.markAbstract host }
  | _ =>
    match step.spec? host with
    | none => p
    | some s =>
      let x := p.registry.add host p.visibility s
      { p with registry := x.2, last := some x.1 }

/-- A block of registrations for a class, with what it leaves. -/
def describe (r : Registry) (host : HostClass) (steps : List Registration) : Progress :=
  steps.foldl (Progress.step host) ⟨r.opened host, .public, none⟩

/-- The registry after blocks, from the first to the last. -/
def ofBlocks (blocks : List (HostClass × List Registration)) : Registry :=
  blocks.foldl (fun r block => (r.describe block.1 block.2).registry) empty

/-! ## Lookup -/

def member? (r : Registry) (id : MemberId) : Option Member := r.members[id.index]?

/-- What is known of a class that was described. -/
def known? (r : Registry) (host : HostClass) : Option ClassEntry := r.classes.get? host

/-- The flag of the class is set. -/
def isAbstract (r : Registry) (host : HostClass) : Bool :=
  match r.known? host with
  | some entry => r.flags.load entry.flag
  | none => false

/-- The class last described under a full path or a short name, as its entry has it. -/
def typeByName? (r : Registry) (name : String) : Option HostClass :=
  match r.names.get? name with
  | some c => (r.known? c).map (·.host)
  | none => none

def membersOf (r : Registry) (host : HostClass) : List Member :=
  match r.known? host with
  | some entry => entry.members.filterMap r.member?
  | none => []

def named (r : Registry) (host : HostClass) (name : String) : List Member :=
  match r.known? host with
  | some entry => (entry.named name).filterMap r.member?
  | none => []

def constructorsOf (r : Registry) (host : HostClass) : List Member :=
  match r.known? host with
  | some entry => entry.constructors.filterMap r.member?
  | none => []

/-- The first member of a class under a name. -/
def resolve? (r : Registry) (host : HostClass) (name : String) : Option Member :=
  (r.named host name).head?

/-- The first member of a class under a name that is of a kind. -/
def find? (r : Registry) (host : HostClass) (name : String) (kind : MemberKind) : Option Member :=
  (r.named host name).find? (·.kind == kind)

/-- The member takes `arity` parameters, or any number when none is asked for. -/
def takes (arity : Option Nat) (m : Member) : Bool :=
  match arity with
  | some n => m.arity == n
  | none => true

/-- The first member of a class under a name that is of a kind and arity. -/
def findTaking? (r : Registry) (host : HostClass) (name : String) (kind : MemberKind)
    (arity : Option Nat) : Option Member :=
  (r.named host name).find? fun m => m.kind == kind && takes arity m

def findField? (r : Registry) (host : HostClass) (name : String) : Option Member :=
  r.find? host name .field

/-- The first property of a class under a name. -/
def findProperty? (r : Registry) (host : HostClass) (name : String) : Option Member :=
  r.find? host name .property

/-- The first indexer of a class under a name, of an arity if one is asked for. -/
def findIndexer? (r : Registry) (host : HostClass) (name : String) (arity : Option Nat) :
    Option Member :=
  r.findTaking? host name .indexer arity

/-- The first method of a class under a name, of an arity if one is asked for. -/
def findMethod? (r : Registry) (host : HostClass) (name : String) (arity : Option Nat) :
    Option Member :=
  r.findTaking? host name .method arity

/-- The first constructor of a class with an arity. -/
def findConstructor? (r : Registry) (host : HostClass) (arity : Nat) : Option Member :=
  (r.constructorsOf host).find? (·.arity == arity)

def size (r : Registry) : Nat := r.members.length

def isEmpty (r : Registry) : Bool := r.members.isEmpty

end Registry

end MemberAccess
