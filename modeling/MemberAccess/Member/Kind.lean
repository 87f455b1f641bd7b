/-!
# Kinds and roles

* `MemberKind`: what a member is.
* `Role`: what a member is used as behind an accessor; a constructor has two roles.
* `Visibility`, `Modifiers`: who may use a member, and how it is reached.
-/

namespace MemberAccess

/-- What a member is. -/
inductive MemberKind where
  | constructor
  | field
  | property
  /-- A property that takes index arguments. -/
  | indexer
  | method
  deriving DecidableEq, Repr

namespace MemberKind

def name : MemberKind → String
  | constructor => "constructor"
  | field => "field"
  | property => "property"
  | indexer => "indexer"
  | method => "method"

def debug : MemberKind → String
  | constructor => "Constructor"
  | field => "Field"
  | property => "Property"
  | indexer => "Indexer"
  | method => "Method"

/-- Fields, properties and indexers hold a value. -/
def holdsValue : MemberKind → Bool
  | field | property | indexer => true
  | constructor | method => false

end MemberKind

/-- What a member is used as behind an accessor. -/
inductive Role where
  /-- A constructor that allocates an instance. -/
  | constructor
  /-- A constructor that runs over an instance that exists. -/
  | reconstructor
  | field
  | property
  | indexed
  | method
  deriving DecidableEq, Repr

namespace Role

def memberKind : Role → MemberKind
  | constructor | reconstructor => .constructor
  | field => .field
  | property => .property
  | indexed => .indexer
  | method => .method

def holdsValue : Role → Bool
  | field | property | indexed => true
  | constructor | reconstructor | method => false

def name : Role → String
  | constructor => "constructor"
  | reconstructor => "constructor-as-method"
  | field => "field"
  | property => "property"
  | indexed => "indexed property"
  | method => "method"

def debug : Role → String
  | constructor => "Constructor"
  | reconstructor => "ConstructorAsMethod"
  | field => "Field"
  | property => "Property"
  | indexed => "IndexedProperty"
  | method => "Method"

end Role

/-- Who may use a member. -/
inductive Visibility where
  | «public»
  | «private»
  deriving DecidableEq, Repr, Inhabited

def Visibility.debug : Visibility → String
  | .public => "Public"
  | .private => "Private"

/-- How a member is used and reached. -/
structure Modifiers where
  visibility : Visibility
  /-- The member has no receiver. -/
  isStatic : Bool
  /-- The member is a field without a setter. -/
  isReadonly : Bool
  deriving DecidableEq, Repr

def Modifiers.isPrivate (m : Modifiers) : Bool := m.visibility == .private

/-- The shapes of compiled operations. -/
inductive Shape where
  /-- Arguments to a new instance. -/
  | construct
  /-- Target and arguments to a result. -/
  | call
  /-- Target and index to a value. -/
  | read
  /-- Target, index and value. -/
  | write
  deriving DecidableEq, Repr

def Shape.name : Shape → String
  | .construct => "construct"
  | .call => "call"
  | .read => "read"
  | .write => "write"

end MemberAccess
