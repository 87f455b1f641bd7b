import MemberAccess.Member.Kind
import MemberAccess.Permission.Basic
import MemberAccess.Value.Error

/-!
# Access errors

Why a descriptor, an accessor or a call was refused. Each error is found at a fixed point:
`invalidMember` where descriptors and accessors are made, `compilationFailed` where a plan is
compiled, the others where a call is made.

* `InvalidMember`, `Refusal`, `InvalidOperation`: causes of the errors that are found before a call.
* `AccessError`: all errors, and `AccessError.message`, their texts.
-/

namespace MemberAccess

/-- Which of the values given to a call an error is about. -/
inductive CastSite where
  | argument (position : Nat)
  /-- The value given to a setter. -/
  | assigned
  deriving DecidableEq, Repr

def CastSite.name : CastSite → String
  | argument position => "argument " ++ toString position
  | assigned => "assigned value"

/-- Why metadata does not serve. -/
inductive InvalidMember where
  /-- There is no member. -/
  | absent (role : Role)
  /-- The member is of a kind that does not have the role. -/
  | wrongKind (member : String) (kind : MemberKind) (role : Role)
  /-- The indexer has no index parameters. -/
  | noIndex (member : String)
  /-- The class has no member of the kind and name. -/
  | notFound (host : HostClass) (kind : MemberKind) (name : String)
  /-- The descriptor has a role that the accessor does not serve. -/
  | otherRole (member : String) (role : Role)
  /-- The member was registered with other static types. -/
  | otherType (member : String) (expected : String)
  deriving DecidableEq, Repr

def InvalidMember.message : InvalidMember → String
  | absent role => "no metadata for " ++ role.name
  | wrongKind member kind role => member ++ " is a " ++ kind.name ++ ", not a " ++ role.name
  | noIndex member => "indexer " ++ member ++ " declares no index parameters"
  | notFound host kind name => host.shortName ++ " has no " ++ kind.name ++ " named " ++ name
  | otherRole member role =>
    member ++ " is described as a " ++ role.name ++ ", which this accessor does not wrap"
  | otherType member expected => member ++ " does not have the static type " ++ expected

/-- Why a plan is not compiled. -/
inductive Refusal where
  /-- The plan unpacks another number of arguments than the member declares. -/
  | arity (planned declared : Nat)
  /-- The plan allocates an instance of an abstract class. -/
  | abstractClass (host : HostClass)
  /-- The policy does not grant what the operation needs. -/
  | denied (operation : Operation) (onPrivate : Bool) (required : Permission) (host : HostClass)
      (granted : Permission)
  /-- The plan does not fit the member's binding. -/
  | unfit (operation : Operation) (role : Role)
  deriving DecidableEq, Repr

def Refusal.message : Refusal → String
  | arity planned declared =>
    "plan unpacks " ++ toString planned ++ " argument(s) but the member declares " ++
      toString declared
  | abstractClass host => host.shortName ++ " is abstract"
  | denied operation onPrivate required host granted =>
    "permission denied: " ++ operation.name ++ " " ++ (if onPrivate then "private" else "public") ++
      " member requires " ++ required.text ++ ", " ++ host.shortName ++ " grants " ++ granted.text
  | unfit operation role => operation.name ++ " plan does not fit " ++ role.name ++ " binding"

/-- Why an operation cannot be planned or run. -/
inductive InvalidOperation where
  /-- The member does not offer the operation. -/
  | notOffered (role : Role) (member : String) (operation : Operation)
  /-- A compiled operation was used as one of another shape. -/
  | wrongShape (shape wanted : Shape)
  /-- An instance member ran without a receiver. -/
  | missingReceiver
  deriving DecidableEq, Repr

def InvalidOperation.message : InvalidOperation → String
  | notOffered role member operation =>
    role.name ++ " " ++ member ++ " offers no " ++ operation.name ++ " operation"
  | wrongShape shape wanted =>
    shape.name ++ " thunk used as a " ++ wanted.name ++ " thunk"
  | missingReceiver => "instance member reached without a receiver"

/-- The two operations of a value accessor. -/
inductive ValueOperation where
  | get
  | set
  deriving DecidableEq, Repr

def ValueOperation.name : ValueOperation → String
  | get => "GetValue"
  | set => "SetValue"

/-- Why a descriptor, an accessor or a call was refused; `member` is the qualified name. -/
inductive AccessError where
  | invalidMember (cause : InvalidMember)
  | compilationFailed (member : String) (refusal : Refusal)
  /-- An instance member was called without a target. -/
  | targetNull (member : String)
  /-- The target is not an instance of the declaring class. -/
  | targetMismatch (member : String) (expected : HostClass) (found : String)
  /-- The accessor has no such operation. -/
  | notSupported (member : String) (operation : ValueOperation)
  | invalidOperation (cause : InvalidOperation)
  | argumentCount (member : String) (expected got : Nat)
  /-- A value was not coerced to the type of its place. -/
  | invalidCast (member : String) (site : CastSite) (expected : TypeHandle) (found : String)
  /-- An argument or the assigned value is the target itself. -/
  | aliasedTarget (member : String) (site : CastSite)
  /-- The member itself reported a failure. -/
  | memberFailed (member : String) (report : String)
  /-- A conversion failed inside the member. -/
  | value (e : ValueError)
  deriving DecidableEq, Repr

def AccessError.message : AccessError → String
  | invalidMember cause => "Invalid member: " ++ cause.message
  | compilationFailed member refusal =>
    "Accessor compilation failed for " ++ member ++ ": " ++ refusal.message
  | targetNull member => "Target required for instance member " ++ member
  | targetMismatch member expected found =>
    "Target of " ++ member ++ " must be " ++ expected.shortName ++ ", got " ++ found
  | notSupported member operation => operation.name ++ " is not supported by " ++ member
  | invalidOperation cause => "Invalid operation: " ++ cause.message
  | argumentCount member expected got =>
    member ++ " expects " ++ toString expected ++ " argument(s), got " ++ toString got
  | invalidCast member site expected found =>
    "Cannot convert " ++ site.name ++ " of " ++ member ++ ": expected " ++ expected.display ++
      ", got " ++ found
  | aliasedTarget member site => site.name ++ " of " ++ member ++ " is its own target"
  | memberFailed member report => member ++ " failed: " ++ report
  | value e => e.message

end MemberAccess
