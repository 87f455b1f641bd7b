import MemberAccess.Member.Basic
import MemberAccess.Table

/-!
# The accessor cache

Accessors kept by member, each built at most once while it stays in the cache.

* `Shared`: an accessor with the number of the build that made it; two of them are the same
  accessor iff these numbers agree.
* `Cache.get?`, `Cache.getOrBuild`, `Cache.remove`, `Cache.clear`: the operations.
-/

namespace MemberAccess

/-- An accessor with the number of the build that made it; the first build is number one. -/
structure Shared (α : Type) where
  build : Nat
  accessor : α

/-- Accessors by member, and how many builds have run. -/
structure Cache (α : Type) where
  entries : Table MemberId (Shared α)
  builds : Nat

namespace Cache

variable {α ε : Type}

def empty : Cache α := ⟨.empty, 0⟩

instance : Inhabited (Cache α) := ⟨empty⟩

def get? (c : Cache α) (id : MemberId) : Option (Shared α) := c.entries.get? id

/-- What is done with a member's place in the table once it is taken: what stands there is handed
out, an empty place is filled by a build. A build that fails leaves it empty. -/
def fillEntry (c : Cache α) (id : MemberId) (build : Unit → Except ε α) :
    Except ε (Shared α) × Cache α :=
  match c.entries.get? id with
  | some kept => (.ok kept, c)
  | none =>
    match build () with
    | .error e => (.error e, { c with builds := c.builds + 1 })
    | .ok accessor =>
      let made : Shared α := ⟨c.builds + 1, accessor⟩
      (.ok made, ⟨c.entries.insert id made, made.build⟩)

/-- The accessor kept for a member, built and kept if there is none. It is looked up first; only
where that finds nothing is the member's place taken. -/
def getOrBuild (c : Cache α) (id : MemberId) (build : Unit → Except ε α) :
    Except ε (Shared α) × Cache α :=
  match c.get? id with
  | some kept => (.ok kept, c)
  | none => c.fillEntry id build

/-- Takes a member's accessor out of the cache. -/
def remove (c : Cache α) (id : MemberId) : Option (Shared α) × Cache α :=
  (c.get? id, { c with entries := c.entries.erase id })

def clear (c : Cache α) : Cache α := { c with entries := .empty }

def size (c : Cache α) : Nat := c.entries.size

def isEmpty (c : Cache α) : Bool := c.entries.isEmpty

end Cache

end MemberAccess
