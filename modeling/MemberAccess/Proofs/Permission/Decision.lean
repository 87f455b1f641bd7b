import MemberAccess.Thunk.Admission

/-!
# What a policy decides

A policy keeps its exact rules in a table, its wildcard rules in a list and its global permissions
beside them, and it answers without looking at any of them when nothing is restricted. What it
decides can be read off the edits that made it: the last exact rule for the path, else the first
wildcard rule that covers it, else the last global permissions. The shortcut does not show.

* `Permission.contains_iff`: sets of flags, flag by flag.
* `Policy.check_eq`: a check without the shortcut.
* `Policy.Edit`, `Policy.edited`: a history of edits; `Policy.decided`: what it decides of a path.
* `Policy.Follows`: the policy stores what its edits decide; `Policy.Follows.step` and
  `Policy.Follows.edited` keep it.
* `policy_decided_by_edits`: what is resolved and what is checked after any edits.
-/

namespace MemberAccess

/-! ## Flags -/

namespace Permission

variable {p q q' : Permission}

/-- The permission has the flag with this number. -/
def Has (p : Permission) (i : Nat) : Prop := p.flags.getLsbD i = true

theorem contains_iff : p.contains q = true ↔ ∀ i, q.Has i → p.Has i := by
  constructor
  · intro h i hi
    have hand : p.flags &&& q.flags = q.flags := beq_iff_eq.1 h
    have hbit := congrArg (fun x => x.getLsbD i) hand
    simp only [BitVec.getLsbD_and] at hbit
    rw [Has] at hi ⊢
    rw [hi, Bool.and_true] at hbit
    exact hbit
  · intro h
    refine beq_iff_eq.2 (BitVec.eq_of_getLsbD_eq fun i hlt => ?_)
    rw [BitVec.getLsbD_and]
    cases hi : q.flags.getLsbD i with
    | false => exact Bool.and_false _
    | true =>
      have hp : p.flags.getLsbD i = true := h i hi
      rw [hp, Bool.and_true]

theorem has_union {i : Nat} : (p.union q).Has i ↔ p.Has i ∨ q.Has i := by
  simp only [Has, union, BitVec.getLsbD_or, Bool.or_eq_true]

theorem contains_union_iff :
    p.contains (q.union q') = true ↔ p.contains q = true ∧ p.contains q' = true := by
  simp only [contains_iff, has_union]
  constructor
  · intro h
    exact ⟨fun i hi => h i (.inl hi), fun i hi => h i (.inr hi)⟩
  · rintro ⟨hq, hq'⟩ i (hi | hi)
    · exact hq i hi
    · exact hq' i hi

theorem contains_trans (h : p.contains q = true) (h' : q.contains q' = true) :
    p.contains q' = true :=
  contains_iff.2 fun i hi => contains_iff.1 h i (contains_iff.1 h' i hi)

theorem all_contains (p : Permission) : all.contains p = true := by
  refine contains_iff.2 fun i hi => ?_
  have hlt : i < 7 := BitVec.lt_of_getLsbD hi
  have hones : all.flags = BitVec.allOnes 7 := rfl
  rw [Has, hones, BitVec.getLsbD_allOnes]
  exact decide_eq_true hlt

end Permission

/-! ## The shortcut -/

namespace Policy

variable {policy : Policy}

theorem resolve_of_not_restricted (h : policy.restricted = false) (t : TypeHandle) :
    policy.resolve t = .all := by
  obtain ⟨global, ⟨entries, hnodup⟩, rules⟩ := policy
  simp only [restricted, Table.isEmpty, Bool.or_eq_false_iff, bne_eq_false_iff_eq,
    Bool.not_eq_false', List.isEmpty_iff] at h
  obtain ⟨⟨rfl, rfl⟩, rfl⟩ := h
  rfl

theorem check_eq (policy : Policy) (d : Descriptor) (operation : Operation) :
    policy.check d operation =
      if (policy.resolve d.member.declaringType).contains
          (.required operation d.isPrivate) = true then .ok ()
      else .error (d.refusal (.denied operation d.isPrivate (.required operation d.isPrivate) d.host
        (policy.resolve d.member.declaringType))) := by
  unfold check
  cases hrestricted : policy.restricted with
  | true => rfl
  | false =>
    rw [resolve_of_not_restricted hrestricted, if_pos (Permission.all_contains _)]
    rfl

theorem check_eq_ok_iff {d : Descriptor} {operation : Operation} :
    policy.check d operation = .ok () ↔
      (policy.resolve d.member.declaringType).contains
        (.required operation d.isPrivate) = true := by
  rw [check_eq]
  split
  · rename_i hgranted
    exact iff_of_true rfl hgranted
  · rename_i hdenied
    exact iff_of_false nofun hdenied

/-! ## Storing -/

theorem addRule_of_noStar {pattern : String} {p : Permission} (h : '*' ∉ pattern.toList) :
    policy.addRule pattern p = { policy with exact := policy.exact.insert pattern p } := by
  rw [addRule, isWildcard, if_neg (by rwa [List.contains_iff_mem])]

theorem addRule_of_star {pattern : String} {p : Permission} (h : '*' ∈ pattern.toList) :
    policy.addRule pattern p = { policy with rules := policy.rules ++ [⟨pattern, p⟩] } := by
  rw [addRule, isWildcard, if_pos (by rwa [List.contains_iff_mem])]

/-! ## Histories of edits -/

/-- An edit of a policy. -/
inductive Edit where
  | addRule (pattern : String) (p : Permission)
  | setGlobal (p : Permission)
  deriving DecidableEq

namespace Edit

def apply (policy : Policy) : Edit → Policy
  | addRule pattern p => policy.addRule pattern p
  | setGlobal p => policy.setGlobal p

/-- What the edit says of a path by its name. -/
def named? (path : String) : Edit → Option Permission
  | addRule pattern p => if '*' ∉ pattern.toList ∧ pattern = path then some p else none
  | setGlobal _ => none

/-- What the edit says of a path by a pattern that covers it. -/
def covering? (path : String) : Edit → Option Permission
  | addRule pattern p =>
    if '*' ∈ pattern.toList ∧ (⟨pattern, p⟩ : TypeRule).matchesPath path = true then some p
    else none
  | setGlobal _ => none

/-- What the edit says of every path. -/
def global? : Edit → Option Permission
  | addRule _ _ => none
  | setGlobal p => some p

end Edit

/-- The policy after edits, from the first to the last. -/
def edited (policy : Policy) (edits : List Edit) : Policy := edits.foldl Edit.apply policy

/-- The permissions of the last rule for the path itself. -/
def lastNamed (edits : List Edit) (path : String) : Option Permission :=
  edits.reverse.findSome? (Edit.named? path)

/-- The permissions of the first pattern that covers the path. -/
def firstCovering (edits : List Edit) (path : String) : Option Permission :=
  edits.findSome? (Edit.covering? path)

/-- The last global permissions, which are `g` at first. -/
def lastGlobal (g : Permission) (edits : List Edit) : Permission :=
  (edits.reverse.findSome? Edit.global?).getD g

/-- The permissions that edits of a policy with the global permissions `g` leave for a path. -/
def decided (g : Permission) (edits : List Edit) (path : String) : Permission :=
  ((lastNamed edits path).or (firstCovering edits path)).getD (lastGlobal g edits)

/-! ## One more edit -/

section append

variable (edits : List Edit) (pattern path : String) (g p : Permission)

theorem lastNamed_append (e : Edit) :
    lastNamed (edits ++ [e]) path = (e.named? path).or (lastNamed edits path) := by
  rw [lastNamed, List.reverse_append, List.reverse_singleton, List.singleton_append,
    List.findSome?_cons]
  cases e.named? path <;> rfl

theorem lastNamed_cons (e : Edit) :
    lastNamed (e :: edits) path = (lastNamed edits path).or (e.named? path) := by
  rw [lastNamed, List.reverse_cons, List.findSome?_append, List.findSome?_singleton]
  rfl

theorem firstCovering_append (e : Edit) :
    firstCovering (edits ++ [e]) path = (firstCovering edits path).or (e.covering? path) := by
  rw [firstCovering, List.findSome?_append, List.findSome?_singleton]
  rfl

theorem lastGlobal_append (e : Edit) :
    lastGlobal g (edits ++ [e]) = (e.global?).getD (lastGlobal g edits) := by
  rw [lastGlobal, List.reverse_append, List.reverse_singleton, List.singleton_append,
    List.findSome?_cons]
  cases e.global? <;> rfl

end append

/-! ## What a policy stores -/

/-- The permissions of the first stored wildcard rule that covers a path. -/
def covering (policy : Policy) (path : String) : Option Permission :=
  (policy.rules.find? (·.matchesPath path)).map (·.permission)

theorem resolvePath_eq (policy : Policy) (path : String) :
    policy.resolvePath path =
      ((policy.exact.get? path).or (policy.covering path)).getD policy.global := by
  unfold resolvePath covering
  cases policy.exact.get? path with
  | some p => rfl
  | none => cases policy.rules.find? (·.matchesPath path) <;> rfl

/-- The policy stores what the edits decide. -/
structure Follows (g : Permission) (edits : List Edit) (policy : Policy) : Prop where
  named : ∀ path, policy.exact.get? path = lastNamed edits path
  covering : ∀ path, policy.covering path = firstCovering edits path
  global : policy.global = lastGlobal g edits

namespace Follows

variable {g : Permission} {edits : List Edit}

theorem start (g : Permission) : Follows g [] (withGlobal g) :=
  ⟨fun _ => rfl, fun _ => rfl, rfl⟩

theorem addNamed (h : Follows g edits policy) {pattern : String} {p : Permission}
    (hpattern : '*' ∉ pattern.toList) :
    Follows g (edits ++ [.addRule pattern p]) (policy.addRule pattern p) := by
  rw [addRule_of_noStar hpattern]
  refine ⟨fun path => ?_, fun path => ?_, ?_⟩
  · rw [Table.get?_insert, lastNamed_append, h.named, Edit.named?]
    by_cases hpath : pattern = path
    · rw [if_pos hpath.symm, if_pos ⟨hpattern, hpath⟩]
      rfl
    · rw [if_neg (Ne.symm hpath), if_neg fun hboth => hpath hboth.2]
      rfl
  · rw [firstCovering_append, Edit.covering?, if_neg fun hboth => hpattern hboth.1, Option.or_none]
    exact h.covering path
  · rw [lastGlobal_append]
    exact h.global

theorem addWildcard (h : Follows g edits policy) {pattern : String} {p : Permission}
    (hpattern : '*' ∈ pattern.toList) :
    Follows g (edits ++ [.addRule pattern p]) (policy.addRule pattern p) := by
  rw [addRule_of_star hpattern]
  refine ⟨fun path => ?_, fun path => ?_, ?_⟩
  · rw [lastNamed_append, Edit.named?, if_neg fun hboth => hboth.1 hpattern]
    exact h.named path
  · rw [firstCovering_append, ← h.covering, Policy.covering, List.find?_append, Option.map_or]
    congr 1
    rw [List.find?_singleton, Edit.covering?]
    by_cases hcovers : (⟨pattern, p⟩ : TypeRule).matchesPath path = true
    · rw [if_pos hcovers, if_pos ⟨hpattern, hcovers⟩]
      rfl
    · rw [if_neg hcovers, if_neg fun hboth => hcovers hboth.2]
      rfl
  · rw [lastGlobal_append]
    exact h.global

theorem setGlobal (h : Follows g edits policy) (p : Permission) :
    Follows g (edits ++ [.setGlobal p]) (policy.setGlobal p) := by
  refine ⟨fun path => ?_, fun path => ?_, ?_⟩
  · rw [lastNamed_append]
    exact h.named path
  · rw [firstCovering_append, Edit.covering?, Option.or_none]
    exact h.covering path
  · rw [lastGlobal_append]
    rfl

theorem step (h : Follows g edits policy) (e : Edit) :
    Follows g (edits ++ [e]) (e.apply policy) := by
  cases e with
  | addRule pattern p =>
    by_cases hpattern : '*' ∈ pattern.toList
    · exact h.addWildcard hpattern
    · exact h.addNamed hpattern
  | setGlobal p => exact h.setGlobal p

/-- By induction over the edits still to come. -/
theorem edited (h : Follows g edits policy) (later : List Edit) :
    Follows g (edits ++ later) (policy.edited later) := by
  induction later generalizing edits policy with
  | nil => rwa [List.append_nil]
  | cons e later ih =>
    rw [List.append_cons]
    exact ih (h.step e)

theorem resolve_eq (h : Follows g edits policy) (t : TypeHandle) :
    policy.resolve t = decided g edits t.name := by
  rw [resolve, resolvePath_eq, h.named, h.covering, h.global, decided]

end Follows

end Policy

/-! ## Decisions -/

/-- After any edits of a policy with the permissions `g` for everything (all of them, for the
unrestricted policy) a type has the permissions that the edits decide for its path, and an operation
passes exactly if these have every flag that it needs. -/
theorem policy_decided_by_edits (g : Permission) (edits : List Policy.Edit) :
    (∀ t : TypeHandle,
      ((Policy.withGlobal g).edited edits).resolve t = Policy.decided g edits t.name) ∧
    ∀ (d : Descriptor) (operation : Operation),
      let granted := Policy.decided g edits d.member.declaringType.name
      let required := Permission.required operation d.isPrivate
      ((Policy.withGlobal g).edited edits).check d operation =
        (if granted.contains required = true then .ok ()
        else .error (d.refusal (.denied operation d.isPrivate required d.host granted))) ∧
      (((Policy.withGlobal g).edited edits).check d operation = .ok () ↔
        ∀ i, required.Has i → granted.Has i) := by
  have hfollows : Policy.Follows g edits ((Policy.withGlobal g).edited edits) :=
    (Policy.Follows.start g).edited edits
  refine ⟨hfollows.resolve_eq, fun d operation => ⟨?_, ?_⟩⟩
  · rw [Policy.check_eq, hfollows.resolve_eq]
  · rw [Policy.check_eq_ok_iff, hfollows.resolve_eq, Permission.contains_iff]

/-- Of two rules for one path the later one holds, of two patterns the earlier one, and a path comes
before a pattern whichever was added first. -/
example :
    let policy := Policy.unrestricted.edited [.addRule "app::A" .none, .addRule "app::*" .readAll,
      .addRule "app::**" .publicOnly, .addRule "app::A" .writeAll, .setGlobal .none]
    policy.resolvePath "app::A" = .writeAll ∧ policy.resolvePath "app::B" = .readAll ∧
      policy.resolvePath "app::model::C" = .publicOnly ∧ policy.resolvePath "lib::D" = .none := by
  decide

end MemberAccess
