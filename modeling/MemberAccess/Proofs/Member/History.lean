import Mathlib.Data.List.Induction
import Mathlib.Data.List.Nodup
import MemberAccess.Proofs.Member.Described

/-!
# Registration histories

A registry is written to by blocks of steps, of which only some register a member. What the blocks
declare is a log, and the registry is that log with numbers: its tables of a class list the log's
members of the class, and every lookup is a search of the log from its beginning.

* `Declaration`, `declarations`: the log of a history, each member with the visibility in force.
* `Registry.Indexed`: the tables of every class agree with the members that are registered; kept by
  every step, so it holds after every history.
* `Registry.Reflects`: a registry and a log agree; `registry_reflects_history`.
-/

namespace MemberAccess

/-! ## Logs -/

def Registration.visibility? : Registration → Option Visibility
  | visibility v => some v
  | _ => none

/-- The visibility in force after the steps of a block: the last that they set, else public. -/
def visibilityAfter (steps : List Registration) : Visibility :=
  (steps.filterMap Registration.visibility?).getLast?.getD .public

/-- A member as a block declares it. -/
structure Declaration where
  host : HostClass
  visibility : Visibility
  spec : MemberSpec

namespace Declaration

/-- The member that the declaration becomes under a number, with the flag of its class. -/
def member (flag : HostClass → FlagId) (x : Declaration) (i : Nat) : Member :=
  x.spec.member ⟨i⟩ x.host x.visibility (flag x.host)

/-- The members that declarations become, under consecutive numbers. -/
def numbered (flag : HostClass → FlagId) (start : Nat) (log : List Declaration) : List Member :=
  (log.zipIdx start).map fun x => x.1.member flag x.2

variable (flag : HostClass → FlagId)

theorem numbered_append (start : Nat) (log log' : List Declaration) :
    numbered flag start (log ++ log') =
      numbered flag start log ++ numbered flag (start + log.length) log' := by
  unfold numbered
  rw [List.zipIdx_append, List.map_append]

@[simp] theorem length_numbered (start : Nat) (log : List Declaration) :
    (numbered flag start log).length = log.length := by
  simp [numbered]

theorem getElem?_numbered (log : List Declaration) (i : Nat) :
    (numbered flag 0 log)[i]? = log[i]?.map fun x => x.member flag i := by
  simp [numbered, List.getElem?_zipIdx, Option.map_map, Function.comp_def]

theorem ids_numbered (start : Nat) (log : List Declaration) :
    (numbered flag start log).map Member.id = (List.range' start log.length).map MemberId.mk := by
  rw [← List.zipIdx_map_snd start log, numbered, List.map_map, List.map_map]
  rfl

variable {flag} in
theorem numbered_congr {flag' : HostClass → FlagId} {log : List Declaration}
    (h : ∀ x ∈ log, flag x.host = flag' x.host) (start : Nat) :
    numbered flag start log = numbered flag' start log := by
  unfold numbered
  refine List.map_congr_left fun x hx => ?_
  rw [member, member, h x.1 (List.fst_mem_of_mem_zipIdx hx)]

end Declaration

/-- What steps declare that stand in a block of the class after the steps `before`. -/
def declaredAfter (host : HostClass) (before : List Registration) :
    List Registration → List Declaration
  | [] => []
  | step :: rest =>
    ((step.spec? host).map fun s => ⟨host, visibilityAfter before, s⟩).toList ++
      declaredAfter host (before ++ [step]) rest

def declarations (blocks : List (HostClass × List Registration)) : List Declaration :=
  blocks.flatMap fun block => declaredAfter block.1 [] block.2

theorem declaredAfter_append (host : HostClass) (before steps steps' : List Registration) :
    declaredAfter host before (steps ++ steps') =
      declaredAfter host before steps ++ declaredAfter host (before ++ steps) steps' := by
  induction steps generalizing before with
  | nil => simp [declaredAfter]
  | cons step rest ih => simp [declaredAfter, ih]

theorem host_of_mem_declaredAfter {host : HostClass} {before steps : List Registration}
    {x : Declaration} (hx : x ∈ declaredAfter host before steps) : x.host = host := by
  induction steps generalizing before with
  | nil => cases hx
  | cons step rest ih =>
    rw [declaredAfter, List.mem_append, Option.mem_toList, Option.map_eq_some_iff] at hx
    rcases hx with ⟨s, -, rfl⟩ | hx
    · rfl
    · exact ih hx

theorem mem_declarations {blocks : List (HostClass × List Registration)} {x : Declaration}
    (hx : x ∈ declarations blocks) : ∃ block ∈ blocks, x.host = block.1 := by
  obtain ⟨block, hblock, hx⟩ := List.mem_flatMap.1 hx
  exact ⟨block, hblock, host_of_mem_declaredAfter hx⟩

theorem declarations_concat (before : List (HostClass × List Registration))
    (block : HostClass × List Registration) :
    declarations (before ++ [block]) =
      declarations before ++ declaredAfter block.1 [] block.2 := by
  simp [declarations]

theorem visibilityAfter_concat (before : List Registration) (step : Registration) :
    visibilityAfter (before ++ [step]) = step.visibility?.getD (visibilityAfter before) := by
  unfold visibilityAfter
  cases hv : step.visibility? with
  | none => simp [hv]
  | some v => simp [hv]

namespace Registry

/-! ## The members -/

theorem visibility_step (host : HostClass) (p : Progress) (step : Registration) :
    (p.step host step).visibility = step.visibility?.getD p.visibility := by
  cases step <;> rfl

theorem flagOf_step (host : HostClass) (p : Progress) (step : Registration) :
    (p.step host step).registry.flagOf host = p.registry.flagOf host := by
  rcases touches_step host p step with heq | ht
  · rw [heq]
  · exact ht.flagOf_eq (.inr rfl)

theorem members_steps (host : HostClass) (steps before : List Registration) (p : Progress)
    (hp : p.visibility = visibilityAfter before) :
    (steps.foldl (Progress.step host) p).registry.members =
      p.registry.members ++ Declaration.numbered p.registry.flagOf p.registry.members.length
        (declaredAfter host before steps) := by
  induction steps generalizing before p with
  | nil => simp [declaredAfter, Declaration.numbered]
  | cons step rest ih =>
    have hvisibility : (p.step host step).visibility = visibilityAfter (before ++ [step]) := by
      rw [visibility_step, visibilityAfter_concat, hp]
    have hstep := members_step host p step
    have hflag : ∀ x ∈ declaredAfter host (before ++ [step]) rest,
        (p.step host step).registry.flagOf x.host = p.registry.flagOf x.host := by
      intro x hx
      rw [host_of_mem_declaredAfter hx, flagOf_step]
    rw [List.foldl_cons, ih _ _ hvisibility, Declaration.numbered_congr hflag, hstep, declaredAfter,
      Declaration.numbered_append, hp]
    cases step.spec? host with
    | none => simp [Declaration.numbered]
    | some s => simp [Declaration.numbered, Declaration.member, added]

theorem members_describe (r : Registry) (host : HostClass) (steps : List Registration) :
    (r.describe host steps).registry.members =
      r.members ++ Declaration.numbered r.flagOf r.members.length
        (declaredAfter host [] steps) := by
  have hflag : ∀ x ∈ declaredAfter host [] steps, (r.opened host).flagOf x.host = r.flagOf x.host :=
    fun x hx => (r.touches_opened host).flagOf_eq (.inr (host_of_mem_declaredAfter hx))
  have hmembers : (r.opened host).members = r.members := r.members_enter host
  have hsteps := members_steps host steps [] ⟨r.opened host, .public, none⟩ rfl
  dsimp only at hsteps
  rwa [Declaration.numbered_congr hflag, hmembers] at hsteps

theorem ofBlocks_concat (before : List (HostClass × List Registration))
    (block : HostClass × List Registration) :
    ofBlocks (before ++ [block]) = ((ofBlocks before).describe block.1 block.2).registry := by
  unfold ofBlocks
  rw [List.foldl_append]
  rfl

theorem isSome_known?_ofBlocks {blocks : List (HostClass × List Registration)}
    {block : HostClass × List Registration} (h : block ∈ blocks) :
    (Registry.known? (ofBlocks blocks) block.1).isSome := by
  induction blocks using List.reverseRecOn with
  | nil => cases h
  | append_singleton before last ih =>
    rw [ofBlocks_concat]
    refine (touches_describe _ last.1 last.2).isSome_known? ?_
    rcases List.mem_append.1 h with h | h
    · exact .inl (ih h)
    · exact .inr (congrArg Prod.fst (List.mem_singleton.1 h))

/-- The members of a registry are its history's declarations, numbered from zero. The last block
gives no class another flag. -/
theorem members_ofBlocks (blocks : List (HostClass × List Registration)) :
    (ofBlocks blocks).members =
      Declaration.numbered (ofBlocks blocks).flagOf 0 (declarations blocks) := by
  induction blocks using List.reverseRecOn with
  | nil => rfl
  | append_singleton before last ih =>
    have hold : ∀ x ∈ declarations before,
        (ofBlocks (before ++ [last])).flagOf x.host = (ofBlocks before).flagOf x.host := by
      intro x hx
      obtain ⟨block, hblock, hhost⟩ := mem_declarations hx
      rw [ofBlocks_concat, hhost]
      exact (touches_describe _ last.1 last.2).flagOf_eq (.inl (isSome_known?_ofBlocks hblock))
    have hnew : ∀ x ∈ declaredAfter last.1 [] last.2,
        (ofBlocks (before ++ [last])).flagOf x.host = (ofBlocks before).flagOf x.host := by
      intro x hx
      rw [ofBlocks_concat]
      exact (touches_describe _ last.1 last.2).flagOf_eq (.inr (host_of_mem_declaredAfter hx))
    rw [declarations_concat, Declaration.numbered_append, Declaration.numbered_congr hold,
      Declaration.numbered_congr hnew, ofBlocks_concat, members_describe, ih,
      Declaration.length_numbered, Nat.zero_add]

theorem size_ofBlocks (blocks : List (HostClass × List Registration)) :
    (ofBlocks blocks).size = (declarations blocks).length := by
  rw [size, members_ofBlocks, Declaration.length_numbered]

/-! ## The tables of a class -/

/-- The numbers of the members that pass a test, in order of registration. -/
def idsWhere (r : Registry) (p : Member → Bool) : List MemberId :=
  (r.members.filter p).map Member.id

/-- The tables of every class list the registered members that belong there. -/
structure Indexed (r : Registry) : Prop where
  members : ∀ host, (r.known host).members = r.idsWhere (·.host == host)
  constructors : ∀ host, (r.known host).constructors =
    r.idsWhere fun m => m.host == host && m.kind == .constructor
  named : ∀ host name, (r.known host).named name =
    r.idsWhere fun m => m.host == host && m.name == name

theorem indexed_empty : empty.Indexed where
  members _ := rfl
  constructors _ := rfl
  named _ _ := rfl

theorem Indexed.of_sameLists {r r' : Registry} (h : r.Indexed) (hmembers : r'.members = r.members)
    (hlists : ∀ host, (r'.known host).SameLists (r.known host)) : r'.Indexed where
  members host := by
    rw [(hlists host).members, h.members, idsWhere, idsWhere, hmembers]
  constructors host := by
    rw [(hlists host).constructors, h.constructors, idsWhere, idsWhere, hmembers]
  named host name := by
    rw [(hlists host).named, h.named, idsWhere, idsWhere, hmembers]

theorem Indexed.opened {r : Registry} (h : r.Indexed) (host : HostClass) :
    (r.opened host).Indexed :=
  h.of_sameLists (r.members_enter host) (r.sameLists_enter host fun _ => rfl)

theorem Indexed.markAbstract {r : Registry} (h : r.Indexed) (host : HostClass) :
    (r.markAbstract host).Indexed :=
  h.of_sameLists (r.members_enter host) (r.sameLists_enter host fun _ => rfl)

theorem idsWhere_append (r r' : Registry) (m : Member) (h : r'.members = r.members ++ [m])
    (p : Member → Bool) :
    r'.idsWhere p = if p m = true then r.idsWhere p ++ [m.id] else r.idsWhere p := by
  unfold idsWhere
  rw [h, List.filter_append, List.map_append]
  split
  · rename_i hp
    simp [hp]
  · rename_i hp
    simp [hp]

theorem Indexed.add {r : Registry} (h : r.Indexed) (host : HostClass) (v : Visibility)
    (s : MemberSpec) : (r.add host v s).2.Indexed := by
  have hids := r.idsWhere_append _ _ (r.members_add host v s)
  have hown : (r.add host v s).2.known host = (r.known host).list (r.added host v s) :=
    known_of_eq_some ((r.known?_add host v s host).trans (if_pos rfl))
  have hother : ∀ host', host' ≠ host →
      ((r.add host v s).2.known host').SameLists (r.known host') := fun host' hhost =>
    sameLists_of_known? ((r.known?_add host v s host').trans (if_neg hhost))
  refine ⟨fun host' => ?_, fun host' => ?_, fun host' name => ?_⟩
  · rw [hids]
    by_cases hhost : host' = host
    · rw [hhost, hown]
      simp [ClassEntry.list, added, MemberSpec.member, h.members host]
    · rw [(hother host' hhost).members]
      simp [added, MemberSpec.member, Ne.symm hhost, h.members host']
  · rw [hids]
    by_cases hhost : host' = host
    · rw [hhost, hown]
      by_cases hkind : s.kind = .constructor
      · simp [ClassEntry.list, added, MemberSpec.member, hkind, h.constructors host]
      · simp [ClassEntry.list, added, MemberSpec.member, hkind, h.constructors host]
    · rw [(hother host' hhost).constructors]
      simp [added, MemberSpec.member, Ne.symm hhost, h.constructors host']
  · rw [hids]
    by_cases hhost : host' = host
    · rw [hhost, hown, ClassEntry.named_list, h.named host (r.added host v s).name,
        h.named host name]
      by_cases hname : name = s.name
      · simp [added, MemberSpec.member, hname]
      · simp [added, MemberSpec.member, hname, Ne.symm hname]
    · rw [(hother host' hhost).named]
      simp [added, MemberSpec.member, Ne.symm hhost, h.named host' name]

theorem Indexed.step {host : HostClass} {p : Progress} (h : p.registry.Indexed)
    (step : Registration) : (p.step host step).registry.Indexed := by
  cases step with
  | visibility v => exact h
  | abstractClass => exact h.markAbstract host
  | _ => exact h.add host p.visibility _

theorem Indexed.describe {r : Registry} (h : r.Indexed) (host : HostClass)
    (steps : List Registration) : (r.describe host steps).registry.Indexed :=
  List.foldlRecOn (motive := fun p : Progress => p.registry.Indexed) steps (Progress.step host)
    (h.opened host) fun _ hp step _ => hp.step step

theorem indexed_ofBlocks (blocks : List (HostClass × List Registration)) :
    (ofBlocks blocks).Indexed :=
  List.foldlRecOn (motive := Indexed) blocks _ indexed_empty
    fun _ hr block _ => hr.describe block.1 block.2

/-! ## Lookups -/

/-- Every member is registered under its own number. -/
def Numbered (r : Registry) : Prop := ∀ m ∈ r.members, r.member? m.id = some m

theorem numbered_ofBlocks (blocks : List (HostClass × List Registration)) :
    (ofBlocks blocks).Numbered := by
  intro m hm
  obtain ⟨i, hi⟩ := List.getElem?_of_mem hm
  have hid : m.id = ⟨i⟩ := by
    rw [members_ofBlocks, Declaration.getElem?_numbered] at hi
    obtain ⟨x, -, rfl⟩ := Option.map_eq_some_iff.1 hi
    rfl
  rw [member?, hid, hi]

theorem Numbered.filterMap_idsWhere {r : Registry} (h : r.Numbered) (p : Member → Bool) :
    (r.idsWhere p).filterMap r.member? = r.members.filter p := by
  have hall : ∀ ms : List Member, (∀ m ∈ ms, m ∈ r.members) →
      (ms.map Member.id).filterMap r.member? = ms := by
    intro ms
    induction ms with
    | nil => intro _; rfl
    | cons m rest ih =>
      intro hms
      have hm := h m (hms m List.mem_cons_self)
      have hrest := ih fun m' hm' => hms m' (List.mem_cons_of_mem _ hm')
      rw [List.map_cons, List.filterMap_cons, hm]
      exact congrArg (m :: ·) hrest
  exact hall _ fun m hm => (List.mem_filter.1 hm).1

section lookups

variable {r : Registry} (hindexed : r.Indexed) (hnumbered : r.Numbered)

include hindexed hnumbered

theorem membersOf_eq (host : HostClass) :
    r.membersOf host = r.members.filter (·.host == host) := by
  have hlist : r.membersOf host = (r.known host).members.filterMap r.member? := by
    unfold membersOf known
    cases r.known? host <;> rfl
  rw [hlist, hindexed.members, hnumbered.filterMap_idsWhere]

theorem named_eq (host : HostClass) (name : String) :
    r.named host name = r.members.filter fun m => m.host == host && m.name == name := by
  have hlist : r.named host name = ((r.known host).named name).filterMap r.member? := by
    unfold named known
    cases r.known? host <;> rfl
  rw [hlist, hindexed.named, hnumbered.filterMap_idsWhere]

theorem constructorsOf_eq (host : HostClass) :
    r.constructorsOf host =
      r.members.filter fun m => m.host == host && m.kind == .constructor := by
  have hlist : r.constructorsOf host = (r.known host).constructors.filterMap r.member? := by
    unfold constructorsOf known
    cases r.known? host <;> rfl
  rw [hlist, hindexed.constructors, hnumbered.filterMap_idsWhere]

theorem resolve?_eq (host : HostClass) (name : String) :
    r.resolve? host name = r.members.find? fun m => m.host == host && m.name == name := by
  rw [resolve?, named_eq hindexed hnumbered, List.head?_filter]

theorem find?_eq (host : HostClass) (name : String) (kind : MemberKind) :
    r.find? host name kind =
      r.members.find? fun m => m.host == host && m.name == name && m.kind == kind := by
  rw [Registry.find?, named_eq hindexed hnumbered, List.find?_filter]
  simp only [Bool.decide_and, Bool.decide_eq_true]

theorem findTaking?_eq (host : HostClass) (name : String) (kind : MemberKind)
    (arity : Option Nat) :
    r.findTaking? host name kind arity = r.members.find? fun m =>
      m.host == host && m.name == name && (m.kind == kind && takes arity m) := by
  rw [findTaking?, named_eq hindexed hnumbered, List.find?_filter]
  simp only [Bool.decide_and, Bool.decide_eq_true]

theorem findConstructor?_eq (host : HostClass) (arity : Nat) :
    r.findConstructor? host arity = r.members.find? fun m =>
      m.host == host && m.kind == .constructor && m.arity == arity := by
  rw [findConstructor?, constructorsOf_eq hindexed hnumbered, List.find?_filter]
  simp only [Bool.decide_and, Bool.decide_eq_true]

end lookups

/-! ## Listed once -/

theorem nodup_ids_ofBlocks (blocks : List (HostClass × List Registration)) :
    ((ofBlocks blocks).members.map Member.id).Nodup := by
  rw [members_ofBlocks, Declaration.ids_numbered]
  have hrange : (List.range' 0 (declarations blocks).length).Nodup := List.nodup_range'
  exact hrange.map fun _ _ h => MemberId.mk.inj h

theorem count_listed {r : Registry} (hindexed : r.Indexed) (hnumbered : r.Numbered)
    (hids : (r.members.map Member.id).Nodup) {m : Member} (hm : m ∈ r.members)
    (host : HostClass) :
    (r.known host).members.count m.id = if m.host = host then 1 else 0 := by
  rw [hindexed.members]
  have hnodup : (r.idsWhere (·.host == host)).Nodup :=
    hids.sublist (List.filter_sublist.map Member.id)
  have hmem : m.id ∈ r.idsWhere (·.host == host) ↔ m.host = host := by
    constructor
    · intro h
      obtain ⟨m', hm', hid⟩ := List.mem_map.1 h
      obtain ⟨hm', hhost⟩ := List.mem_filter.1 hm'
      have hsame := hnumbered m' hm'
      rw [hid, hnumbered m hm] at hsame
      rw [Option.some.inj hsame]
      exact beq_iff_eq.1 hhost
    · intro hhost
      exact List.mem_map.2 ⟨m, List.mem_filter.2 ⟨hm, beq_iff_eq.2 hhost⟩, rfl⟩
  by_cases hhost : m.host = host
  · rw [if_pos hhost]
    exact List.nodup_iff_count_eq_one.1 hnodup m.id (hmem.2 hhost)
  · rw [if_neg hhost]
    exact List.count_eq_zero.2 fun h => hhost (hmem.1 h)

/-! ## Registration numbers -/

theorem last_step {host : HostClass} {step : Registration} {s : MemberSpec}
    (hs : step.spec? host = some s) (p : Progress) :
    (p.step host step).last = some ⟨p.registry.size⟩ := by
  cases step with
  | visibility | abstractClass => cases hs
  | _ => exact congrArg some (p.registry.fst_add host p.visibility _)

theorem describe_concat (r : Registry) (host : HostClass) (steps : List Registration)
    (step : Registration) :
    r.describe host (steps ++ [step]) = (r.describe host steps).step host step := by
  unfold describe
  rw [List.foldl_append]
  rfl

theorem declarations_split {host : HostClass} {step : Registration} {s : MemberSpec}
    (hs : step.spec? host = some s) (before after : List (HostClass × List Registration))
    (pre post : List Registration) :
    ∃ rest, declarations (before ++ (host, pre ++ step :: post) :: after) =
      declarations (before ++ [(host, pre)]) ++ ⟨host, visibilityAfter pre, s⟩ :: rest := by
  have hblock : declaredAfter host [] (pre ++ step :: post) =
      declaredAfter host [] pre ++ ⟨host, visibilityAfter pre, s⟩ ::
        declaredAfter host (pre ++ [step]) post := by
    rw [declaredAfter_append]
    simp [declaredAfter, hs]
  refine ⟨declaredAfter host (pre ++ [step]) post ++ declarations after, ?_⟩
  unfold declarations
  rw [List.flatMap_append, List.flatMap_append, List.flatMap_cons, hblock]
  simp

theorem last_describe {host : HostClass} {step : Registration} {s : MemberSpec}
    (hs : step.spec? host = some s) (before : List (HostClass × List Registration))
    (pre : List Registration) :
    ((ofBlocks before).describe host (pre ++ [step])).last =
      some ⟨(declarations (before ++ [(host, pre)])).length⟩ := by
  rw [describe_concat, last_step hs, ← size_ofBlocks, ofBlocks_concat]

/-- A class has the same flag whatever is described after its block. -/
theorem flagOf_ofBlocks (before after : List (HostClass × List Registration)) (host : HostClass)
    (steps : List Registration) :
    (ofBlocks (before ++ (host, steps) :: after)).flagOf host = (ofBlocks before).flagOf host := by
  induction after using List.reverseRecOn with
  | nil =>
    rw [ofBlocks_concat]
    exact (touches_describe _ host steps).flagOf_eq (.inr rfl)
  | append_singleton after last ih =>
    have hentry : (Registry.known? (ofBlocks (before ++ (host, steps) :: after)) host).isSome :=
      isSome_known?_ofBlocks (List.mem_append_right before List.mem_cons_self)
    rw [← ih, ← List.cons_append, ← List.append_assoc, ofBlocks_concat]
    exact (touches_describe _ last.1 last.2).flagOf_eq (.inl hentry)

theorem member?_of_step {host : HostClass} {step : Registration} {s : MemberSpec}
    (hs : step.spec? host = some s) (before after : List (HostClass × List Registration))
    (pre post : List Registration) :
    let id : MemberId := ⟨(declarations (before ++ [(host, pre)])).length⟩
    (ofBlocks (before ++ (host, pre ++ step :: post) :: after)).member? id =
      some (s.member id host (visibilityAfter pre) ((ofBlocks before).flagOf host)) := by
  intro id
  obtain ⟨rest, hrest⟩ := declarations_split hs before after pre post
  have hlog : (declarations (before ++ (host, pre ++ step :: post) :: after))[id.index]? =
      some ⟨host, visibilityAfter pre, s⟩ := by
    rw [hrest]
    simp [id]
  rw [member?, members_ofBlocks, Declaration.getElem?_numbered, hlog,
    ← flagOf_ofBlocks before after host (pre ++ step :: post)]
  rfl

/-! ## The registry and the log -/

/-- A registry is a log with numbers: its tables list the log's members where they belong, and its
lookups search the log from its beginning. -/
structure Reflects (r : Registry) (log : List Declaration) : Prop where
  /-- Each member has the flag of its class. -/
  members : r.members = Declaration.numbered r.flagOf 0 log
  /-- The members of a class, in order of registration. -/
  listed : ∀ host, (r.known host).members = r.idsWhere (·.host == host)
  /-- Every member is in the list of its class once, and in no other. -/
  once : ∀ m ∈ r.members, ∀ host,
    (r.known host).members.count m.id = if m.host = host then 1 else 0
  named : ∀ host name, (r.known host).named name =
    r.idsWhere fun m => m.host == host && m.name == name
  constructors : ∀ host, (r.known host).constructors =
    r.idsWhere fun m => m.host == host && m.kind == .constructor
  membersOf : ∀ host, r.membersOf host = r.members.filter (·.host == host)
  resolve : ∀ host name,
    r.resolve? host name = r.members.find? fun m => m.host == host && m.name == name
  find : ∀ host name kind, r.find? host name kind =
    r.members.find? fun m => m.host == host && m.name == name && m.kind == kind
  findField : ∀ host name, r.findField? host name =
    r.members.find? fun m => m.host == host && m.name == name && m.kind == .field
  findProperty : ∀ host name, r.findProperty? host name =
    r.members.find? fun m => m.host == host && m.name == name && m.kind == .property
  findIndexer : ∀ host name arity, r.findIndexer? host name arity =
    r.members.find? fun m =>
      m.host == host && m.name == name && (m.kind == .indexer && takes arity m)
  findMethod : ∀ host name arity, r.findMethod? host name arity =
    r.members.find? fun m =>
      m.host == host && m.name == name && (m.kind == .method && takes arity m)
  findConstructor : ∀ host arity, r.findConstructor? host arity =
    r.members.find? fun m => m.host == host && m.kind == .constructor && m.arity == arity

theorem reflects_ofBlocks (blocks : List (HostClass × List Registration)) :
    (ofBlocks blocks).Reflects (declarations blocks) := by
  have hindexed := indexed_ofBlocks blocks
  have hnumbered := numbered_ofBlocks blocks
  exact {
    members := members_ofBlocks blocks
    listed := hindexed.members
    once := fun _ hm => count_listed hindexed hnumbered (nodup_ids_ofBlocks blocks) hm
    named := hindexed.named
    constructors := hindexed.constructors
    membersOf := membersOf_eq hindexed hnumbered
    resolve := resolve?_eq hindexed hnumbered
    find := find?_eq hindexed hnumbered
    findField := fun host name => find?_eq hindexed hnumbered host name .field
    findProperty := fun host name => find?_eq hindexed hnumbered host name .property
    findIndexer := fun host name => findTaking?_eq hindexed hnumbered host name .indexer
    findMethod := fun host name => findTaking?_eq hindexed hnumbered host name .method
    findConstructor := findConstructor?_eq hindexed hnumbered }

end Registry

/-- After any history the registry is the log of the history with numbers. A step that registers a
member hands out the next number, and the member stays under it whatever the history goes on with,
with the visibility that its block set last before the step. -/
theorem registry_reflects_history :
    (∀ blocks, (Registry.ofBlocks blocks).Reflects (declarations blocks)) ∧
      ∀ (before : List (HostClass × List Registration)) (host : HostClass)
        (pre : List Registration) (step : Registration) (s : MemberSpec),
        step.spec? host = some s →
        let id : MemberId := ⟨(declarations (before ++ [(host, pre)])).length⟩
        ((Registry.ofBlocks before).describe host (pre ++ [step])).last = some id ∧
          ∀ (post : List Registration) (after : List (HostClass × List Registration)),
            (Registry.ofBlocks (before ++ (host, pre ++ step :: post) :: after)).member? id =
              some (s.member id host (visibilityAfter pre)
                ((Registry.ofBlocks before).flagOf host)) :=
  ⟨Registry.reflects_ofBlocks, fun before _ pre _ _ hs =>
    ⟨Registry.last_describe hs before pre, fun post after =>
      Registry.member?_of_step hs before after pre post⟩⟩

/-- A class that is described a second time, with a private field: the field is the class's member
number one, also once the class is abstract. -/
theorem registry_reflects_history_pointY :
    let y : Registration := .field "y" (.base .int32) "y"
    let spec : MemberSpec :=
      .ofAttribute "y" .field [] false (⟨.slot .own "y", true, true⟩ : Attribute (.base .int32))
    let again : HostClass × List Registration :=
      (pointClass, [.visibility .private, y, .abstractClass])
    (Registry.ofBlocks (pointBlocks ++ [again])).Reflects (declarations (pointBlocks ++ [again])) ∧
      ((Registry.ofBlocks pointBlocks).describe pointClass [.visibility .private, y]).last =
        some ⟨1⟩ ∧
      (Registry.ofBlocks (pointBlocks ++ [again])).member? ⟨1⟩ =
        some (spec.member ⟨1⟩ pointClass .private ⟨0⟩) := by
  intro y spec again
  obtain ⟨hlast, hmember⟩ := registry_reflects_history.2 pointBlocks pointClass
    [.visibility .private] y spec rfl
  exact ⟨registry_reflects_history.1 _, hlast, hmember [.abstractClass] []⟩

end MemberAccess
