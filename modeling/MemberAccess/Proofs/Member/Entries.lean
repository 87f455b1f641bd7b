import MemberAccess.Member.Registry

/-!
# Entries of classes

Every operation of the registry goes to the entry of one class and makes one if there is none. What
it does to the entries and the flags is the same each time: the class keeps its flag or is given a
new one, and no other class is touched.

* `Registry.known`, `Registry.flagOf`: the entry and the flag that a class has or would be given.
* `Registry.Touches`: what an operation on a class does; `Registry.touches_opened`,
  `Registry.touches_markAbstract`, `Registry.touches_add`.
* `Registry.Flagged`: every class has a flag of its own, and its members refer to that flag; kept by
  every step of a block.
-/

namespace MemberAccess

namespace ClassEntry

/-- The entries list the same members. -/
structure SameLists (e e' : ClassEntry) : Prop where
  members : e.members = e'.members
  constructors : e.constructors = e'.constructors
  named : ∀ name, e.named name = e'.named name

theorem named_list (e : ClassEntry) (m : Member) (name : String) :
    (e.list m).named name = if name = m.name then e.named m.name ++ [m.id] else e.named name := by
  unfold named list Table.upsert
  rw [Table.get?_insert]
  split <;> rfl

end ClassEntry

namespace Registry

/-- The entry that a class has, or else the one that it would be given. -/
def known (r : Registry) (host : HostClass) : ClassEntry :=
  (r.known? host).getD (.new host r.flags.next)

/-- The flag that a class has, or else the one that it would be given. -/
def flagOf (r : Registry) (host : HostClass) : FlagId := (r.known host).flag

theorem known_of_eq_some {r : Registry} {c : HostClass} {e : ClassEntry} (h : r.known? c = some e) :
    r.known c = e := by
  rw [known, h]
  rfl

theorem flagOf_of_eq_some {r : Registry} {c : HostClass} {e : ClassEntry}
    (h : r.known? c = some e) : r.flagOf c = e.flag :=
  congrArg ClassEntry.flag (known_of_eq_some h)

theorem flagOf_of_eq_none {r : Registry} {c : HostClass} (h : r.known? c = none) :
    r.flagOf c = r.flags.next := by
  rw [flagOf, known, h]
  rfl

theorem sameLists_of_known? {r r' : Registry} {c : HostClass} (h : r'.known? c = r.known? c) :
    (r'.known c).SameLists (r.known c) := by
  unfold known
  rw [h]
  cases r.known? c <;> exact ⟨rfl, rfl, fun _ => rfl⟩

/-! ## Fetching an entry -/

section enter

variable (r : Registry) (host : HostClass)

theorem enter_cases :
    (∃ e, r.known? host = some e ∧ r.enter host = (e, r)) ∨
      (r.known? host = none ∧ r.enter host = (.new host r.flags.next,
        { r with
          classes := r.classes.insert host (.new host r.flags.next)
          flags := r.flags.alloc.2 })) := by
  unfold enter known?
  cases r.classes.get? host with
  | some e => exact .inl ⟨e, rfl, rfl⟩
  | none => exact .inr ⟨rfl, rfl⟩

theorem fst_enter : (r.enter host).1 = r.known host := by
  rcases r.enter_cases host with ⟨e, hentry, heq⟩ | ⟨hentry, heq⟩
  · rw [heq, known_of_eq_some hentry]
  · rw [heq, known, hentry]
    rfl

theorem members_enter : (r.enter host).2.members = r.members := by
  rcases r.enter_cases host with ⟨e, -, heq⟩ | ⟨-, heq⟩ <;> rw [heq]

theorem names_enter : (r.enter host).2.names = r.names := by
  rcases r.enter_cases host with ⟨e, -, heq⟩ | ⟨-, heq⟩ <;> rw [heq]

theorem known?_enter (c : HostClass) :
    (r.enter host).2.known? c = if c = host then some (r.known host) else r.known? c := by
  rcases r.enter_cases host with ⟨e, hentry, heq⟩ | ⟨hentry, heq⟩
  · rw [heq, known_of_eq_some hentry]
    split
    · rename_i hc
      rw [hc, hentry]
    · rfl
  · rw [heq, known, hentry]
    exact r.classes.get?_insert host c _

theorem sameLists_enter {r' : Registry} (hentry : ∀ c, r'.known? c = (r.enter host).2.known? c)
    (c : HostClass) : (r'.known c).SameLists (r.known c) := by
  have hc := (hentry c).trans (r.known?_enter host c)
  split at hc
  · rename_i hhost
    rw [known_of_eq_some hc, hhost]
    exact ⟨rfl, rfl, fun _ => rfl⟩
  · exact sameLists_of_known? hc

theorem load_enter (f : FlagId) : (r.enter host).2.flags.load f = r.flags.load f := by
  rcases r.enter_cases host with ⟨e, -, heq⟩ | ⟨-, heq⟩
  · rw [heq]
  · rw [heq]
    exact r.flags.load_alloc f

end enter

/-! ## What an operation does -/

/-- What an operation on a class does to entries and flags. -/
structure Touches (r : Registry) (host : HostClass) (r' : Registry) : Prop where
  entry : ∃ e : ClassEntry, e.host = (r.known host).host ∧ e.flag = r.flagOf host ∧
    ∀ c, r'.known? c = if c = host then some e else r.known? c
  /-- Flags stay. -/
  has : ∀ f, r.flags.Has f → r'.flags.Has f
  allocated : r.known? host = none → r'.flags.Has r.flags.next
  members : ∀ m ∈ r'.members, m ∈ r.members ∨ (m.host = host ∧ m.flag = r.flagOf host)

theorem touches_enter (r : Registry) (host : HostClass) : r.Touches host (r.enter host).2 where
  entry := ⟨r.known host, rfl, rfl, r.known?_enter host⟩
  has f hf := by
    rcases r.enter_cases host with ⟨e, -, heq⟩ | ⟨-, heq⟩
    · rwa [heq]
    · rw [heq]
      exact hf.alloc
  allocated hnone := by
    rcases r.enter_cases host with ⟨e, hentry, -⟩ | ⟨-, heq⟩
    · cases hnone.symm.trans hentry
    · rw [heq]
      exact r.flags.has_next_alloc
  members m hm := by
    rw [members_enter] at hm
    exact .inl hm

theorem touches_opened (r : Registry) (host : HostClass) : r.Touches host (r.opened host) :=
  let h := r.touches_enter host
  ⟨h.entry, h.has, h.allocated, h.members⟩

theorem touches_markAbstract (r : Registry) (host : HostClass) :
    r.Touches host (r.markAbstract host) :=
  let h := r.touches_enter host
  ⟨h.entry, fun f hf => (h.has f hf).store _ _, fun hnone => (h.allocated hnone).store _ _,
    h.members⟩

/-! ## Registering a member -/

section add

variable (r : Registry) (host : HostClass) (v : Visibility) (s : MemberSpec)

def added : Member := s.member ⟨r.members.length⟩ host v (r.flagOf host)

theorem add_eq : r.add host v s =
    (⟨r.members.length⟩,
      { (r.enter host).2 with
        members := r.members ++ [r.added host v s]
        classes := (r.enter host).2.classes.insert host ((r.known host).list (r.added host v s)) })
    := by
  have hentry : (r.enter host).2.known? host = some (r.known host) := by
    rw [known?_enter, if_pos rfl]
  -- the class has an entry by now, so the member finds it
  have hagain : (r.enter host).2.enter host = (r.known host, (r.enter host).2) := by
    rcases (r.enter host).2.enter_cases host with ⟨e, he, heq⟩ | ⟨hnone, -⟩
    · rw [heq, ← known_of_eq_some he, known_of_eq_some hentry]
    · cases hnone.symm.trans hentry
  have hmember : s.member ⟨(r.enter host).2.members.length⟩ host v (r.enter host).1.flag =
      r.added host v s := by
    rw [members_enter, fst_enter]
    rfl
  have hadd : r.add host v s = (r.enter host).2.addMember fun id =>
      s.member id host v (r.enter host).1.flag := rfl
  rw [hadd, addMember]
  dsimp only
  rw [hmember, show (r.added host v s).host = host from rfl, hagain, members_enter]

theorem fst_add : (r.add host v s).1 = ⟨r.members.length⟩ := by
  rw [add_eq]

theorem members_add : (r.add host v s).2.members = r.members ++ [r.added host v s] := by
  rw [add_eq]

theorem names_add : (r.add host v s).2.names = r.names := by
  rw [add_eq]
  exact r.names_enter host

theorem known?_add (c : HostClass) : (r.add host v s).2.known? c =
    if c = host then some ((r.known host).list (r.added host v s)) else r.known? c := by
  have henter := r.known?_enter host c
  rw [add_eq]
  unfold known? at henter ⊢
  rw [Table.get?_insert, henter]
  split <;> rfl

theorem flags_add : (r.add host v s).2.flags = (r.enter host).2.flags := by
  rw [add_eq]

theorem touches_add : r.Touches host (r.add host v s).2 where
  entry := ⟨(r.known host).list (r.added host v s), rfl, rfl, r.known?_add host v s⟩
  has f hf := by
    rw [flags_add]
    exact (r.touches_enter host).has f hf
  allocated hnone := by
    rw [flags_add]
    exact (r.touches_enter host).allocated hnone
  members m hm := by
    rw [members_add, List.mem_append, List.mem_singleton] at hm
    refine hm.imp_right ?_
    rintro rfl
    exact ⟨rfl, rfl⟩

end add

theorem touches_step (host : HostClass) (p : Progress) (step : Registration) :
    (p.step host step).registry = p.registry ∨
      p.registry.Touches host (p.step host step).registry := by
  cases step with
  | visibility v => exact .inl rfl
  | abstractClass => exact .inr (p.registry.touches_markAbstract host)
  | _ => exact .inr (p.registry.touches_add host p.visibility _)

namespace Touches

variable {r r' : Registry} {host c : HostClass}

theorem isSome_known? (h : r.Touches host r') (hc : (r.known? c).isSome ∨ c = host) :
    (r'.known? c).isSome := by
  obtain ⟨e, -, -, hentry⟩ := h.entry
  rw [hentry]
  split
  · rfl
  · rename_i hne
    exact hc.resolve_right hne

/-- The class of the operation is given no other flag than it would have been given before. -/
theorem flagOf_eq (h : r.Touches host r') (hc : (r.known? c).isSome ∨ c = host) :
    r'.flagOf c = r.flagOf c := by
  obtain ⟨e, -, hflag, hentry⟩ := h.entry
  have hc' := hentry c
  by_cases heq : c = host
  · rw [if_pos heq] at hc'
    rw [flagOf_of_eq_some hc', hflag, heq]
  · rw [if_neg heq] at hc'
    obtain ⟨e', he'⟩ := Option.isSome_iff_exists.1 (hc.resolve_right heq)
    rw [flagOf_of_eq_some (hc'.trans he'), flagOf_of_eq_some he']

theorem trans {r'' : Registry} (h : r.Touches host r') (h' : r'.Touches host r'') :
    r.Touches host r'' := by
  have hflag : r'.flagOf host = r.flagOf host := h.flagOf_eq (.inr rfl)
  refine ⟨?_, fun f hf => h'.has f (h.has f hf), fun hnone => h'.has _ (h.allocated hnone),
    fun m hm => ?_⟩
  · obtain ⟨e, hehost, -, hentry⟩ := h.entry
    obtain ⟨e', hehost', heflag', hentry'⟩ := h'.entry
    have hknown : r'.known host = e := known_of_eq_some ((hentry host).trans (if_pos rfl))
    refine ⟨e', hehost'.trans (hknown ▸ hehost), heflag'.trans hflag, fun c => ?_⟩
    rw [hentry', hentry]
    split <;> rfl
  · rcases h'.members m hm with hold | ⟨hhost, hnew⟩
    · exact h.members m hold
    · exact .inr ⟨hhost, hnew.trans hflag⟩

end Touches

theorem touches_describe (r : Registry) (host : HostClass) (steps : List Registration) :
    r.Touches host (r.describe host steps).registry := by
  refine List.foldlRecOn (motive := fun p : Progress => r.Touches host p.registry) steps
    (Progress.step host) (r.touches_opened host) fun p hp step _ => ?_
  rcases touches_step host p step with heq | ht
  · rwa [heq]
  · exact hp.trans ht

/-! ## Flags of their own -/

/-- Every class has a flag of its own, and its members refer to that flag. -/
structure Flagged (r : Registry) : Prop where
  host : ∀ c e, r.known? c = some e → e.host = c
  has : ∀ c e, r.known? c = some e → r.flags.Has e.flag
  apart : ∀ c e c' e', r.known? c = some e → r.known? c' = some e' → e.flag = e'.flag → c = c'
  shared : ∀ m ∈ r.members, ∃ e, r.known? m.host = some e ∧ e.flag = m.flag

theorem flagged_empty : empty.Flagged where
  host _ _ h := nomatch h
  has _ _ h := nomatch h
  apart _ _ _ _ h := nomatch h
  shared _ h := nomatch h

namespace Flagged

variable {r r' : Registry} {host : HostClass}

theorem host_known (h : r.Flagged) (c : HostClass) : (r.known c).host = c := by
  unfold known
  cases hc : r.known? c with
  | none => rfl
  | some e => exact h.host c e hc

/-- A flag in use is that of one class only, and a flag that a class would be given is in no use. -/
theorem eq_of_flagOf_eq (h : r.Flagged) {c : HostClass} {e : ClassEntry} (hc : r.known? c = some e)
    (heq : r.flagOf host = e.flag) : host = c := by
  cases hhost : r.known? host with
  | some e' =>
    rw [flagOf_of_eq_some hhost] at heq
    exact h.apart host e' c e hhost hc heq
  | none =>
    rw [flagOf_of_eq_none hhost] at heq
    exact absurd (heq ▸ h.has c e hc) r.flags.not_has_next

theorem has_flagOf (h : r.Flagged) (ht : r.Touches host r') : r'.flags.Has (r.flagOf host) := by
  cases hhost : r.known? host with
  | some e =>
    rw [flagOf_of_eq_some hhost]
    exact ht.has _ (h.has host e hhost)
  | none =>
    rw [flagOf_of_eq_none hhost]
    exact ht.allocated hhost

/-- Whatever is done to a class keeps the flags of all classes apart. -/
theorem touches (h : r.Flagged) (ht : r.Touches host r') : r'.Flagged := by
  have hown := h.has_flagOf ht
  obtain ⟨e, hehost, heflag, hentry⟩ := ht.entry
  have hcases : ∀ c e', r'.known? c = some e' →
      (c = host ∧ e' = e) ∨ (c ≠ host ∧ r.known? c = some e') := by
    intro c e' hc
    rw [hentry] at hc
    split at hc
    · rename_i hhost
      exact .inl ⟨hhost, (Option.some.inj hc).symm⟩
    · rename_i hhost
      exact .inr ⟨hhost, hc⟩
  refine ⟨fun c e' hc => ?_, fun c e' hc => ?_, fun c₁ e₁ c₂ e₂ h₁ h₂ hflag => ?_, fun m hm => ?_⟩
  · rcases hcases c e' hc with ⟨rfl, rfl⟩ | ⟨-, hold⟩
    · rw [hehost, h.host_known]
    · exact h.host c e' hold
  · rcases hcases c e' hc with ⟨-, rfl⟩ | ⟨-, hold⟩
    · rwa [heflag]
    · exact ht.has _ (h.has c e' hold)
  · rcases hcases c₁ e₁ h₁ with ⟨rfl, rfl⟩ | ⟨hne₁, hold₁⟩
    · rcases hcases c₂ e₂ h₂ with ⟨rfl, -⟩ | ⟨-, hold₂⟩
      · rfl
      · exact h.eq_of_flagOf_eq hold₂ (heflag.symm.trans hflag)
    · rcases hcases c₂ e₂ h₂ with ⟨rfl, rfl⟩ | ⟨-, hold₂⟩
      · exact (h.eq_of_flagOf_eq hold₁ (heflag.symm.trans hflag.symm)).symm
      · exact h.apart c₁ e₁ c₂ e₂ hold₁ hold₂ hflag
  · by_cases hhost : m.host = host
    · refine ⟨e, (hentry _).trans (if_pos hhost), ?_⟩
      rcases ht.members m hm with hold | ⟨-, hflag⟩
      · obtain ⟨e', he', hflag⟩ := h.shared m hold
        rw [heflag, ← hhost, flagOf_of_eq_some he', hflag]
      · rw [heflag, hflag]
    · rcases ht.members m hm with hold | ⟨hnew, -⟩
      · obtain ⟨e', he', hflag⟩ := h.shared m hold
        exact ⟨e', (hentry _).trans ((if_neg hhost).trans he'), hflag⟩
      · exact absurd hnew hhost

theorem step {p : Progress} (h : p.registry.Flagged) (host : HostClass) (step : Registration) :
    (p.step host step).registry.Flagged := by
  rcases touches_step host p step with heq | ht
  · rwa [heq]
  · exact h.touches ht

end Flagged

theorem flagged_ofBlocks (blocks : List (HostClass × List Registration)) :
    (ofBlocks blocks).Flagged :=
  List.foldlRecOn (motive := Flagged) blocks _ flagged_empty
    fun r hr block _ => hr.touches (r.touches_describe block.1 block.2)

/-! ## The mark -/

/-- Also a class without an entry is not abstract for its flag. -/
theorem isAbstract_eq_load (r : Registry) (c : HostClass) :
    r.isAbstract c = r.flags.load (r.flagOf c) := by
  unfold isAbstract flagOf known
  cases r.known? c with
  | some e => rfl
  | none => exact (Flags.load_of_not_has r.flags.not_has_next).symm

theorem Touches.isAbstract_eq {r r' : Registry} {host : HostClass} (ht : r.Touches host r')
    (hload : ∀ f, r'.flags.load f = r.flags.load f) (c : HostClass) :
    r'.isAbstract c = r.isAbstract c := by
  obtain ⟨e, -, hflag, hentry⟩ := ht.entry
  have hc := hentry c
  by_cases hhost : c = host
  · rw [if_pos hhost] at hc
    rw [isAbstract_eq_load, flagOf_of_eq_some hc, hflag, hload, hhost, ← isAbstract_eq_load]
  · rw [if_neg hhost] at hc
    unfold isAbstract
    rw [hc]
    cases r.known? c with
    | none => rfl
    | some e' => exact hload e'.flag

theorem isAbstract_opened (r : Registry) (host c : HostClass) :
    (r.opened host).isAbstract c = r.isAbstract c :=
  (r.touches_opened host).isAbstract_eq (r.load_enter host) c

theorem isAbstract_add (r : Registry) (host : HostClass) (v : Visibility) (s : MemberSpec)
    (c : HostClass) : (r.add host v s).2.isAbstract c = r.isAbstract c := by
  refine (r.touches_add host v s).isAbstract_eq (fun f => ?_) c
  rw [flags_add, load_enter]

namespace Flagged

variable {r : Registry}

/-- The mark is stored in the flag of one class, which is the flag of no other. -/
theorem isAbstract_markAbstract (h : r.Flagged) (host c : HostClass) :
    (r.markAbstract host).isAbstract c = true ↔ r.isAbstract c = true ∨ host = c := by
  have hflags : (r.markAbstract host).flags = (r.enter host).2.flags.store (r.flagOf host) true :=
    congrArg ((r.enter host).2.flags.store · true) (congrArg ClassEntry.flag (r.fst_enter host))
  have hentry : (r.markAbstract host).known? c =
      if c = host then some (r.known host) else r.known? c := r.known?_enter host c
  by_cases hc : c = host
  · have hset : (r.markAbstract host).isAbstract c = true := by
      rw [if_pos hc] at hentry
      rw [isAbstract_eq_load, flagOf_of_eq_some hentry, hflags]
      exact Flags.load_store_self (h.has_flagOf (r.touches_enter host)) true
    exact iff_of_true hset (.inr hc.symm)
  · rw [if_neg hc] at hentry
    have hsame : (r.markAbstract host).isAbstract c = r.isAbstract c := by
      unfold isAbstract
      rw [hentry, hflags]
      cases he : r.known? c with
      | none => rfl
      | some e =>
        have hne : e.flag ≠ r.flagOf host := fun heq => hc (h.eq_of_flagOf_eq he heq.symm).symm
        exact (Flags.load_store_of_ne _ hne true).trans (r.load_enter host e.flag)
    rw [hsame, or_iff_left (Ne.symm hc)]

theorem isAbstract_step {p : Progress} (h : p.registry.Flagged) (host : HostClass)
    (step : Registration) (c : HostClass) :
    (p.step host step).registry.isAbstract c = true ↔
      p.registry.isAbstract c = true ∨ (step = .abstractClass ∧ host = c) := by
  cases step with
  | abstractClass =>
    rw [and_iff_right rfl]
    exact h.isAbstract_markAbstract host c
  | visibility v =>
    rw [or_iff_left fun h => Registration.noConfusion h.1]
    rfl
  | _ =>
    rw [or_iff_left fun h => Registration.noConfusion h.1, ← isAbstract_add p.registry host]
    rfl

theorem host_eq (h : r.Flagged) {m m' : Member} (hm : m ∈ r.members) (hm' : m' ∈ r.members)
    (hflag : m.flag = m'.flag) : m.host = m'.host := by
  obtain ⟨e, he, heq⟩ := h.shared m hm
  obtain ⟨e', he', heq'⟩ := h.shared m' hm'
  exact h.apart m.host e m'.host e' he he' (heq.trans (hflag.trans heq'.symm))

/-- Through its own reference a member sees whether its class is abstract. -/
theorem load_member (h : r.Flagged) {m : Member} (hm : m ∈ r.members) :
    r.flags.load m.flag = r.isAbstract m.host := by
  obtain ⟨e, he, hflag⟩ := h.shared m hm
  rw [isAbstract_eq_load, flagOf_of_eq_some he, hflag]

end Flagged

end Registry

end MemberAccess
