import MemberAccess.Proofs.Call.Handover
import MemberAccess.Proofs.World.Cells

/-!
# Locks

A call holds the cell of its target locked while the member runs. A body that looks into the cell of
an argument locks that cell for the time of the look. The locks are not reentrant: whoever locks a
cell that it holds locked waits forever. The check that no value is the target is what prevents
this.

* `LockEvent`, `LockEvent.after`: locks taken and given back, and which cells are locked then.
* `Body.reads`: the cells that a body looks into; no other cell matters to it.
* `Accessor.lockEvents`: what a call does to locks.
* `target_never_relocked`: a call on an instance member locks its target once, and is refused if a
  value is the target.
* `calls_leave_no_locks`: calls one after the other never wait and leave nothing locked.
-/

namespace MemberAccess

/-! ## Events -/

/-- What a call does to the lock of a cell. -/
inductive LockEvent where
  | lock (cell : Nat)
  | unlock (cell : Nat)
  deriving DecidableEq

namespace LockEvent

/-- The cells that are locked after an event; nothing where it waits for a lock that is held. -/
def step (held : List Nat) : LockEvent → Option (List Nat)
  | lock i => if i ∈ held then none else some (i :: held)
  | unlock i => some (held.erase i)

/-- The cells that are locked after events, if none of them waits. -/
def after (held : List Nat) (events : List LockEvent) : Option (List Nat) := events.foldlM step held

def visit (i : Nat) : List LockEvent := [lock i, unlock i]

/-- Events while the cell of the receiver is locked, if there is a receiver. -/
def around (receiver : Option ObjectRef) (events : List LockEvent) : List LockEvent :=
  match receiver with
  | some o => lock o.cell :: events ++ [unlock o.cell]
  | none => events

variable {held : List Nat}

theorem after_append (held : List Nat) (events events' : List LockEvent) :
    after held (events ++ events') = (after held events).bind (after · events') :=
  List.foldlM_append

theorem after_visit {i : Nat} (h : i ∉ held) : after held (visit i) = some held := by
  simp [after, visit, step, h]

theorem after_visits {cells : List Nat} (h : ∀ i ∈ cells, i ∉ held) :
    after held (cells.flatMap visit) = some held := by
  induction cells with
  | nil => rfl
  | cons i cells ih =>
    rw [List.flatMap_cons, after_append, after_visit (h i List.mem_cons_self)]
    exact ih fun j hj => h j (List.mem_cons_of_mem i hj)

theorem after_around {receiver : Option ObjectRef} {cells : List Nat}
    (hreceiver : ∀ o ∈ receiver, o.cell ∉ held ∧ o.cell ∉ cells) (hcells : ∀ i ∈ cells, i ∉ held) :
    after held (around receiver (cells.flatMap visit)) = some held := by
  cases receiver with
  | none => exact after_visits hcells
  | some o =>
    -- while the looks are taken the receiver's cell is one of the locked ones
    obtain ⟨hfree, hother⟩ := hreceiver o rfl
    have hlocked : step held (lock o.cell) = some (o.cell :: held) := if_neg hfree
    have hvisits : after (o.cell :: held) (cells.flatMap visit) = some (o.cell :: held) := by
      refine after_visits fun i hi => ?_
      rw [List.mem_cons, not_or]
      exact ⟨fun heq => hother (heq ▸ hi), hcells i hi⟩
    have hunlocked : after (o.cell :: held) [unlock o.cell] = some held := by
      simp [after, step]
    show (step held (lock o.cell)).bind (after · (cells.flatMap visit ++ [unlock o.cell])) = _
    rw [hlocked, Option.bind_some, after_append, hvisits]
    exact hunlocked

end LockEvent

/-! ## What bodies look into -/

def Instruction.reads? (args : List Value) : Instruction → Option Nat
  | peek position _ => (argumentAt args position).object?.map (·.cell)
  | _ => none

theorem Instruction.mem_of_reads {args : List Value} {i : Instruction} {cell : Nat}
    (h : i.reads? args = some cell) : ∃ o, .object o ∈ args ∧ o.cell = cell := by
  cases i with
  | peek position slot =>
    obtain ⟨o, ho, hcell⟩ := Option.map_eq_some_iff.1 h
    have hargument : argumentAt args position = .object o := by
      cases hv : argumentAt args position <;> rw [hv] at ho <;> cases ho
      rfl
    refine ⟨o, ?_, hcell⟩
    unfold argumentAt at hargument
    cases hget : args[position]? with
    | none =>
      rw [hget] at hargument
      cases hargument
    | some v =>
      rw [hget] at hargument
      exact hargument ▸ List.mem_of_getElem? hget
  | _ => cases h

theorem Instruction.step_congr {view view' : ObjectRef → Slots} {args : List Value}
    {i : Instruction} (f : Frame) (h : ∀ o, i.reads? args = some o.cell → view' o = view o) :
    i.step view' args f = i.step view args f := by
  cases i with
  | peek position slot =>
    unfold step
    dsimp only
    split
    · rename_i o ho
      rw [h o (by simp only [reads?, ho]; rfl)]
    · rfl
  | _ => rfl

theorem Instruction.reads_of_error {view : ObjectRef → Slots} {args : List Value}
    {i : Instruction} {f : Frame} {report : String} (h : i.step view args f = .error report) :
    i.reads? args = none := by
  cases i with
  | peek position slot =>
    unfold step at h
    dsimp only at h
    split at h <;> cases h
  | _ => rfl

namespace Body

variable (view : ObjectRef → Slots) (args : List Value)

/-- The cells that the instructions look into from a frame on, up to the one that fails. -/
def readsFrom : Body → Frame → List Nat
  | [], _ => []
  | i :: rest, f =>
    match i.step view args f with
    | .error _ => []
    | .ok f' => (i.reads? args).toList ++ readsFrom rest f'

/-- The cells that a body looks into when it runs over slots. -/
def reads (body : Body) (slots : Slots) : List Nat := readsFrom view args body ⟨slots, .null⟩

theorem mem_of_mem_readsFrom {body : Body} {f : Frame} {cell : Nat}
    (h : cell ∈ readsFrom view args body f) : ∃ o, .object o ∈ args ∧ o.cell = cell := by
  induction body generalizing f with
  | nil => cases h
  | cons i rest ih =>
    unfold readsFrom at h
    split at h
    · cases h
    · rcases List.mem_append.1 h with hfirst | hrest
      · exact Instruction.mem_of_reads (Option.mem_toList.1 hfirst)
      · exact ih hrest

theorem runFrom_congr {view' : ObjectRef → Slots} {body : Body} {f : Frame}
    (h : ∀ o, o.cell ∈ readsFrom view args body f → view' o = view o) :
    runFrom view' args body f = runFrom view args body f := by
  induction body generalizing f with
  | nil => rfl
  | cons i rest ih =>
    unfold readsFrom at h
    unfold runFrom
    cases hstep : i.step view args f with
    | error report =>
      have hnone : ∀ o : ObjectRef, i.reads? args = some o.cell → view' o = view o := by
        simp [Instruction.reads_of_error hstep]
      rw [Instruction.step_congr f hnone, hstep]
    | ok f' =>
      rw [hstep] at h
      have hfirst : ∀ o, i.reads? args = some o.cell → view' o = view o :=
        fun o ho => h o (List.mem_append_left _ (Option.mem_toList.2 ho))
      rw [Instruction.step_congr f hfirst, hstep]
      exact ih fun o ho => h o (List.mem_append_right _ ho)

end Body

theorem Body.run_store {args : List Value} {o : ObjectRef}
    (h : ∀ v ∈ args, v.refersTo o = false) (w : World) (s : Slots) (body : Body) (own : Slots) :
    body.run (w.store o s).contents args own = body.run w.contents args own := by
  refine runFrom_congr _ _ fun p hp => w.contents_store_of_ne ?_ s
  obtain ⟨p', hp', hcell⟩ := mem_of_mem_readsFrom _ _ hp
  have hdistinct := h _ hp'
  rintro heq
  simp [Value.refersTo, hcell, heq] at hdistinct

/-! ## What calls lock -/

/-- The cells that the body of a method looks into; it does not run without a receiver that it
needs, nor over arguments of other types. -/
def Method.reads {result : StaticType} (f : Method result) (w : World) (own : Option Slots)
    (args : List Value) : List Nat :=
  if f.storage = .own ∧ own.isNone then []
  else match Arguments.unpack f.parameters args with
    | .error _ => []
    | .ok _ => f.body.reads w.contents args (f.base w own)

theorem Method.mem_of_mem_reads {result : StaticType} {f : Method result} {w : World}
    {own : Option Slots} {args : List Value} {cell : Nat} (h : cell ∈ f.reads w own args) :
    ∃ o, .object o ∈ args ∧ o.cell = cell := by
  unfold reads at h
  split at h
  · cases h
  · split at h
    · cases h
    · exact Body.mem_of_mem_readsFrom _ _ h

namespace Thunk

/-- The cells that the member looks into while it runs on what it is handed. -/
def reads (t : Thunk) (w : World) (p : Preparation) : List Nat :=
  match t with
  | invoke _ _ _ _ _ f => f.reads w (p.receiver.map w.contents) p.arguments
  | _ => []

theorem mem_of_mem_reads {t : Thunk} {w : World} {p : Preparation} {cell : Nat}
    (h : cell ∈ t.reads w p) : ∃ o, .object o ∈ p.arguments ∧ o.cell = cell := by
  cases t with
  | invoke => exact Method.mem_of_mem_reads h
  | _ => cases h

theorem not_mem_reads {t : Thunk} {w : World} {p : Preparation} {target : Value}
    (hdistinct : p.Distinct target) {o : ObjectRef} (ho : p.receiver = some o) :
    o.cell ∉ t.reads w p := by
  intro hread
  obtain ⟨o', hmem, hcell⟩ := mem_of_mem_reads hread
  have hfalse := (hdistinct o ho).2 _ (List.mem_append_left _ hmem)
  simp [Value.refersTo, hcell] at hfalse

/-- What a request to a compiled operation does to locks: nothing if it is refused; else the
receiver's cell is locked while the member runs. -/
def lockEvents (t : Thunk) (w : World) (q : Request) : List LockEvent :=
  match t.checks q with
  | .error _ => []
  | .ok p => LockEvent.around p.receiver ((t.reads w p).flatMap LockEvent.visit)

/-- While no cell of the target or of an argument is locked, a call never waits, and it leaves the
locks as they were. -/
theorem after_lockEvents {held : List Nat} {q : Request}
    (h : ∀ o, .object o ∈ q.target :: q.arguments → o.cell ∉ held) (t : Thunk) (w : World) :
    LockEvent.after held (t.lockEvents w q) = some held := by
  unfold lockEvents
  cases hp : t.checks q with
  | error e => rfl
  | ok p =>
    obtain ⟨hargs, hdistinct⟩ := handed_of_checks hp
    refine LockEvent.after_around (fun o ho => ⟨?_, fun hread => ?_⟩) fun cell hread => ?_
    · obtain ⟨htarget, -⟩ := hdistinct o ho
      exact h o (htarget ▸ List.mem_cons_self)
    · exact not_mem_reads hdistinct ho hread
    · obtain ⟨o, hmem, rfl⟩ := mem_of_mem_reads hread
      exact h o (List.mem_cons_of_mem _ (hargs ▸ hmem))

end Thunk

/-- What a call of an accessor does to locks. -/
def Accessor.lockEvents (a : Accessor) (w : World) (q : Request) : List LockEvent :=
  match a.operation? q with
  | some p => p.1.lockEvents w p.2
  | none => []

namespace Accessor

variable {fs : Flags} {o : Options} {role : Role} {d : Descriptor} {a : Accessor}
  {w : World} {q : Request}

theorem lockEvents_of_no_handover (h : a.handover? q = none) : a.lockEvents w q = [] := by
  unfold lockEvents
  cases hp : a.operation? q with
  | none => rfl
  | some p =>
    show p.1.lockEvents w p.2 = []
    unfold Thunk.lockEvents
    cases hchecks : p.1.checks p.2 with
    | error e => rfl
    | ok handed =>
      rw [handover_eq_some_iff.2 ⟨p.2, hp, hchecks⟩] at h
      cases h

theorem lockEvents_of_handover {t : Thunk} {handed : Preparation}
    (h : a.handover? q = some (t, handed)) (w : World) :
    a.lockEvents w q =
      LockEvent.around handed.receiver ((t.reads w handed).flatMap LockEvent.visit) := by
  obtain ⟨q', hp, hchecks⟩ := handover_eq_some_iff.1 h
  unfold lockEvents
  rw [hp]
  show t.lockEvents w q' = _
  unfold Thunk.lockEvents
  rw [hchecks]

theorem after_lockEvents (ha : build fs o role d = .ok a) {held : List Nat}
    (h : ∀ o, .object o ∈ q.target :: q.arguments → o.cell ∉ held) (w : World) :
    LockEvent.after held (a.lockEvents w q) = some held := by
  unfold lockEvents
  cases hp : a.operation? q with
  | none => rfl
  | some p =>
    refine p.1.after_lockEvents (fun o' ho' => h o' ?_) w
    rcases List.mem_cons.1 ho' with htarget | hargument
    · rw [target_of_operation hp htarget.symm]
      exact List.mem_cons_self
    · rw [(delegation_of_build ha hp).arguments] at hargument
      exact List.mem_cons_of_mem _ (Descriptor.mem_vector hargument)

end Accessor

/-! ## Targets and locks -/

/-- A call on an instance member whose member runs is put to an object, and none of the values that
the member is handed is that object: the member does not look into the locked cell, and a body would
see no difference if other contents were put there. While none of the objects of the call is locked,
it never waits, and it leaves nothing locked. If all is in order but that a value is the target, the
call is refused for the leftmost such value, before anything is locked or changed. -/
theorem target_never_relocked {d : Descriptor} (hinstance : d.isStatic = false) {fs : Flags}
    {o : Options} {role : Role} {a : Accessor} (ha : Accessor.build fs o role d = .ok a) (w : World)
    (q : Request) :
    (∀ t handed, a.handover? q = some (t, handed) →
      a.answer w q = some (t.run w handed) ∧
      ∃ target, q.target = .object target ∧
        handed = ⟨some target, d.vector q.arguments, q.assigned.map (d.stored o.castPolicy)⟩ ∧
        (∀ v ∈ handed.arguments ++ handed.assigned.toList, v.refersTo target = false) ∧
        a.lockEvents w q = .lock target.cell ::
          (t.reads w handed).flatMap LockEvent.visit ++ [.unlock target.cell] ∧
        target.cell ∉ t.reads w handed ∧
        ∀ (body : Body) own s, body.run (w.store target s).contents handed.arguments own =
          body.run w.contents handed.arguments own) ∧
    (a.handover? q = none → a.lockEvents w q = [] ∧
      ∀ x, a.answer w q = some x → ∃ e, x = (.error e, w)) ∧
    (∀ held, (∀ p, .object p ∈ q.target :: q.arguments → p.cell ∉ held) →
      LockEvent.after held (a.lockEvents w q) = some held) ∧
    (∀ p, a.operation? q = some p → d.InOrder o.castPolicy q →
      ∀ target, q.target = .object target →
        (∃ v ∈ d.vector q.arguments ++ (q.assigned.map (d.stored o.castPolicy)).toList,
          v.refersTo target = true) →
        ∃ site,
          AliasSite target (d.vector q.arguments) (q.assigned.map (d.stored o.castPolicy)) site ∧
          a.answer w q = some (.error (.aliasedTarget d.qualifiedName site), w) ∧
          a.handover? q = none) := by
  refine ⟨fun t handed h => ⟨Accessor.answer_of_handover h w, ?_⟩, fun h => ?_,
    fun held hheld => ?_, fun p hp horder target htarget haliased => ?_⟩
  · obtain ⟨target, htarget, hhanded, hdistinct⟩ := Accessor.handed_of_instance ha hinstance h
    have hreceiver : handed.receiver = some target := by rw [hhanded]
    have hfree := (hdistinct target hreceiver).2
    have hevents := Accessor.lockEvents_of_handover h w
    rw [hreceiver] at hevents
    refine ⟨target, htarget, hhanded, hfree, hevents, Thunk.not_mem_reads hdistinct hreceiver, ?_⟩
    intro body own s
    exact Body.run_store (fun v hv => hfree v (List.mem_append_left _ hv)) w s body own
  · exact ⟨Accessor.lockEvents_of_no_handover h, fun x hx => Accessor.refused_of_no_handover h hx⟩
  · exact Accessor.after_lockEvents ha hheld w
  · obtain ⟨site, hsite, hchecks⟩ :=
      Accessor.checks_of_aliased ha hinstance hp horder htarget haliased
    refine ⟨site, hsite, ?_, ?_⟩
    · rw [Accessor.answer_of_operation hp w, Thunk.answer_eq, hchecks]
    · exact Accessor.handover_of_refused hp hchecks

/-- A method that looks into its argument, which can be anything. -/
def pointMeet : Descriptor :=
  ⟨.method, (MemberSpec.ofMethod "meet" false
    (⟨[.base .any], .own, none, [.peek 0 "x"]⟩ : Method (.base .any))).member ⟨0⟩ pointClass
      .public ⟨0⟩⟩

def pairWorld : World := ⟨[⟨pointClass, .empty⟩, ⟨pointClass, .empty⟩], .empty⟩

/-- One instance meets the other, whose cell is locked in between; an instance that should meet
itself is refused. -/
theorem target_never_relocked_pointMeet : ∃ a site,
    Accessor.build .empty .standard .method pointMeet = .ok a ∧
    a.lockEvents pairWorld (.invoke (.object pointRef) [.object ⟨1, pointClass⟩]) =
      [.lock 0, .lock 1, .unlock 1, .unlock 0] ∧
    LockEvent.after []
      (a.lockEvents pairWorld (.invoke (.object pointRef) [.object ⟨1, pointClass⟩])) = some [] ∧
    AliasSite pointRef [.object pointRef] none site ∧
    a.answer pairWorld (.invoke (.object pointRef) [.object pointRef]) =
      some (.error (.aliasedTarget pointMeet.qualifiedName site), pairWorld) := by
  have ha : Accessor.build .empty .standard .method pointMeet = .ok _ := rfl
  obtain ⟨-, -, hafter, -⟩ := target_never_relocked rfl ha pairWorld
    (.invoke (.object pointRef) [.object ⟨1, pointClass⟩])
  obtain ⟨-, -, -, haliased⟩ := target_never_relocked rfl ha pairWorld
    (.invoke (.object pointRef) [.object pointRef])
  obtain ⟨site, hsite, hanswer, -⟩ := haliased _ rfl ⟨rfl, rfl, rfl, rfl⟩ pointRef rfl
    ⟨.object pointRef, List.mem_cons_self, rfl⟩
  exact ⟨_, site, ha, rfl, hafter [] (fun _ _ => List.not_mem_nil), hsite, hanswer⟩

/-! ## Calls one after the other -/

/-- What calls do to locks, each in the world that the calls before it leave. -/
def lockEventsOf : World → List (Accessor × Request) → List LockEvent
  | _, [] => []
  | w, (a, q) :: calls => a.lockEvents w q ++ lockEventsOf (a.after w q) calls

/-- Calls one after the other never wait for a lock, and in the end nothing is locked. -/
theorem calls_leave_no_locks {calls : List (Accessor × Request)}
    (hbuilt : ∀ c ∈ calls, ∃ fs o role d, Accessor.build fs o role d = .ok c.1) (w : World) :
    LockEvent.after [] (lockEventsOf w calls) = some [] := by
  induction calls generalizing w with
  | nil => rfl
  | cons c calls ih =>
    obtain ⟨fs, o, role, d, ha⟩ := hbuilt c List.mem_cons_self
    unfold lockEventsOf
    rw [LockEvent.after_append,
      Accessor.after_lockEvents ha (fun _ _ => List.not_mem_nil) w, Option.bind_some]
    exact ih (fun c' hc' => hbuilt c' (List.mem_cons_of_mem _ hc')) _

end MemberAccess
