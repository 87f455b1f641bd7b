import Mathlib.Logic.Relation
import MemberAccess.Proofs.Call.Confinement

/-!
# Sessions under a policy

A session registers members, plans operations on them, compiles the plans, builds accessors and
calls what it has made, all under one policy and in any order. A plan may be compiled for another
member than the one it was made for.

* `Session`, `Session.Step`: what a session has made, and its steps.
* `Session.Step.spares`, `Session.Step.cell_eq`: one step, under a policy that confines a class.
* `confined_instances_stay`: whole sessions.
-/

namespace MemberAccess

/-- What there is at a point of a session. -/
structure Session where
  registry : Registry
  world : World
  /-- The plans that have been made. -/
  plans : List Plan
  /-- What has been compiled or built. -/
  made : List Callable

namespace Session

/-- A session in which nothing has been made. -/
def start (r : Registry) (w : World) : Session := ⟨r, w, [], []⟩

/-- The steps of a session under a policy. What fails to be planned, compiled or built leaves
nothing behind and is no step; a call is one in any case. Descriptors may be older than the
registry. -/
inductive Step (policy : Policy) : Session → Session → Prop where
  /-- A block of registrations begins. -/
  | opening (s : Session) (host : HostClass) :
      Step policy s { s with registry := s.registry.opened host }
  /-- A registration in a block, under the visibility that is in force there. -/
  | registration (s : Session) (host : HostClass) (v : Visibility) (step : Registration) :
      Step policy s
        { s with registry := (Registry.Progress.step host ⟨s.registry, v, none⟩ step).registry }
  | planning (s : Session) (d : Descriptor) (surface : Surface) (cast : CastPolicy)
      (operation : Operation) (p : Plan) (hp : d.plan surface cast operation = .ok p) :
      Step policy s { s with plans := p :: s.plans }
  /-- The compilation of a plan that was made for any member. -/
  | compilation (s : Session) (d : Descriptor) (p : Plan) (hp : p ∈ s.plans) (t : Thunk)
      (ht : compile s.registry.flags policy d p = .ok t) :
      Step policy s { s with made := .thunk t :: s.made }
  | typedCompilation (s : Session) (d : Descriptor) (p : Plan) (hp : p ∈ s.plans)
      (shape : TypedShape) (host : HostClass) (type : StaticType) (t : TypedThunk)
      (ht : TypedThunk.compile s.registry.flags policy d p shape host type = .ok t) :
      Step policy s { s with made := .typedThunk t :: s.made }
  | building (s : Session) (d : Descriptor) (cast : CastPolicy) (role : Role) (a : Accessor)
      (ha : Accessor.build s.registry.flags ⟨policy, cast⟩ role d = .ok a) :
      Step policy s { s with made := .accessor a :: s.made }
  | typedBuilding (s : Session) (d : Descriptor) (cast : CastPolicy) (role : Role)
      (host : HostClass) (type : StaticType) (a : TypedAccessor)
      (ha : TypedAccessor.build s.registry.flags ⟨policy, cast⟩ role host type d = .ok a) :
      Step policy s { s with made := .typedAccessor a :: s.made }
  | call (s : Session) (c : Call) (hmade : c.callable ∈ s.made) (hvalid : c.Valid s.world) :
      Step policy s { s with world := c.after s.world }

/-- Nothing that was made in the session writes in cells of the class. -/
def Spares (s : Session) (c : HostClass) : Prop := ∀ m ∈ s.made, m.Spares c

section confined

variable {policy : Policy} {c : HostClass} {s s' : Session}

theorem Spares.cons (h : s.Spares c) {m : Callable} (hm : m.Spares c) :
    Spares { s with made := m :: s.made } c := by
  intro m' hm'
  rcases List.mem_cons.1 hm' with rfl | hold
  · exact hm
  · exact h m' hold

theorem Step.spares (hc : policy.Confines c) (hstep : Step policy s s') (h : s.Spares c) :
    s'.Spares c := by
  cases hstep with
  | opening | registration | planning | call => exact h
  | compilation d p hp t ht => exact h.cons (Thunk.spares_of_compile hc ht)
  | typedCompilation d p hp shape host type t ht =>
    exact h.cons (TypedThunk.spares_of_compile hc ht)
  | building d cast role a ha =>
    refine h.cons fun q p hp => ?_
    obtain ⟨plan, hplan⟩ := Accessor.compile_of_operation ha hp
    exact Thunk.spares_of_compile hc hplan
  | typedBuilding d cast role host type a ha =>
    refine h.cons fun q p hp => ?_
    obtain ⟨plan, shape, hplan⟩ := TypedAccessor.compile_of_operation ha hp
    exact TypedThunk.spares_of_compile hc hplan

theorem Step.cell_eq (hstep : Step policy s s') (h : s.Spares c) {i : Nat} {contents : Slots}
    (hi : s.world.cells[i]? = some ⟨c, contents⟩) : s'.world.cells[i]? = some ⟨c, contents⟩ := by
  cases hstep with
  | call call hmade hvalid => exact Call.cell_eq_of_spares hi (h _ hmade) hvalid
  | _ => exact hi

theorem run_spares (hc : policy.Confines c) (hrun : Relation.ReflTransGen (Step policy) s s')
    (h : s.Spares c) {i : Nat} {contents : Slots}
    (hi : s.world.cells[i]? = some ⟨c, contents⟩) :
    s'.Spares c ∧ s'.world.cells[i]? = some ⟨c, contents⟩ := by
  induction hrun with
  | refl => exact ⟨h, hi⟩
  | tail hrun hstep ih =>
    obtain ⟨hspares, hcell⟩ := ih
    exact ⟨hstep.spares hc hspares, hstep.cell_eq hspares hcell⟩

end confined

end Session

/-- Under a policy that lets the members of a class be read and nothing else, the instances of the
class keep their contents throughout a session. -/
theorem confined_instances_stay {policy : Policy} {c : HostClass} (hc : policy.Confines c)
    (r : Registry) (w : World) {s : Session}
    (hrun : Relation.ReflTransGen (Session.Step policy) (.start r w) s) {i : Nat} {contents : Slots}
    (hi : w.cells[i]? = some ⟨c, contents⟩) : s.world.cells[i]? = some ⟨c, contents⟩ := by
  have hstart : (Session.start r w).Spares c := fun m hm => absurd hm List.not_mem_nil
  exact (Session.run_spares hc hrun hstart hi).2

def lineClass : HostClass := ⟨0, "geometry::Line"⟩

/-- Its registration, after that of the first class. -/
def lineBlocks : List (HostClass × List Registration) :=
  pointBlocks ++ [(lineClass, [.field "y" (.base .int32) "y"])]

/-- The descriptor over the second class's field. -/
def lineY : Descriptor :=
  ⟨.field, (MemberSpec.ofAttribute "y" .field [] false
    (⟨.slot .own "y", true, true⟩ : Attribute (.base .int32))).member ⟨1⟩ lineClass .public ⟨1⟩⟩

/-- A policy that lets the first class be read only. -/
def pointPolicy : Policy := Policy.unrestricted.addRule pointClass.path .readAll

/-- The plan that writes the first class's field is compiled for the field of the second class, and
the outcome is called on an instance of the first class, which stays as it was. -/
theorem confined_instances_stay_point : ∃ p t s,
    pointX.plan .untyped .fail .set = .ok p ∧
    compile (Registry.ofBlocks lineBlocks).flags pointPolicy lineY p = .ok t ∧
    Relation.ReflTransGen (Session.Step pointPolicy)
      (.start (Registry.ofBlocks lineBlocks) pointWorld) s ∧
    s.world = (t.answer pointWorld (.set (.object pointRef) [] (.int32 5))).2 ∧
    s.world.cells[0]? = some ⟨pointClass, .empty⟩ := by
  have hconfines : pointPolicy.Confines pointClass := by
    unfold Policy.Confines
    decide
  have hp : pointX.plan .untyped .fail .set =
      .ok (.set pointX.dispatch pointX.argumentPlan (pointX.valueSlot .untyped .fail)) := rfl
  have ht : compile (Registry.ofBlocks lineBlocks).flags pointPolicy lineY
      (.set pointX.dispatch pointX.argumentPlan (pointX.valueSlot .untyped .fail)) =
      .ok (.write lineY.qualifiedName lineClass pointX.dispatch pointX.argumentPlan
        (pointX.valueSlot .untyped .fail) (.base .int32) ⟨.slot .own "y", true, true⟩) := rfl
  have hplanned : Relation.ReflTransGen (Session.Step pointPolicy)
      (.start (Registry.ofBlocks lineBlocks) pointWorld) _ :=
    .single (.planning _ pointX .untyped .fail .set _ hp)
  have hcompiled := hplanned.tail (.compilation _ lineY _ List.mem_cons_self _ ht)
  have hheld : ∀ o, Value.object pointRef = .object o → pointWorld.Holds o :=
    fun o ho => Value.object.inj ho ▸ ⟨.empty, rfl⟩
  have hcalled := hcompiled.tail (.call _ (.thunk _ (.set (.object pointRef) [] (.int32 5)))
    List.mem_cons_self hheld)
  exact ⟨_, _, _, hp, ht, hcalled, rfl, confined_instances_stay hconfines _ _ hcalled rfl⟩

end MemberAccess
