import MemberAccess.Proofs.Accessor.BuiltTyped
import MemberAccess.Proofs.Member.Runs
import MemberAccess.Proofs.Thunk.Prepared

/-!
# Atomicity of calls

A call that fails changes nothing. The one exception is a method that was registered as one that may
fail: when its own body fails, what the body has done until then stays.

* `Effect.IsAtomic`, `Outcome.IsAtomic`: a run or call that fails without a trace.
* `Method.Reports`: the body failed, and the method reports it.
* `Failure`: what is left of a call that failed; `failure_leaves_no_trace`.
-/

namespace MemberAccess

def AccessError.isReport : AccessError → Bool
  | memberFailed _ _ => true
  | _ => false

theorem AccessError.isReport_of_isCheck {e : AccessError} (h : e.isCheck = true) :
    e.isReport = false := by
  cases e <;> first | rfl | cases h

/-! ## Atomic runs -/

namespace Effect

variable {α β : Type} {own : Option Slots} {w : World}

/-- If the run failed, then without a report, and the receiver and the world are as they were. -/
def IsAtomic (x : Effect α) (own : Option Slots) (w : World) : Prop :=
  ∀ e, x.result = .error e → e.isReport = false ∧ x.receiver = own ∧ x.world = w

theorem isAtomic_refused {e : AccessError} (he : e.isReport = false) :
    (refused e own w : Effect α).IsAtomic own w := by
  intro e' h
  cases h
  exact ⟨he, rfl, rfl⟩

theorem isAtomic_ok (x : α) (own' : Option Slots) (w' : World) :
    (⟨.ok x, own', w'⟩ : Effect α).IsAtomic own w :=
  fun _ h => nomatch h

theorem IsAtomic.map {x : Effect α} (h : x.IsAtomic own w) (f : α → β) :
    (x.map f).IsAtomic own w :=
  fun e he => h e (map_eq_error_iff.1 he)

end Effect

section runs

variable (w : World) (own : Option Slots) (args : List Value)

theorem Construction.isReport_of_build {k : Construction} {e : AccessError}
    (h : k.build args = .error e) : e.isReport = false := by
  unfold build at h
  split at h <;> cases h
  rfl

theorem Construction.isAtomic_rebuildOver (k : Construction) :
    (k.rebuildOver w own args).IsAtomic own w := by
  unfold rebuildOver
  split
  · rename_i e he
    exact Effect.isAtomic_refused (isReport_of_build args he)
  · exact Effect.isAtomic_ok _ _ _

theorem Location.isReport_of_resolve {l : Location} {e : AccessError}
    (h : l.resolve own args = .error e) : e.isReport = false := by
  unfold resolve at h
  split at h
  · cases h
  · cases h
  · split at h <;> cases h
    rfl
  · cases h
    rfl

variable {type : StaticType} (a : Attribute type)

theorem Attribute.isAtomic_read : (a.read w own args).IsAtomic own w := by
  unfold read
  split
  · rename_i e he
    exact Effect.isAtomic_refused (Location.isReport_of_resolve own args he)
  · exact Effect.isAtomic_ok _ _ _

theorem Attribute.isAtomic_write (x : type.Carrier) : (a.write w own args x).IsAtomic own w := by
  unfold write
  split
  · rename_i e he
    exact Effect.isAtomic_refused (Location.isReport_of_resolve own args he)
  · exact Effect.isAtomic_ok _ _ _
  · exact Effect.isAtomic_ok _ _ _

theorem Attribute.isAtomic_writeConverted (v : Value) :
    (a.writeConverted w own args v).IsAtomic own w := by
  unfold writeConverted
  split
  · exact Effect.isAtomic_refused rfl
  · exact a.isAtomic_write w own args _

end runs

/-! ## Methods -/

namespace Method

variable {result : StaticType}

/-- The body failed on these slots, and the method reports it. -/
def Reports (f : Method result) (w : World) (own : Option Slots) (args : List Value)
    (e : AccessError) : Prop :=
  ∃ name report slots, f.reportsAs = some name ∧ e = .memberFailed name report ∧
    (f.storage = .own → own = some slots) ∧ (f.body.run w.contents args slots).2 = .error report

theorem Reports.of_none {f : Method result} {w : World} {args : List Value} {e : AccessError}
    (h : f.Reports w none args e) (own : Option Slots) : f.Reports w own args e := by
  obtain ⟨name, report, slots, hname, he, hown, hbody⟩ := h
  exact ⟨name, report, slots, hname, he, fun hs => (nomatch hown hs), hbody⟩

theorem execute_error {f : Method result} {w : World} {own : Option Slots} {args : List Value}
    (hserved : ¬ (f.storage = .own ∧ own.isNone = true)) {e : AccessError}
    (h : (f.execute w own args).result = .error e) : f.Reports w own args e := by
  unfold execute at h
  split at h
  · rename_i hstorage
    obtain ⟨name, report, hname, he, hbody⟩ := conclude_error h
    refine ⟨name, report, w.statics, hname, he, fun hown => ?_, hbody⟩
    exact absurd (hown.symm.trans hstorage) nofun
  · rename_i slots _
    obtain ⟨name, report, hname, he, hbody⟩ := conclude_error h
    exact ⟨name, report, slots, hname, he, fun _ => rfl, hbody⟩
  · rename_i hstorage
    exact absurd ⟨hstorage, rfl⟩ hserved

theorem invoke_error (f : Method result) (w : World) (own : Option Slots) (args : List Value)
    {e : AccessError} (h : (f.invoke w own args).result = .error e) :
    (e.isReport = false ∧ (f.invoke w own args).receiver = own ∧
      (f.invoke w own args).world = w) ∨ f.Reports w own args e := by
  unfold invoke at h ⊢
  split at h
  · rename_i hmissing
    rw [if_pos hmissing]
    cases h
    exact Or.inl ⟨rfl, rfl, rfl⟩
  · rename_i hserved
    rw [if_neg hserved]
    cases hunpack : Arguments.unpack f.parameters args with
    | error e' =>
      rw [hunpack] at h
      cases h
      exact Or.inl ⟨rfl, rfl, rfl⟩
    | ok xs =>
      rw [hunpack] at h
      have hbox := Arguments.box_of_unpack hunpack
      have hexecute : (f.execute w own args).result = .error e := by rwa [← hbox]
      exact Or.inr (execute_error hserved hexecute)

end Method

/-! ## Untyped calls -/

/-- If the call failed, then without a report, and the world is as it was. -/
def Outcome.IsAtomic {α : Type} (x : Outcome α) (w : World) : Prop :=
  ∀ e, x.1 = .error e → e.isReport = false ∧ x.2 = w

/-- The contents of the cell that a target refers to. -/
def World.lent (w : World) : Value → Option Slots
  | .object o => some (w.contents o)
  | _ => none

section untyped

variable {α : Type} {w : World}

theorem isAtomic_error {e : AccessError} (he : e.isReport = false) :
    Outcome.IsAtomic ((.error e, w) : Outcome α) w := by
  intro e' h
  cases h
  exact ⟨he, rfl⟩

theorem Effect.IsAtomic.settle {x : Effect α} {target : Option ObjectRef}
    (h : x.IsAtomic (target.map w.contents) w) : Outcome.IsAtomic (x.settle target) w := by
  intro e he
  rw [settle_result] at he
  obtain ⟨hreport, hown, hw⟩ := h e he
  exact ⟨hreport, settle_world hown hw⟩

theorem isAtomic_onReceiver {host : HostClass} {receiver : Option ObjectRef}
    {run : Option Slots → Effect α} (hrun : ∀ own, (run own).IsAtomic own w) :
    (onReceiver host w receiver run).IsAtomic w := by
  rcases onReceiver_cases host w receiver run with h | h
  · rw [h]
    exact isAtomic_error rfl
  · rw [h]
    exact (hrun _).settle

theorem isAtomic_prepared {member : String} {dispatch : Dispatch} {plan : ArgumentPlan}
    {target : Value} {args : List Value} {assigned : Option (ArgumentSlot × Value)}
    {run : Preparation → Outcome α} (hrun : ∀ p, (run p).IsAtomic w) :
    Outcome.IsAtomic (match prepare member dispatch plan target args assigned with
      | .error e => (.error e, w)
      | .ok p => run p) w := by
  split
  · rename_i e he
    exact isAtomic_error (AccessError.isReport_of_isCheck (isCheck_of_prepare he))
  · exact hrun _

theorem Construction.isAtomic_allocate (k : Construction) (host : HostClass) (w : World)
    (args : List Value) : (k.allocate host w args).IsAtomic w := by
  unfold allocate
  split
  · rename_i e he
    exact isAtomic_error (isReport_of_build args he)
  · exact fun _ h => nomatch h

theorem Method.invokeValue_error {result : StaticType} {f : Method result} {host : HostClass}
    {receiver : Option ObjectRef} {args : List Value} {e : AccessError}
    (h : (f.invokeValue host w receiver args).1 = .error e) :
    (e.isReport = false ∧ (f.invokeValue host w receiver args).2 = w) ∨
      f.Reports w (receiver.map w.contents) args e := by
  unfold invokeValue at h ⊢
  rcases onReceiver_cases host w receiver fun own => (f.invoke w own args).map result.toValue
    with hcall | hcall
  · rw [hcall] at h ⊢
    exact Or.inl (isAtomic_error rfl e h)
  · rw [hcall, Effect.settle_map] at h ⊢
    have hresult := map_eq_error_iff.1 h
    rw [Effect.settle_result] at hresult
    rcases f.invoke_error w _ args hresult with ⟨hreport, hown, hw⟩ | hreports
    · exact Or.inl ⟨hreport, Effect.settle_world hown hw⟩
    · exact Or.inr hreports

namespace Thunk

variable (t : Thunk) (w : World) (target v : Value) (args : List Value)

theorem isAtomic_runConstruct : (t.runConstruct w args).IsAtomic w := by
  unfold runConstruct
  split
  · exact isAtomic_prepared fun p => Construction.isAtomic_allocate _ _ w p.arguments
  · exact isAtomic_error rfl

theorem isAtomic_runRead : (t.runRead w target args).IsAtomic w := by
  unfold runRead
  split
  · exact isAtomic_prepared fun p =>
      isAtomic_onReceiver fun own => (Attribute.isAtomic_read w own p.arguments _).map _
  · exact isAtomic_error rfl

theorem isAtomic_runWrite : (t.runWrite w target args v).IsAtomic w := by
  unfold runWrite
  split
  · exact isAtomic_prepared fun p =>
      isAtomic_onReceiver fun own => Attribute.isAtomic_writeConverted w own p.arguments _ _
  · exact isAtomic_error rfl

theorem isAtomic_reconstruct (member : String) (host : HostClass) (dispatch : Dispatch)
    (plan : ArgumentPlan) (k : Construction) :
    ((reconstruct member host dispatch plan k).runCall w target args).IsAtomic w :=
  isAtomic_prepared fun p =>
    isAtomic_onReceiver fun own => (k.isAtomic_rebuildOver w own p.arguments).map _

theorem invoke_error {member : String} {host : HostClass} {dispatch : Dispatch}
    {plan : ArgumentPlan} {result : StaticType} {f : Method result} {e : AccessError}
    (h : ((invoke member host dispatch plan result f).runCall w target args).1 = .error e) :
    (e.isReport = false ∧
      ((invoke member host dispatch plan result f).runCall w target args).2 = w) ∨
      f.Reports w (w.lent target) args e := by
  unfold runCall at h ⊢
  dsimp only at h ⊢
  cases hp : prepare member dispatch plan target args none with
  | error e' =>
    rw [hp] at h
    cases h
    exact Or.inl ⟨AccessError.isReport_of_isCheck (isCheck_of_prepare hp), rfl⟩
  | ok p =>
    rw [hp] at h
    obtain ⟨hreceiver, -, hargs, -⟩ := prepare_eq_ok hp
    rcases Method.invokeValue_error h with hclean | hreports
    · exact Or.inl hclean
    · rw [hargs] at hreports
      refine Or.inr ?_
      rcases Dispatch.receiver_eq_ok hreceiver with ⟨-, hnone⟩ | ⟨o, -, rfl, hsome⟩
      · rw [hnone] at hreports
        exact hreports.of_none _
      · rw [hsome] at hreports
        exact hreports

theorem runCall_error {e : AccessError} (h : (t.runCall w target args).1 = .error e) :
    (e.isReport = false ∧ (t.runCall w target args).2 = w) ∨
      ∃ member host dispatch plan result f, t = invoke member host dispatch plan result f ∧
        f.Reports w (w.lent target) args e := by
  cases t with
  | reconstruct member host dispatch plan k =>
    exact Or.inl (isAtomic_reconstruct w target args member host dispatch plan k e h)
  | invoke member host dispatch plan result f =>
    rcases invoke_error w target args h with hclean | hreports
    · exact Or.inl hclean
    · exact Or.inr ⟨member, host, dispatch, plan, result, f, rfl, hreports⟩
  | _ => exact Or.inl (isAtomic_error rfl e h)

end Thunk

end untyped

/-! ## Typed calls -/

section typed

variable {α : Type} {w : World} {own : Option Slots}

theorem isAtomic_prepareTyped {member : String} {dispatch : Dispatch} {plan : ArgumentPlan}
    {args : List Value} {run : Option Slots → List Value → Effect α}
    (hrun : ∀ own xs, (run own xs).IsAtomic own w) :
    (prepareTyped member dispatch plan w own args run).IsAtomic own w := by
  rcases prepareTyped_cases w own args run with ⟨e, he, h⟩ | ⟨-, ⟨-, -, h⟩ | ⟨-, h⟩⟩
  · rw [h]
    exact Effect.isAtomic_refused (AccessError.isReport_of_isCheck he)
  · rw [h]
    exact hrun own args
  · rw [h]
    intro e he
    obtain ⟨hreport, -, hw⟩ := hrun none args e he
    exact ⟨hreport, rfl, hw⟩

theorem TypedConstruct.isReport_of_run {t : TypedConstruct} {args : List Value} {e : AccessError}
    (h : t.run args = .error e) : e.isReport = false := by
  unfold run at h
  split at h
  · rename_i he
    cases h
    exact AccessError.isReport_of_isCheck (ArgumentPlan.isCheck_of_coerce he)
  · exact Construction.isReport_of_build _ h

theorem isAtomic_ofBuilt {host : HostClass} {built : Except AccessError Slots}
    (h : ∀ e, built = .error e → e.isReport = false) :
    (Effect.ofBuilt host w own built).IsAtomic own w := by
  cases built with
  | error e => exact Effect.isAtomic_refused (h e rfl)
  | ok s => exact Effect.isAtomic_ok _ _ _

theorem TypedReconstruct.isAtomic_run (t : TypedReconstruct) (host : HostClass)
    (args : List Value) : (t.run w own args).IsAtomic own w := by
  rw [t.run_eq host]
  exact isAtomic_prepareTyped fun own xs => t.binding.isAtomic_rebuildOver w own xs

theorem TypedRead.isAtomic_run {type : StaticType} (t : TypedRead type) (index : List Value) :
    (t.run w own index).IsAtomic own w :=
  isAtomic_prepareTyped fun own xs => t.binding.isAtomic_read w own xs

theorem TypedWrite.isAtomic_run {type : StaticType} (t : TypedWrite type) (index : List Value)
    (x : type.Carrier) : (t.run w own index x).IsAtomic own w :=
  isAtomic_prepareTyped fun own xs => t.binding.isAtomic_write w own xs x

theorem TypedInvoke.run_error {result : StaticType} {t : TypedInvoke result} {args : List Value}
    {e : AccessError} (h : (t.run w own args).result = .error e) :
    (e.isReport = false ∧ (t.run w own args).receiver = own ∧ (t.run w own args).world = w) ∨
      t.binding.Reports w own args e := by
  unfold run at h ⊢
  rcases prepareTyped_cases w own args fun own xs => t.binding.invoke w own xs
    with ⟨e', he', hcall⟩ | ⟨-, ⟨-, -, hcall⟩ | ⟨-, hcall⟩⟩
  · rw [hcall] at h ⊢
    exact Or.inl (Effect.isAtomic_refused (AccessError.isReport_of_isCheck he') e h)
  · rw [hcall] at h ⊢
    exact t.binding.invoke_error w own args h
  · rw [hcall] at h ⊢
    rcases t.binding.invoke_error w none args h with ⟨hreport, -, hw⟩ | hreports
    · exact Or.inl ⟨hreport, rfl, hw⟩
    · exact Or.inr (hreports.of_none own)

theorem TypedThunk.answer_error {t : TypedThunk} {q : TypedRequest t.type} {x : Effect Value}
    (hx : t.answer w own q = some x) {e : AccessError} (he : x.result = .error e) :
    (e.isReport = false ∧ x.receiver = own ∧ x.world = w) ∨
      ∃ host result i, t = invoke host result i ∧ i.binding.Reports w own q.arguments e := by
  cases t with
  | construct host t =>
    cases q <;> cases hx
    exact Or.inl (isAtomic_ofBuilt (fun _ h => TypedConstruct.isReport_of_run h) e he)
  | reconstruct host t =>
    cases q <;> cases hx
    exact Or.inl ((t.isAtomic_run host _).map _ e he)
  | read host type t =>
    cases q <;> cases hx
    exact Or.inl ((t.isAtomic_run _).map _ e he)
  | write host type t =>
    cases q <;> cases hx
    exact Or.inl ((t.isAtomic_run _ _).map _ e he)
  | invoke host result t =>
    cases q <;> cases hx
    rcases TypedInvoke.run_error (map_eq_error_iff.1 he) with hclean | hreports
    · exact Or.inl hclean
    · exact Or.inr ⟨host, result, t, rfl, hreports⟩

end typed

/-! ## Failures -/

/-- What is left of a failed call: nothing, or what the failing body of a method that may fail left
of the contents `own` that it worked on. The state is the world, for a typed call the contents that
it was given too. -/
structure Failure (d : Descriptor) (w : World) (own : Option Slots) (args : List Value)
    (e : AccessError) {σ : Type} (before after : σ) : Prop where
  untouched : e.isReport = false → after = before
  reported : ∀ member report, e = .memberFailed member report →
    member = d.qualifiedName ∧ ∃ name parameters result body slots,
      d.member.RegisteredBy (.tryMethod name parameters result body) ∧ own = some slots ∧
      (body.run w.contents args slots).2 = .error report

section failures

variable {d : Descriptor} {w : World} {own : Option Slots} {args : List Value} {e : AccessError}
  {σ : Type} {before after : σ}

theorem Failure.of_untouched (he : e.isReport = false) (h : after = before) :
    Failure d w own args e before after := by
  refine ⟨fun _ => h, ?_⟩
  rintro member report rfl
  cases he

theorem Failure.of_reports {blocks : List (HostClass × List Registration)}
    (hm : d.member ∈ (Registry.ofBlocks blocks).members) {result : StaticType} {f : Method result}
    (hf : d.member.binding = .method result f) (h : f.Reports w own args e) :
    Failure d w own args e before after := by
  obtain ⟨name, report, slots, hname, rfl, hown, hbody⟩ := h
  refine ⟨fun he => (nomatch he), ?_⟩
  rintro member report' ⟨⟩
  obtain ⟨_, _, _, step, _, hstep⟩ := Registry.mem_ofBlocks hm
  obtain ⟨base, rfl, hstorage⟩ := hstep.tryMethod hf hname
  have hqualified : name = d.qualifiedName := by
    cases hstep.coherent with
    | constructor k hk => cases hk.binding.symm.trans hf
    | value type a ha => cases ha.binding.symm.trans hf
    | method result' f' hf' =>
      cases hf'.binding.symm.trans hf
      exact hf'.reportsAs name hname
  exact ⟨hqualified, base, f.parameters, result, f.body, slots, hstep, hown hstorage, hbody⟩

theorem Failure.of_isAtomic {α : Type} {x : Outcome α} (h : x.IsAtomic w) (he : x.1 = .error e) :
    Failure d w own args e w x.2 :=
  .of_untouched (h e he).1 (h e he).2

theorem Failure.of_isAtomic_asNull {x : Outcome Unit} (h : x.IsAtomic w)
    (he : x.asNull.1 = .error e) : Failure d w own args e w x.asNull.2 := by
  obtain ⟨hreport, hw⟩ := h e (map_eq_error_iff.1 he)
  exact .of_untouched hreport hw

theorem Failure.of_untouched_effect {α : Type} {x : Effect α}
    (h : e.isReport = false ∧ x.receiver = own ∧ x.world = w) :
    Failure d w own args e (own, w) (x.receiver, x.world) := by
  obtain ⟨he, hown, hw⟩ := h
  exact .of_untouched he (by rw [hown, hw])

end failures

section members

variable {blocks : List (HostClass × List Registration)} {d : Descriptor}
  (hm : d.member ∈ (Registry.ofBlocks blocks).members) {w : World} {own : Option Slots}
  {e : AccessError}

include hm

theorem Thunk.failure_runCall {member : String} {host : HostClass} {plan : Plan} {t : Thunk}
    (ht : Thunk.bind? member host plan d.member.binding = some t) {target : Value}
    {args : List Value} (he : (t.runCall w target args).1 = .error e) :
    Failure d w (w.lent target) args e w (t.runCall w target args).2 := by
  rcases t.runCall_error w target args he with hclean | ⟨_, _, _, _, result, f, rfl, hreports⟩
  · exact .of_untouched hclean.1 hclean.2
  · exact .of_reports hm (binding_of_bind_invoke ht) hreports

theorem Thunk.failure {fs : Flags} {policy : Policy} {plan : Plan} {t : Thunk}
    (ht : compile fs policy d plan = .ok t) {q : Request} (he : (t.answer w q).1 = .error e) :
    Failure d w (w.lent q.target) q.arguments e w (t.answer w q).2 := by
  cases q with
  | construct args => exact .of_isAtomic (t.isAtomic_runConstruct w args) he
  | invoke target args => exact t.failure_runCall hm (bind_of_compile ht) he
  | get target index => exact .of_isAtomic (t.isAtomic_runRead w target index) he
  | set target index v => exact .of_isAtomic_asNull (t.isAtomic_runWrite w target v index) he

theorem Accessor.failure {fs : Flags} {o : Options} {role : Role} {a : Accessor}
    (ha : Accessor.build fs o role d = .ok a) {q : Request} {x : Outcome Value}
    (hx : a.answer w q = some x) (he : x.1 = .error e) :
    Failure d w (w.lent q.target) q.arguments e w x.2 := by
  cases a with
  | calls a =>
    cases q with
    | invoke target args =>
      cases hx
      obtain ⟨plan, ht⟩ := bind_of_build fs o ha
      unfold CallAccessor.invoke at he ⊢
      split at he
      · exact .of_isAtomic (a.thunk.isAtomic_runConstruct w args) he
      · exact a.thunk.failure_runCall hm ht he
    | _ => cases hx
  | holds a =>
    cases q with
    | get target index =>
      cases hx
      unfold ValueAccessor.get at he ⊢
      split at he
      · exact .of_isAtomic (Thunk.isAtomic_runRead _ w target _) he
      · exact .of_isAtomic (isAtomic_error rfl) he
    | set target index v =>
      cases hx
      refine .of_isAtomic_asNull ?_ he
      unfold ValueAccessor.set
      split
      · exact Thunk.isAtomic_runWrite _ w target v _
      · exact isAtomic_error rfl
    | _ => cases hx

theorem TypedThunk.failure {fs : Flags} {policy : Policy} {plan : Plan} {shape : TypedShape}
    {host : HostClass} {type : StaticType} {t : TypedThunk}
    (ht : TypedThunk.compile fs policy d plan shape host type = .ok t) {q : TypedRequest t.type}
    {x : Effect Value} (hx : t.answer w own q = some x) (he : x.result = .error e) :
    Failure d w own q.arguments e (own, w) (x.receiver, x.world) := by
  rcases answer_error hx he with hclean | ⟨host', result, i, rfl, hreports⟩
  · exact .of_untouched_effect hclean
  · exact .of_reports hm (binding_of_compile ht) hreports

theorem TypedAccessor.failure {fs : Flags} {o : Options} {role : Role} {host : HostClass}
    {type : StaticType} {a : TypedAccessor} (ha : TypedAccessor.build fs o role host type d = .ok a)
    {q : TypedRequest a.type} {x : Effect Value} (hx : a.answer w own q = some x)
    (he : x.result = .error e) :
    Failure d w own q.arguments e (own, w) (x.receiver, x.world) := by
  cases a with
  | constructor host' a =>
    rcases TypedThunk.answer_error (t := .construct host' a.thunk) hx he with hclean | hmethod
    · exact .of_untouched_effect hclean
    · obtain ⟨_, _, _, ht, _⟩ := hmethod
      cases ht
  | reconstructor host' a =>
    rcases TypedThunk.answer_error (t := .reconstruct host' a.thunk) hx he with hclean | hmethod
    · exact .of_untouched_effect hclean
    · obtain ⟨_, _, _, ht, _⟩ := hmethod
      cases ht
  | method host' result a =>
    rcases TypedThunk.answer_error (t := .invoke host' result a.thunk) hx he with hclean | hmethod
    · exact .of_untouched_effect hclean
    · obtain ⟨_, _, _, ht, hreports⟩ := hmethod
      cases ht
      exact .of_reports hm (binding_of_build ha) hreports
  | value host' type' a =>
    cases q with
    | invoke args => cases hx
    | get index =>
      cases hx
      refine .of_untouched_effect (Effect.IsAtomic.map ?_ _ e he)
      unfold TypedValueAccessor.get
      split
      · exact TypedRead.isAtomic_run _ _
      · exact Effect.isAtomic_refused rfl
    | set index x =>
      cases hx
      refine .of_untouched_effect (Effect.IsAtomic.map ?_ _ e he)
      unfold TypedValueAccessor.set
      split
      · exact TypedWrite.isAtomic_run _ _ _
      · exact Effect.isAtomic_refused rfl

end members

/-- Calls that fail change nothing, unless the body of a method that was registered as one that may
fail failed itself. This holds of operations compiled from any plan and of accessors. -/
theorem failure_leaves_no_trace {blocks : List (HostClass × List Registration)} {d : Descriptor}
    (hm : d.member ∈ (Registry.ofBlocks blocks).members) (w : World) :
    (∀ fs policy plan t, compile fs policy d plan = .ok t →
      ∀ q e w', t.answer w q = (.error e, w') →
        Failure d w (w.lent q.target) q.arguments e w w') ∧
    (∀ fs o role a, Accessor.build fs o role d = .ok a →
      ∀ q e w', a.answer w q = some (.error e, w') →
        Failure d w (w.lent q.target) q.arguments e w w') ∧
    (∀ fs policy plan shape host type t,
      TypedThunk.compile fs policy d plan shape host type = .ok t →
      ∀ own q x e, t.answer w own q = some x → x.result = .error e →
        Failure d w own q.arguments e (own, w) (x.receiver, x.world)) ∧
    (∀ fs o role host type a, TypedAccessor.build fs o role host type d = .ok a →
      ∀ own q x e, a.answer w own q = some x → x.result = .error e →
        Failure d w own q.arguments e (own, w) (x.receiver, x.world)) := by
  refine ⟨?_, ?_, ?_, ?_⟩
  · intro fs policy plan t ht q e w' hq
    have hfailure := Thunk.failure hm ht (congrArg Prod.fst hq)
    rwa [hq] at hfailure
  · intro fs o role a ha q e w' hq
    exact Accessor.failure hm ha hq rfl
  · intro fs policy plan shape host type t ht own q x e hx he
    exact TypedThunk.failure hm ht hx he
  · intro fs o role host type a ha own q x e hx he
    exact TypedAccessor.failure hm ha hx he

/-- A value of another type is refused by the sample field, which stays as it is. -/
theorem failure_leaves_no_trace_pointX : ∃ a e,
    Accessor.build .empty .standard .field pointX = .ok a ∧
    a.answer pointWorld (.set (.object pointRef) [] (.bool true)) = some (.error e, pointWorld) ∧
    e.isReport = false ∧
    Failure pointX pointWorld (some (pointWorld.contents pointRef)) [] e pointWorld pointWorld := by
  have ha : Accessor.build .empty .standard .field pointX = .ok _ := rfl
  have hfails : ∀ q e w', _ := (failure_leaves_no_trace over_pointX.registered pointWorld).2.1
    .empty .standard .field _ ha
  exact ⟨_, _, ha, rfl, rfl, hfails (.set (.object pointRef) [] (.bool true)) _ _ rfl⟩

end MemberAccess
