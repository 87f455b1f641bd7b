import MemberAccess.Thunk.Compile

/-!
# Compiling for the typed surface

Compiled operations whose target and value are of static types. The target is the contents of an
instance of the class, or nothing; the arguments stay untyped. A member compiles only for the
static types that it was registered with.

* `TypedConstruct`, `TypedReconstruct`, `TypedRead`, `TypedWrite`, `TypedInvoke`: the five compiled
  operations, each with its `run`.
* `compileConstruct`, `compileReconstruct`, `compileGet`, `compileSet`, `compileInvoke`.
-/

namespace MemberAccess

/-! ## Compiled operations -/

/-- A compiled allocation. -/
structure TypedConstruct where
  member : String
  arguments : ArgumentPlan
  binding : Construction

/-- A compiled construction over an instance. -/
structure TypedReconstruct where
  member : String
  arguments : ArgumentPlan
  binding : Construction

/-- A compiled read of a static type. -/
structure TypedRead (type : StaticType) where
  member : String
  dispatch : Dispatch
  index : ArgumentPlan
  binding : Attribute type

/-- A compiled write of a static type. -/
structure TypedWrite (type : StaticType) where
  member : String
  dispatch : Dispatch
  index : ArgumentPlan
  binding : Attribute type

/-- A compiled call that returns a static type. -/
structure TypedInvoke (result : StaticType) where
  member : String
  dispatch : Dispatch
  arguments : ArgumentPlan
  binding : Method result

/-! ## Calls -/

/-- The contents that an instance member is used on; a static member has none. -/
def Dispatch.contents (dispatch : Dispatch) (member : String) (target : Option Slots) :
    Except AccessError (Option Slots) :=
  match dispatch, target with
  | .static, _ => .ok none
  | .onInstance _, some s => .ok (some s)
  | .onInstance _, none => .error (.targetNull member)

/-- The checks of a typed call, the target first, then a run over what passed them. A static member
leaves the contents that were offered to it as they are. -/
def prepareTyped {α : Type} (member : String) (dispatch : Dispatch) (plan : ArgumentPlan)
    (w : World) (target : Option Slots) (args : List Value)
    (run : Option Slots → List Value → Effect α) : Effect α :=
  match dispatch.contents member target with
  | .error e => .refused e target w
  | .ok receiver =>
    match plan.coerce member args with
    | .error e => .refused e target w
    | .ok arguments =>
      let x := run receiver arguments
      match receiver with
      | some _ => x
      | none => ⟨x.result, target, x.world⟩

def TypedConstruct.run (t : TypedConstruct) (args : List Value) : Except AccessError Slots :=
  match t.arguments.coerce t.member args with
  | .error e => .error e
  | .ok arguments => t.binding.build arguments

def TypedReconstruct.run (t : TypedReconstruct) (w : World) (target : Option Slots)
    (args : List Value) : Effect Unit :=
  match target with
  | none => .refused (.targetNull t.member) target w
  | some _ =>
    match t.arguments.coerce t.member args with
    | .error e => .refused e target w
    | .ok arguments => t.binding.rebuildOver w target arguments

def TypedRead.run {type : StaticType} (t : TypedRead type) (w : World) (target : Option Slots)
    (index : List Value) : Effect type.Carrier :=
  prepareTyped t.member t.dispatch t.index w target index fun receiver arguments =>
    t.binding.read w receiver arguments

def TypedWrite.run {type : StaticType} (t : TypedWrite type) (w : World) (target : Option Slots)
    (index : List Value) (x : type.Carrier) : Effect Unit :=
  prepareTyped t.member t.dispatch t.index w target index fun receiver arguments =>
    t.binding.write w receiver arguments x

def TypedInvoke.run {result : StaticType} (t : TypedInvoke result) (w : World)
    (target : Option Slots) (args : List Value) : Effect result.Carrier :=
  prepareTyped t.member t.dispatch t.arguments w target args fun receiver arguments =>
    t.binding.invoke w receiver arguments

/-! ## Compiling -/

/-- The error of a member that was registered with other static types. -/
def Descriptor.otherType {α : Type} (d : Descriptor) (expected : String) : Except AccessError α :=
  .error (.invalidMember (.otherType d.qualifiedName expected))

/-- The construction behind a descriptor, if it constructs instances of the class. -/
def Descriptor.constructionFor (d : Descriptor) (host : HostClass) :
    Except AccessError Construction :=
  match d.member.binding with
  | .construction k => if d.host = host then .ok k else d.otherType host.path
  | _ => d.otherType host.path

/-- The attribute behind a descriptor, if it is one of the class and the type. -/
def Descriptor.attributeFor (d : Descriptor) (host : HostClass) (type : StaticType) :
    Except AccessError (Attribute type) :=
  let expected := type.name ++ " on " ++ host.path
  match d.member.binding with
  | .value type' a =>
    if h : type' = type then
      if d.host = host then .ok (h ▸ a) else d.otherType expected
    else d.otherType expected
  | _ => d.otherType expected

/-- The method behind a descriptor, if it is one of the class that returns the type. -/
def Descriptor.methodFor (d : Descriptor) (host : HostClass) (result : StaticType) :
    Except AccessError (Method result) :=
  let expected := "fn(&mut " ++ host.path ++ ", ..) -> " ++ result.name
  match d.member.binding with
  | .method result' m =>
    if h : result' = result then
      if d.host = host then .ok (h ▸ m) else d.otherType expected
    else d.otherType expected
  | _ => d.otherType expected

def compileConstruct (flags : Flags) (policy : Policy) (d : Descriptor) (plan : Plan)
    (host : HostClass) : Except AccessError TypedConstruct :=
  match admission flags policy d plan with
  | .error e => .error e
  | .ok () =>
    match d.constructionFor host with
    | .error e => .error e
    | .ok k =>
      match plan with
      | .construct arguments => .ok ⟨d.qualifiedName, arguments, k⟩
      | _ => .error (d.unfit plan)

/-- Compiles a construction over an instance of a class. -/
def compileReconstruct (flags : Flags) (policy : Policy) (d : Descriptor) (plan : Plan)
    (host : HostClass) : Except AccessError TypedReconstruct :=
  match admission flags policy d plan with
  | .error e => .error e
  | .ok () =>
    match d.constructionFor host with
    | .error e => .error e
    | .ok k =>
      match plan with
      | .reconstruct _ arguments => .ok ⟨d.qualifiedName, arguments, k⟩
      | _ => .error (d.unfit plan)

def compileGet (flags : Flags) (policy : Policy) (d : Descriptor) (plan : Plan)
    (host : HostClass) (type : StaticType) : Except AccessError (TypedRead type) :=
  match admission flags policy d plan with
  | .error e => .error e
  | .ok () =>
    match d.attributeFor host type with
    | .error e => .error e
    | .ok a =>
      match plan, a.hasGetter with
      | .get dispatch index, true => .ok ⟨d.qualifiedName, dispatch, index, a⟩
      | _, _ => .error (d.unfit plan)

def compileSet (flags : Flags) (policy : Policy) (d : Descriptor) (plan : Plan)
    (host : HostClass) (type : StaticType) : Except AccessError (TypedWrite type) :=
  match admission flags policy d plan with
  | .error e => .error e
  | .ok () =>
    match d.attributeFor host type with
    | .error e => .error e
    | .ok a =>
      match plan, a.hasSetter with
      | .set dispatch index _, true => .ok ⟨d.qualifiedName, dispatch, index, a⟩
      | _, _ => .error (d.unfit plan)

/-- Compiles a call for a class and a result type. -/
def compileInvoke (flags : Flags) (policy : Policy) (d : Descriptor) (plan : Plan)
    (host : HostClass) (result : StaticType) : Except AccessError (TypedInvoke result) :=
  match admission flags policy d plan with
  | .error e => .error e
  | .ok () =>
    match d.methodFor host result with
    | .error e => .error e
    | .ok m =>
      match plan with
      | .invoke dispatch arguments => .ok ⟨d.qualifiedName, dispatch, arguments, m⟩
      | _ => .error (d.unfit plan)

end MemberAccess
