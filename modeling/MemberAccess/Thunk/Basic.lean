import MemberAccess.Thunk.Preparation

/-!
# Compiled operations

A thunk is a compiled operation of the untyped surface: a plan bound to the member that it fits.
Nothing is looked up when it is called.

* `Thunk`: the five compiled operations, and `Thunk.shape`, how each is called.
* `Thunk.runConstruct`, `Thunk.runCall`, `Thunk.runRead`, `Thunk.runWrite`: the four ways to call
  one; a thunk of another shape refuses.
-/

namespace MemberAccess

/-- A compiled operation; `member` is the qualified name for errors, `host` the class of the
member's receivers. -/
inductive Thunk where
  | construct (member : String) (host : HostClass) (arguments : ArgumentPlan) (k : Construction)
  | reconstruct (member : String) (host : HostClass) (dispatch : Dispatch)
      (arguments : ArgumentPlan) (k : Construction)
  | invoke (member : String) (host : HostClass) (dispatch : Dispatch) (arguments : ArgumentPlan)
      (result : StaticType) (m : Method result)
  | read (member : String) (host : HostClass) (dispatch : Dispatch) (index : ArgumentPlan)
      (type : StaticType) (a : Attribute type)
  | write (member : String) (host : HostClass) (dispatch : Dispatch) (index : ArgumentPlan)
      (value : ArgumentSlot) (type : StaticType) (a : Attribute type)

namespace Thunk

def shape : Thunk → Shape
  | construct .. => .construct
  | reconstruct .. | invoke .. => .call
  | read .. => .read
  | write .. => .write

/-- The compiled operation in diagnostic texts. -/
def debug (t : Thunk) : String := "CompiledThunk::" ++ t.shape.name

/-- The outcome of a thunk that is used as one of another shape. -/
def misused {α : Type} (t : Thunk) (wanted : Shape) (w : World) : Outcome α :=
  (.error (.invalidOperation (.wrongShape t.shape wanted)), w)

def runConstruct (t : Thunk) (w : World) (args : List Value) : Outcome Value :=
  match t with
  | construct member host plan k =>
    match prepare member .static plan .null args none with
    | .error e => (.error e, w)
    | .ok p => k.allocate host w p.arguments
  | _ => t.misused .construct w

/-- Calls a method, or a constructor over an instance. -/
def runCall (t : Thunk) (w : World) (target : Value) (args : List Value) : Outcome Value :=
  match t with
  | reconstruct member host dispatch plan k =>
    match prepare member dispatch plan target args none with
    | .error e => (.error e, w)
    | .ok p => k.rebuild host w p.receiver p.arguments
  | invoke member host dispatch plan _ m =>
    match prepare member dispatch plan target args none with
    | .error e => (.error e, w)
    | .ok p => m.invokeValue host w p.receiver p.arguments
  | _ => t.misused .call w

def runRead (t : Thunk) (w : World) (target : Value) (index : List Value) : Outcome Value :=
  match t with
  | read member host dispatch plan _ a =>
    match prepare member dispatch plan target index none with
    | .error e => (.error e, w)
    | .ok p => a.readValue host w p.receiver p.arguments
  | _ => t.misused .read w

def runWrite (t : Thunk) (w : World) (target : Value) (index : List Value) (v : Value) :
    Outcome Unit :=
  match t with
  | write member host dispatch plan slot _ a =>
    match prepare member dispatch plan target index (some (slot, v)) with
    | .error e => (.error e, w)
    | .ok p => a.writeValue host w p.receiver p.arguments (p.assigned.getD v)
  | _ => t.misused .write w

end Thunk

end MemberAccess
