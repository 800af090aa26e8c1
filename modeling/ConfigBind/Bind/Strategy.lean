import ConfigBind.Bind.Script
import ConfigBind.Path.Basic

/-!
# Strategies

A `Strategy` binds the types it supports.  It sees the binder through a `Context`, and has the parts
of its value bound by asking for them in its script, never by calling another strategy.

The rest of this module is what strategies share: finding data, converting it, and binding the
elements of a list one after the other.
-/

namespace ConfigBind

/-- Whether members that are no leaves are bound too. -/
inductive Mode
  | deep
  | shallow
  deriving DecidableEq, Repr

/-- What a strategy sees of the binder. -/
structure Context where
  describe? : TypeRef → Option Descriptor
  conversion : Conversion
  mode : Mode
  /-- The binder's own tree. -/
  source : Node

/-- A way to bind some types.  Of the strategies that support a type the one of highest priority is
used. -/
structure Strategy where
  name : String
  priority : Int
  supports : Descriptor → Bool
  bind : Context → Request → Script (Outcome Value)

namespace Context

def descriptor (ctx : Context) (t : TypeRef) : Attempt Descriptor :=
  match ctx.describe? t with
  | some d => return d
  | none => throw (.unregisteredType t.name)

def isLeaf (ctx : Context) (t : TypeRef) : Attempt Bool := do
  return (← ctx.descriptor t).kind.isLeaf

/-- Whether a component of a type is skipped: in shallow mode, if the type is no leaf. -/
def skips (ctx : Context) (t : TypeRef) : Attempt Bool :=
  match ctx.mode with
  | .shallow => do return !(← ctx.isLeaf t)
  | .deep => return false

def bind (_ : Context) (r : Request) : Script (Outcome Value) := .call r .done

/-- Has a part of a value bound; nothing is no error, a failure is one. -/
def bindPart (ctx : Context) (r : Request) : Attempt (Option Value) := do
  match (← ctx.bind r).toExcept with
  | .ok value => return value
  | .error e => throw e

/-- Converting through the binder itself, which is not among the things it does. -/
def bindValue (_ : Context) (_ : Request) : Outcome Value :=
  .failed (.unsupported "the orchestrator does not convert values itself")

def convert (ctx : Context) (n : Node) (t : TypeRef) : Attempt Value :=
  match ctx.conversion.convert n t with
  | .ok value => return value
  | .error e => throw (.conversion e)

def convertAt (ctx : Context) (r : Request) : Attempt (Option Value) := do
  match r.source.resolve? r.path with
  | some n => return some (← ctx.convert n r.type)
  | none => return none

def unfit (n : Node) (t : TypeRef) : BindError := .conversion (.unsupported n.kind t.name)

def convertWhole (ctx : Context) (n : Node) (t : TypeRef) : Attempt (Option Value) := do
  if ctx.conversion.canConvert t then return some (← ctx.convert n t)
  else throw (unfit n t)

def bindElementsFrom (ctx : Context) (r : Request) (item : TypeRef)
    (onEmpty : Path → Attempt Unit) : (count i : Nat) → Attempt (List Value)
  | 0, _ => return []
  | count + 1, i => do
    let child := r.path.element i
    match ← ctx.bindPart (r.below child item) with
    | some value => return value :: (← ctx.bindElementsFrom r item onEmpty count (i + 1))
    | none =>
      onEmpty child
      ctx.bindElementsFrom r item onEmpty count (i + 1)

/-- Binds the elements of the list at the path of a request; `onEmpty` decides about an element
that is bound to nothing. -/
def bindElements (ctx : Context) (r : Request) (item : TypeRef) (onEmpty : Path → Attempt Unit) :
    Attempt (Option (List Value)) := do
  match r.source.resolve? r.path with
  | none => return none
  | some n =>
    match n.items? with
    | none => throw (unfit n r.type)
    | some items => return some (← ctx.bindElementsFrom r item onEmpty items.length 0)

def skipElement (child : Path) : Attempt Unit := Script.note (.unboundElement child.render)

def refuseElement (child : Path) : Attempt Unit := throw (.missingElement child.render)

end Context

def Attempt.ofBuild {α : Type} : Except BuildError α → Attempt α
  | .ok value => return value
  | .error e => throw (.build e)

end ConfigBind
