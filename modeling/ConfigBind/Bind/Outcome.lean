import ConfigBind.Bind.Error

/-!
# Outcomes

The outcome of a bind: a value, nothing, or a failure.  That there is no data is no failure.
-/

namespace ConfigBind

inductive Outcome (α : Type)
  | present (value : α)
  | empty
  | failed (error : BindError)
  deriving Inhabited, Repr

namespace Outcome

variable {α β : Type}

def ofOption : Option α → Outcome α
  | some value => present value
  | none => empty

/-- Failed on an error; otherwise present if there is a value. -/
def ofExcept : Except BindError (Option α) → Outcome α
  | .ok value => ofOption value
  | .error e => failed e

def isPresent : Outcome α → Bool
  | present _ => true
  | _ => false

def isEmpty : Outcome α → Bool
  | empty => true
  | _ => false

def isFailed : Outcome α → Bool
  | failed _ => true
  | _ => false

def value? : Outcome α → Option α
  | present value => some value
  | _ => none

def error? : Outcome α → Option BindError
  | failed e => some e
  | _ => none

/-- The value; that there is none is an error here. -/
def get : Outcome α → Except BindError α
  | present value => .ok value
  | empty => .error .missing
  | failed e => .error e

def toExcept : Outcome α → Except BindError (Option α)
  | present value => .ok (some value)
  | empty => .ok none
  | failed e => .error e

def getD (o : Outcome α) (default : α) : α := o.value?.getD default

def map (f : α → β) : Outcome α → Outcome β
  | present value => present (f value)
  | empty => empty
  | failed e => failed e

def bind (o : Outcome α) (f : α → Outcome β) : Outcome β :=
  match o with
  | present value => f value
  | empty => empty
  | failed e => failed e

@[simp] theorem ofExcept_toExcept (o : Outcome α) : ofExcept o.toExcept = o := by
  cases o <;> rfl

end Outcome

def Outcome.cast (o : Outcome Value) (t : TypeRef) : Outcome Value :=
  o.bind fun value =>
    if value.type = t then .present value else .failed (.build (.typeMismatch t.name))

end ConfigBind
