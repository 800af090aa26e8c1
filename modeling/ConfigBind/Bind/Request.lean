import ConfigBind.Bind.Event
import ConfigBind.Bind.Outcome

/-!
# Requests

What a bind is asked for: a path in a tree, and a `Target`, which is a type and perhaps an instance
to bind into, given or supplied when it is first asked for.  The `FailurePolicy` of a request
decides what becomes of failures at its path and below.
-/

namespace ConfigBind

structure Target where
  type : TypeRef
  instance? : Option Value
  /-- The instance that is supplied on demand. -/
  supplied? : Option Value
  deriving Repr

namespace Target

def ofType (t : TypeRef) : Target := ⟨t, none, none⟩

def withInstance (t : Target) (value : Value) : Target := { t with instance? := some value }

/-- The target with an instance to bind into on demand. -/
def withSupplied (t : Target) (value : Value) : Target := { t with supplied? := some value }

def hasInstance (t : Target) : Bool := t.instance?.isSome || t.supplied?.isSome

/-- Takes the instance, and if there is none the supplied one. -/
def take (t : Target) : Option Value × Target :=
  match t.instance? with
  | some value => (some value, { t with instance? := none })
  | none => (t.supplied?, { t with supplied? := none })

def describe (t : Target) : String :=
  "Bindable \x7b ty: " ++ t.type.name ++ ", instance: " ++ toString t.instance?.isSome ++
    ", supplier: " ++ toString t.supplied?.isSome ++ " \x7d"

end Target

/-- What becomes of a failure. -/
inductive Recovery
  /-- The value stands in; the bind is present. -/
  | fallback (value : Value)
  /-- The failure is dropped; the bind is empty. -/
  | ignore
  /-- The bind fails with this error. -/
  | fail (error : BindError)
  /-- What another path binds to takes the place of the failed bind. -/
  | rebind (path : Path) (type : TypeRef)
  deriving Inhabited, Repr

/-- A rule about failures, which applies where all the conditions hold that it has. -/
structure FailureRule where
  /-- The text of the path. -/
  path? : Option String
  type? : Option TypeRef
  /-- The code of the error. -/
  code? : Option String
  /-- The code of the root cause of the error. -/
  rootCode? : Option String
  recover : BindError → Recovery

def FailureRule.applies (rule : FailureRule) (path : Path) (t : TypeRef) (e : BindError) : Bool :=
  rule.path?.all (· == path.render) && rule.type?.all (· == t) && rule.code?.all (· == e.code) &&
    rule.rootCode?.all (· == e.rootCause.code)

/-- Decides what becomes of every failure of a bind: of which path, to which type, and why.  A
policy may keep count and change its mind: it sees what failures were put to policies before in the
run, the latest first. -/
structure FailurePolicy where
  name : String
  onFailure : (earlier : List Event) → Path → TypeRef → BindError → Recovery

namespace FailurePolicy

def propagate : FailurePolicy := ⟨"propagate", fun _ _ _ e => .fail e⟩

def ignore : FailurePolicy := ⟨"ignore", fun _ _ _ _ => .ignore⟩

/-- The first rule that applies decides; without one a failure stands. -/
def ofRules (name : String) (rules : List FailureRule) : FailurePolicy where
  name
  onFailure _ path t e :=
    match rules.find? (·.applies path t e) with
    | some rule => rule.recover e
    | none => .fail e

end FailurePolicy

structure Request where
  path : Path
  target : Target
  source : Node
  policy : FailurePolicy

namespace Request

def type (r : Request) : TypeRef := r.target.type

def below (r : Request) (path : Path) (t : TypeRef) : Request :=
  { r with path := path, target := .ofType t }

end Request

end ConfigBind
