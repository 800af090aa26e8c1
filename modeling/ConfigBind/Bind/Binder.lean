import ConfigBind.Bind.Session
import ConfigBind.Bind.Strategy.Container
import ConfigBind.Bind.Strategy.Members
import ConfigBind.Bind.Strategy.Scalar
import ConfigBind.Convert.Standard
import ConfigBind.Types.Registry

/-!
# The binder

A `Binder` binds paths of a data tree to registered types.  Every bind, of a path that was asked for
and of any part below it, goes through `Binder.run`: it selects the strategy for the type, enters
the path, follows a text that is one reference to the path it refers to or lets the strategy bind,
asks the failure policy if that failed, and leaves the path.  A path that is being bound already is
not entered again, which ends references that lead back to themselves.

How deep binds nest is bounded by the tree and its references (`Binder.nestingBound`), so a run with
that allowance has a result.
-/

namespace ConfigBind

def Strategy.builtin : List Strategy := [scalar, map, array, set, list, record, bean]

/-- Strategies by descending priority; of equal priority, those given come before the built-in ones
and otherwise stay in order. -/
def Strategy.arrange (custom : List Strategy) : List Strategy :=
  (custom ++ builtin).mergeSort fun a b => b.priority ≤ a.priority

structure Binder where
  catalog : Catalog
  source : Node
  registry : Registry
  conversion : Conversion
  /-- The policy for binds that name none. -/
  policy : FailurePolicy
  mode : Mode
  strategies : List Strategy
  /-- The texts of the paths that are being bound. -/
  inFlight : List String

structure Run where
  outcome : Outcome Value
  binder : Binder
  events : List Event

namespace Binder

def new (catalog : Catalog) (tree : TypeRef) (source : Node) : Binder where
  catalog
  source
  registry := .standard
  conversion := .standard tree
  policy := .propagate
  mode := .deep
  strategies := Strategy.arrange []
  inFlight := []

def withStrategies (b : Binder) (custom : List Strategy) : Binder :=
  { b with strategies := Strategy.arrange custom }

def register (b : Binder) (t : TypeRef) : Binder :=
  { b with registry := (b.registry.register b.catalog t).2 }

def registerDescriptor (b : Binder) (d : Descriptor) : Binder :=
  { b with registry := (b.registry.registerDescriptor b.catalog d).2 }

/-- The strategy for a type, which must be registered. -/
def strategyFor (b : Binder) (t : TypeRef) : Except BindError Strategy :=
  match b.registry.get? t with
  | none => .error (.unregisteredType t.name)
  | some d =>
    match b.strategies.find? (·.supports d) with
    | none => .error (.noStrategy t.name)
    | some strategy => .ok strategy

def context (b : Binder) : Context where
  describe? := b.registry.get?
  conversion := b.conversion
  mode := b.mode
  source := b.source

/-- The path that the data at the path of a request refers to as a whole. -/
def redirection? (r : Request) : Option Path :=
  match r.source.get? r.path with
  | some (.text text) => (Text.wholeReference? text.toList).map (Path.parseWith r.path.separator)
  | _ => none

/-- Binds a request whose path has been entered: at the path it refers to, or by the strategy. -/
def delegate (b : Binder) (strategy : Strategy) (r : Request) : Script (Outcome Value) :=
  match redirection? r with
  | some path => do
    Script.note (.redirected r.path.render path.render)
    b.context.bind { r with path }
  | none => strategy.bind b.context r

def drop (r : Request) : Script (Outcome Value) := do
  Script.note (.ignored r.path.render r.type)
  return .empty

def wrapped (r : Request) (e : BindError) : Outcome Value :=
  .failed (.failed r.path.render r.type.name e)

/-- Does with a failed request what its policy decided. -/
def verdict (b : Binder) (r : Request) : Recovery → Script (Outcome Value)
  | .fallback value => return .present value
  | .ignore => drop r
  | .fail e => return wrapped r e
  | .rebind other t => do
    match ← b.context.bind ⟨other, .ofType t, b.source, .propagate⟩ with
    | .present value => return .present value
    | .empty => drop r
    | .failed e => return wrapped r e

/-- What the policy of a request makes of a failure, in the given state of the run. -/
def recovery (b : Binder) (r : Request) (error : BindError) (s : Session) :
    Script (Outcome Value) := do
  let path := r.path.render
  Script.note (.failed path r.type error)
  Script.note (.asked r.policy.name path r.type error s.inFlight.length)
  b.verdict r (r.policy.onFailure s.asked r.path r.type error)

def recover (b : Binder) (bind : Request → Bind (Outcome Value)) (r : Request)
    (error : BindError) : Bind (Outcome Value) := do
  (b.recovery r error (← get)).exec bind

def settle (b : Binder) (bind : Request → Bind (Outcome Value)) (r : Request) :
    Outcome Value → Bind (Outcome Value)
  | .failed e => b.recover bind r e
  | outcome => return outcome

/-- Binds a request, with the given number of binds allowed to nest. -/
def run (b : Binder) : (allowance : Nat) → Request → Bind (Outcome Value)
  | 0, _ => Bind.exhausted
  | n + 1, r => do
    match b.strategyFor r.type with
    | .error e => b.recover (b.run n) r e
    | .ok strategy =>
      Bind.note (.selected strategy.name r.type)
      if ← Bind.enter r.path.render then
        let outcome ← b.settle (b.run n) r (← (b.delegate strategy r).exec (b.run n))
        Bind.leave r.path.render
        return outcome
      else b.recover (b.run n) r (.recursive r.path.render)

def references (n : Node) : List String :=
  (n.texts.flatMap fun text => (Text.Template.parse text.toList).references).eraseDups

/-- How deep binds of the built-in strategies nest in a tree: between two references a bind goes
down the tree, and no reference is followed twice. -/
def nestingBound (n : Node) : Nat := ((references n).length + 1) * (n.depth + 2) + 1

/-- The nesting allowed to a request.  Every strategy that is not built in may lead to one more path
and go down by a step of its own wherever a built-in one goes down, and a policy may bind once
more. -/
def allowance (b : Binder) (r : Request) : Nat :=
  let custom := b.strategies.length - Strategy.builtin.length
  let jumps := (references b.source).length + (references r.source).length + custom + 1
  let steps := (max b.source.depth r.source.depth + 2) * (custom + 1)
  2 * (jumps * steps + 1)

/-- Binds a request; without result if that nests deeper than is allowed. -/
def bind? (b : Binder) (r : Request) : Option Run :=
  (b.run (b.allowance r) r ⟨b.inFlight, []⟩).map fun (outcome, s) =>
    ⟨outcome, { b with inFlight := s.inFlight }, s.events.reverse⟩

def bindTarget? (b : Binder) (path : Path) (target : Target) : Option Run :=
  b.bind? ⟨path, target, b.source, b.policy⟩

def bindIn? (b : Binder) (source : Node) (path : Path) (t : TypeRef) : Option Run :=
  b.bind? ⟨path, .ofType t, source, .propagate⟩

def bindWith? (b : Binder) (path : Path) (t : TypeRef) (policy : FailurePolicy) : Option Run :=
  let b := b.register t
  (b.bind? ⟨path, .ofType t, b.source, policy⟩).map fun run =>
    { run with outcome := run.outcome.cast t }

def bindPath? (b : Binder) (path : Path) (t : TypeRef) : Option Run := b.bindWith? path t b.policy

/-- Binds a path into an instance, whose type is registered first.  Without data the instance is the
outcome. -/
def bindInto? (b : Binder) (path : Path) (target : Value) : Option Run :=
  let b := b.register target.type
  if b.source.contains path then
    (b.bindTarget? path ((Target.ofType target.type).withInstance target)).map fun run =>
      { run with outcome := run.outcome.cast target.type }
  else some ⟨.present target, b, []⟩

/-- Converts the data at a path through the binder itself, without a strategy. -/
def bindValue (b : Binder) (path : Path) (t : TypeRef) : Outcome Value :=
  b.context.bindValue ⟨path, .ofType t, b.source, .propagate⟩

def describe (b : Binder) : String :=
  let mode :=
    match b.mode with
    | .deep => "Deep"
    | .shallow => "Shallow"
  "Binder \x7b source: DataSource \x7b root: " ++ b.source.describe ++ " \x7d, strategy: " ++
    mode ++ ", registered: " ++ toString b.registry.size ++ ", binders: [" ++
    ", ".intercalate (b.strategies.map fun s => Text.quoted s.name) ++ "], in_flight: " ++
    toString b.inFlight.length ++ " \x7d"

end Binder

end ConfigBind
