import ConfigBind.Bind.Binder
import ConfigBind.Proofs.Bind.Errors
import ConfigBind.Proofs.Path.Brackets

/-!
# Binding nodes directly

`Direct.bind` binds a node to a type without paths and without a record of what is in flight: it
goes down the tree and hands every element, entry, component or property its node.  It has no result
if it descends further than it is allowed to.

Its errors are `BindError.bare`: nothing wraps them and they name no paths.
-/

namespace ConfigBind

namespace BindError

mutual

/-- What went wrong, without the wrappers around it and without paths. -/
def bare : BindError → BindError
  | recursive _ => recursive ""
  | missingElement _ => missingElement ""
  | unaddressableKey _ key => unaddressableKey "" key
  | members type errors => members type (bareAll errors)
  | failed _ _ cause => cause.bare
  | e => e

def bareAll : List BindError → List BindError
  | [] => []
  | e :: rest => e.bare :: bareAll rest

end

theorem bareAll_append (xs ys : List BindError) :
    bareAll (xs ++ ys) = bareAll xs ++ bareAll ys := by
  induction xs with
  | nil => rfl
  | cons e rest ih => rw [List.cons_append, bareAll, bareAll, ih, List.cons_append]

theorem isEmpty_bareAll (errors : List BindError) :
    (bareAll errors).isEmpty = errors.isEmpty := by
  cases errors <;> rfl

theorem code_bare : (e : BindError) → e.bare.code = e.rootCause.code
  | failed _ _ cause => by
    rw [bare, rootCause]
    exact code_bare cause
  | recursive _ | conversion _ | instantiation .. | unsupportedSource _ | unregisteredType _
  | noStrategy _ | unsupported _ | missing | missingElement _ | unaddressableKey .. | build _
  | kind _ | members .. => rfl

end BindError

/-- The outcome, with what went wrong laid bare. -/
def Outcome.bare {α : Type} (o : Outcome α) : Except BindError (Option α) :=
  o.toExcept.mapError BindError.bare

namespace Direct

/-- What binding a node comes to; without result if it descends too far. -/
abbrev Result := ExceptT BindError Option

/-- A way to bind a node, if there is one, to a type, into an instance if there is one. -/
abbrev Binding := TypeRef → Option Value → Option Node → Result (Option Value)

def convert (b : Binder) (n : Node) (t : TypeRef) : Result Value :=
  match b.conversion.convert n t with
  | .ok value => return value
  | .error e => throw (.conversion e)

def convertWhole (b : Binder) (n : Node) (t : TypeRef) : Result (Option Value) := do
  if b.conversion.canConvert t then return some (← convert b n t)
  else throw (Context.unfit n t)

def ofBuild {α : Type} : Except BuildError α → Result α
  | .ok value => return value
  | .error e => throw (.build e)

def isLeaf (b : Binder) (t : TypeRef) : Result Bool :=
  match b.registry.get? t with
  | some d => return d.kind.isLeaf
  | none => throw (.unregisteredType t.name)

def skips (b : Binder) (t : TypeRef) : Result Bool :=
  match b.mode with
  | .shallow => do return !(← isLeaf b t)
  | .deep => return false

/-- Binds elements; `hole` decides about one that is bound to nothing. -/
def elements (bind : Binding) (item : TypeRef) (hole : Result Unit) :
    List Node → Result (List Value)
  | [] => return []
  | n :: rest => do
    match ← bind item none (some n) with
    | some value => return value :: (← elements bind item hole rest)
    | none =>
      hole
      elements bind item hole rest

def collection (bind : Binding) (d : Descriptor) (into : Option Value) (item : TypeRef)
    (hole : Result Unit) (n : Node) : Result (Option Value) := do
  match n.items? with
  | none => throw (Context.unfit n d.type)
  | some items =>
    return some (← ofBuild (d.collect into (← elements bind item hole items)))

def entries (bind : Binding) (value : TypeRef) (nodes : List (String × Node)) :
    List String → Result (List (String × Value))
  | [] => return []
  | key :: rest => do
    if Balanced key.toList then
      match ← bind value none (Entries.get? key nodes) with
      | some v => return (key, v) :: (← entries bind value nodes rest)
      | none => entries bind value nodes rest
    else throw (.unaddressableKey "" key)

/-- The node that a name stands for below a node. -/
def member? (separator : Char) (n : Node) (name : String) : Option Node :=
  n.follow? (Path.parseWith separator name).segments

def components (b : Binder) (separator : Char) (bind : Binding) (n : Node) :
    List Component → Components → List BindError → Result (Components × List BindError)
  | [], values, errors => return (values, errors)
  | c :: rest, values, errors => do
    if ← skips b c.type then components b separator bind n rest values errors
    else
      match ← ExceptT.lift (bind c.type none (member? separator n c.name)).run with
      | .ok (some value) =>
        components b separator bind n rest (values.insert c.name value) errors
      | .ok none => components b separator bind n rest values errors
      | .error e => components b separator bind n rest values (errors ++ [e])

def properties (b : Binder) (separator : Char) (bind : Binding) (n : Node) :
    List Property → Value → List BindError → Result (Value × List BindError)
  | [], target, errors => return (target, errors)
  | p :: rest, target, errors => do
    let leaf ← isLeaf b p.type
    if b.mode = .shallow ∧ !leaf then properties b separator bind n rest target errors
    else
      let current := if leaf then none else p.get? target
      match ← ExceptT.lift (bind p.type current (member? separator n p.bindingName)).run with
      | .ok (some value) =>
        match p.set target value with
        | .ok target => properties b separator bind n rest target errors
        | .error e => properties b separator bind n rest target (errors ++ [.build e])
      | .ok none => properties b separator bind n rest target errors
      | .error e => properties b separator bind n rest target (errors ++ [e])

def start (d : Descriptor) (into : Option Value) : Result Value :=
  match into with
  | some value => return value
  | none =>
    match d.instantiate with
    | .ok value => return value
    | .error e => throw (.instantiation d.type.name e)

/-- Binds a node to a type, given how its parts are bound. -/
def node (b : Binder) (separator : Char) (bind : Binding) (d : Descriptor) (into : Option Value)
    (n : Node) : Result (Option Value) := do
  match d.shape with
  | .scalar | .object => return some (← convert b n d.type)
  | .list item | .set item => collection bind d into item (pure ()) n
  | .array item _ => collection bind d none item (throw (.missingElement "")) n
  | .map value =>
    match n.entries? with
    | none => throw (Context.unfit n d.type)
    | some nodes =>
      let bound ← entries bind value nodes (nodes.map (·.1))
      return some (← ofBuild (d.collectEntries into bound))
  | .record members _ =>
    if n.isMap then
      let (values, errors) ← components b separator bind n members (.empty d.type.name) []
      if !errors.isEmpty then throw (.members d.type.name errors)
      match d.construct values with
      | .ok value => return some value
      | .error e => throw (.instantiation d.type.name e)
    else convertWhole b n d.type
  | .bean .. =>
    if n.isMap then
      let target ← start d into
      let (value, errors) ← properties b separator bind n d.writableProperties target []
      if !errors.isEmpty then throw (.members d.type.name errors)
      return some value
    else convertWhole b n d.type

/-- Binds a node, descending so many levels at most.  Where there is no data nothing is bound. -/
def bind (b : Binder) (separator : Char) : (levels : Nat) → Binding
  | 0, _, _, _ => ExceptT.mk none
  | levels + 1, t, into, n? =>
    match b.registry.get? t with
    | none => throw (.unregisteredType t.name)
    | some d =>
      match n?.filter (!·.isNull) with
      | none => return none
      | some n => node b separator (bind b separator levels) d into n

end Direct

end ConfigBind
