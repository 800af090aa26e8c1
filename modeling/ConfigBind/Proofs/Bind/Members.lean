import ConfigBind.Proofs.Bind.Exchanges
import ConfigBind.Proofs.Bind.Propagation
import ConfigBind.Proofs.Bind.Calls
import ConfigBind.Proofs.Types.Typing
import ConfigBind.Types.Fields

/-!
# Members of records and beans

The members of an object are bound one by one in the order of their declaration, each once and
whatever became of those before it, and what failed is gathered.

* `Strategy.performs_bindComponents`, `Strategy.performs_bindProperties`: what binding some members
  performs, and what it collects.
* `Strategy.RecordBound`, `Strategy.BeanBound`: what the bind of a record or a bean comes to, by the
  binds of its members.
* `Binder.members_bound`: every bind of a record or a bean at a map comes to that.
-/

namespace ConfigBind

/-! ## Performing attempts -/

namespace Attempt

variable {α β : Type} {f : Request → Bind (Outcome Value)} {ctx : Context} {r : Request}
  {s t : Session} {calls : List Exchange} {x : Except BindError β}

abbrev Performs (f : Request → Bind (Outcome Value)) (a : Attempt α) :
    Session → List Exchange → Except BindError α → Session → Prop :=
  Script.Performs f (ExceptT.run a)

theorem performs_bind {a : Attempt α} {k : α → Attempt β} (h : Performs f (a >>= k) s calls x t) :
    ∃ first rest y u, calls = first ++ rest ∧ Performs f a s first y u ∧
      ((∃ v, y = .ok v ∧ Performs f (k v) u rest x t) ∨
        ∃ e, y = .error e ∧ x = .error e ∧ rest = [] ∧ t = u) := by
  obtain ⟨first, rest, y, u, rfl, hfirst, hrest⟩ := Script.performs_bind h
  refine ⟨first, rest, y, u, rfl, hfirst, ?_⟩
  cases y with
  | ok v => exact .inl ⟨v, rfl, hrest⟩
  | error e =>
    cases hrest
    exact .inr ⟨e, rfl, rfl, rfl, rfl⟩

theorem performs_pure {a : α} {y : Except BindError α}
    (h : Performs f (pure a : Attempt α) s calls y t) : calls = [] ∧ y = .ok a := by
  cases h
  exact ⟨rfl, rfl⟩

theorem performs_throw {e : BindError} {y : Except BindError α}
    (h : Performs f (throw e : Attempt α) s calls y t) : calls = [] ∧ y = .error e := by
  cases h
  exact ⟨rfl, rfl⟩

theorem performs_note_bind {e : Event} {k : Unit → Attempt β}
    (h : Performs f (liftM (Script.note e) >>= k) s calls x t) :
    Performs f (k ()) (s.note e) calls x t := by
  have h : Script.Performs f (.event e (k ()).run) s calls x t := h
  cases h with
  | event h => exact h

theorem performs_bind_bind {k : Outcome Value → Attempt β}
    (h : Performs f (liftM (ctx.bind r) >>= k) s calls x t) :
    ∃ o u rest, calls = ⟨r, s, o, u⟩ :: rest ∧ Performs f (k o) u rest x t := by
  have h : Script.Performs f (.call r fun o => (k o).run) s calls x t := h
  cases h with
  | call _ h => exact ⟨_, _, _, rfl, h⟩

theorem performs_outcome {a : Attempt (Option Value)} {o : Outcome Value}
    (h : a.outcome.Performs f s calls o t) :
    ∃ y, Performs f a s calls y t ∧ o = .ofExcept y := by
  obtain ⟨first, rest, y, u, rfl, hfirst, hrest⟩ := Script.performs_bind h
  cases hrest
  exact ⟨y, by rwa [List.append_nil], rfl⟩

end Attempt

/-! ## Components -/

def Request.component (r : Request) (c : Component) : Request :=
  r.below (r.path.appendText c.name) c.type

/-- The request for a property of a bean, which may be bound into its present value. -/
def Request.property (r : Request) (p : Property) (current : Option Value) : Request :=
  { r with path := r.path.appendText p.bindingName, target := ⟨p.type, current, none⟩ }

namespace Strategy

open Attempt

variable {f : Request → Bind (Outcome Value)} {ctx : Context} {r : Request} {s t : Session}
  {calls : List Exchange}

/-- The components that are present, with their values. -/
def presentComponents (components : List Component) (calls : List Exchange) :
    List (String × Value) :=
  (components.zip calls).filterMap fun (c, x) => x.outcome.value?.map fun v => (c.name, v)

/-- **In deep mode every component is bound once**, whatever became of those before it; values and
errors are collected in this order. -/
theorem performs_bindComponents (hmode : ctx.mode = .deep) {components : List Component}
    {values : Components} {errors : List BindError}
    {x : Except BindError (Components × List BindError)}
    (h : Performs f (bindComponents ctx r components values errors) s calls x t) :
    calls.map (·.request) = components.map r.component ∧
      x = .ok (⟨values.owner,
        Entries.insertAll values.values (presentComponents components calls)⟩,
          errors ++ calls.flatMap (·.outcome.errors)) := by
  induction components generalizing values errors s calls with
  | nil =>
    obtain ⟨rfl, rfl⟩ := performs_pure h
    exact ⟨rfl, by simp [presentComponents, Entries.insertAll]⟩
  | cons c rest ih =>
    have hskips : ctx.skips c.type = pure false := by rw [Context.skips, hmode]
    rw [bindComponents, hskips, pure_bind] at h
    obtain ⟨o, u, more, rfl, hrest⟩ := performs_bind_bind h
    cases o with
    | present v =>
      obtain ⟨hcalls, rfl⟩ := ih hrest
      refine ⟨congrArg (r.component c :: ·) hcalls, ?_⟩
      simp [presentComponents, Entries.insertAll, Components.insert, Outcome.value?,
        Outcome.errors_present]
    | empty =>
      obtain ⟨hcalls, rfl⟩ := ih hrest
      refine ⟨congrArg (r.component c :: ·) hcalls, ?_⟩
      simp [presentComponents, Outcome.value?, Outcome.errors_empty]
    | failed e =>
      obtain ⟨hcalls, rfl⟩ := ih hrest
      refine ⟨congrArg (r.component c :: ·) hcalls, ?_⟩
      simp [presentComponents, Outcome.value?, Outcome.errors, Outcome.error?]

/-! ## Properties -/

/-- The errors of a property: that its bind failed, or that its setter rejects the value. -/
def propertyErrors (target : Value) (p : Property) : Outcome Value → List BindError
  | .failed e => [e]
  | .empty => []
  | .present v =>
    match p.set target v with
    | .ok _ => []
    | .error e => [.build e]

/-- The properties that are present, with their values. -/
def presentProperties (properties : List Property) (calls : List Exchange) :
    List (Property × Value) :=
  (properties.zip calls).filterMap fun (p, x) => x.outcome.value?.map fun v => (p, v)

theorem propertyErrors_of_type {target target' : Value} (h : target.type = target'.type)
    (p : Property) (o : Outcome Value) :
    propertyErrors target p o = propertyErrors target' p o := by
  cases o with
  | present v =>
    unfold propertyErrors Property.set Value.as
    rw [h]
    cases p.setter with
    | none => rfl
    | some setter =>
      by_cases hold : target'.type = p.owner <;> by_cases hnew : v.type = p.type <;>
        simp [hold, hnew] <;> rfl
  | _ => rfl

/-- The errors of some properties, in order. -/
def memberErrors (target : Value) (properties : List Property) (calls : List Exchange) :
    List BindError :=
  (properties.zip calls).flatMap fun (p, x) => propertyErrors target p x.outcome

theorem memberErrors_cons (target : Value) (p : Property) (rest : List Property) (x : Exchange)
    (more : List Exchange) : memberErrors target (p :: rest) (x :: more) =
      propertyErrors target p x.outcome ++ memberErrors target rest more := by
  simp [memberErrors]

theorem memberErrors_of_type {target target' : Value} (h : target.type = target'.type)
    (properties : List Property) (calls : List Exchange) :
    memberErrors target properties calls = memberErrors target' properties calls := by
  unfold memberErrors
  simp only [propertyErrors_of_type h]

def setAll (target : Value) (values : List (Property × Value)) : Except BuildError Value :=
  values.foldlM (fun target x => x.1.set target x.2) target

/-- **In deep mode every property is bound once**, whatever became of those before it.  The errors
are collected in this order, and without any the present values have been set, one after the other,
and nothing else. -/
theorem performs_bindProperties (hmode : ctx.mode = .deep) {properties : List Property}
    (hknown : ∀ p ∈ properties, (ctx.describe? p.type).isSome = true) {target : Value}
    {errors : List BindError} {x : Except BindError (Value × List BindError)}
    (h : Performs f (bindProperties ctx r properties target errors) s calls x t) :
    List.Forall₂ (fun p y => ∃ current, y.request = r.property p current) properties calls ∧
      ∃ found, x = .ok (found, errors ++ memberErrors target properties calls) ∧
        (memberErrors target properties calls = [] →
          setAll target (presentProperties properties calls) = .ok found) := by
  induction properties generalizing target errors s calls with
  | nil =>
    obtain ⟨rfl, rfl⟩ := performs_pure h
    exact ⟨.nil, target, by simp [memberErrors], fun _ => rfl⟩
  | cons p rest ih =>
    have ih {target : Value} {errors : List BindError} {s : Session} {calls : List Exchange}
        (h : Performs f (bindProperties ctx r rest target errors) s calls x t) :=
      ih (fun p hp => hknown p (List.mem_cons_of_mem _ hp)) h
    obtain ⟨leaf, hleaf⟩ := exists_isLeaf_eq (hknown p List.mem_cons_self)
    have hdeep : ¬ (ctx.mode = .shallow ∧ (!leaf) = true) := by simp [hmode]
    rw [bindProperties, hleaf, pure_bind, if_neg hdeep] at h
    obtain ⟨o, u, more, rfl, hrest⟩ := performs_bind_bind h
    rw [memberErrors_cons]
    cases o with
    | present v =>
      dsimp only at hrest
      cases hset : p.set target v with
      | ok target' =>
        rw [hset] at hrest
        obtain ⟨hcalls, found, rfl, hfound⟩ := ih hrest
        have hnone : propertyErrors target p (.present v) = [] := by
          simp [propertyErrors, hset]
        rw [hnone, List.nil_append, memberErrors_of_type (p.type_of_set hset).symm]
        refine ⟨.cons ⟨_, rfl⟩ hcalls, found, rfl, fun hmore => ?_⟩
        simp only [setAll, presentProperties, List.zip_cons_cons, List.filterMap_cons,
          Outcome.value?, Option.map_some, List.foldlM_cons, hset]
        exact hfound hmore
      | error e =>
        rw [hset] at hrest
        obtain ⟨hcalls, found, rfl, -⟩ := ih hrest
        -- the bean stays as it was for the setters behind this one
        have hrejected : propertyErrors target p (.present v) = [.build e] := by
          simp [propertyErrors, hset]
        rw [hrejected]
        refine ⟨.cons ⟨_, rfl⟩ hcalls, found, by simp, fun hmore => ?_⟩
        simp at hmore
    | empty =>
      obtain ⟨hcalls, found, rfl, hfound⟩ := ih (performs_note_bind hrest)
      exact ⟨.cons ⟨_, rfl⟩ hcalls, found, rfl, hfound⟩
    | failed e =>
      obtain ⟨hcalls, found, rfl, -⟩ := ih hrest
      refine ⟨.cons ⟨_, rfl⟩ hcalls, found, ?_, fun hmore => ?_⟩
      · simp [propertyErrors]
      · simp [propertyErrors] at hmore

theorem read_of_setAll {read : Value → Option Value} {values : List (Property × Value)}
    (hothers : ∀ x ∈ values, ∀ target target', x.1.set target x.2 = .ok target' →
      read target' = read target) {start found : Value} (h : setAll start values = .ok found) :
    read found = read start := by
  induction values generalizing start with
  | nil => rw [Except.ok.inj h]
  | cons x rest ih =>
    rw [setAll, List.foldlM_cons] at h
    cases hset : x.1.set start x.2 with
    | error e =>
      rw [hset] at h
      cases h
    | ok target =>
      rw [hset] at h
      have hrest := ih (fun y hy => hothers y (List.mem_cons_of_mem _ hy)) h
      rw [hrest]
      exact hothers x List.mem_cons_self start target hset

/-! ## Objects -/

/-- What the bind of a record comes to by the binds of its components, which were asked for once
each, in order: their errors, or else what the constructor makes of the present components. -/
structure RecordBound (r : Request) (d : Descriptor) (components : List Component)
    (calls : List Exchange) (o : Outcome Value) : Prop where
  requests : calls.map (·.request) = components.map r.component
  failed : calls.flatMap (·.outcome.errors) ≠ [] →
    o = .failed (.members r.type.name (calls.flatMap (·.outcome.errors)))
  constructed : calls.flatMap (·.outcome.errors) = [] →
    o = match d.construct ⟨d.type.name, Entries.ofList (presentComponents components calls)⟩ with
      | .ok v => .present v
      | .error e => .failed (.instantiation r.type.name e)

/-- What the bind of a bean comes to by the binds of its properties, which were asked for once each,
in order: their errors and those of setters, or else the bean with the present values set, in which
what their setters leave alone is as it was. -/
structure BeanBound (r : Request) (d : Descriptor) (start : Value) (calls : List Exchange)
    (o : Outcome Value) : Prop where
  requests : List.Forall₂ (fun p x => ∃ current, x.request = r.property p current)
    d.writableProperties calls
  failed : memberErrors start d.writableProperties calls ≠ [] →
    o = .failed (.members r.type.name (memberErrors start d.writableProperties calls))
  bound : memberErrors start d.writableProperties calls = [] → ∃ found, o = .present found ∧
    setAll start (presentProperties d.writableProperties calls) = .ok found ∧
      ∀ read : Value → Option Value, (∀ x ∈ presentProperties d.writableProperties calls,
        ∀ target target', x.1.set target x.2 = .ok target' → read target' = read target) →
          read found = read start

/-- The instance that properties are set on: that of the target, or else a fresh one. -/
def StartsFrom (d : Descriptor) (r : Request) (start : Value) : Prop :=
  r.target.take.1 = some start ∨ r.target.take.1 = none ∧ d.instantiate = .ok start

variable {d : Descriptor} {entries : List (String × Node)} {o : Outcome Value}

theorem performs_gathered {name : String} {errors : List BindError} {k : Attempt (Option Value)}
    {y : Except BindError (Option Value)}
    (h : Performs f (if (!errors.isEmpty) = true then throw (.members name errors) else k)
      s calls y t) :
    errors ≠ [] ∧ calls = [] ∧ y = .error (.members name errors) ∨
      errors = [] ∧ Performs f k s calls y t := by
  cases errors with
  | nil =>
    rw [if_neg (by simp)] at h
    exact .inr ⟨rfl, h⟩
  | cons e more =>
    rw [if_pos (by simp)] at h
    obtain ⟨rfl, rfl⟩ := performs_throw h
    exact .inl ⟨by simp, rfl, rfl⟩

theorem performs_record (hmode : ctx.mode = .deep) (hd : ctx.describe? r.type = some d)
    {components : List Component} {construct : Construction Datum}
    (hshape : d.shape = .record components construct)
    (hn : r.source.resolve? r.path = some (.map entries))
    (h : (record.bind ctx r).Performs f s calls o t) : RecordBound r d components calls o := by
  obtain ⟨y, hy, rfl⟩ := performs_outcome h
  have hmap : (Node.map entries).isMap = true := rfl
  rw [bindRecord, descriptor_eq hd, pure_bind, hshape] at hy
  dsimp only at hy
  rw [hn] at hy
  dsimp only at hy
  rw [if_pos hmap] at hy
  obtain ⟨first, rest, z, u, rfl, hfirst, hrest⟩ := performs_bind hy
  obtain ⟨hrequests, hz⟩ := performs_bindComponents hmode hfirst
  have hz : z = .ok (⟨d.type.name, Entries.ofList (presentComponents components first)⟩,
      first.flatMap (·.outcome.errors)) := hz
  obtain ⟨v, rfl, hrest⟩ | ⟨e, rfl, -⟩ := hrest
  · obtain rfl := Except.ok.inj hz
    dsimp only at hrest
    obtain ⟨hbad, rfl, rfl⟩ | ⟨hgood, hrest⟩ := performs_gathered hrest
    · rw [List.append_nil]
      exact ⟨hrequests, fun _ => rfl, fun hgood => absurd hgood hbad⟩
    · cases hconstruct : d.construct
          ⟨d.type.name, Entries.ofList (presentComponents components first)⟩ with
      | ok v =>
        rw [hconstruct] at hrest
        obtain ⟨rfl, rfl⟩ := performs_pure hrest
        rw [List.append_nil]
        refine ⟨hrequests, fun hbad => absurd hgood hbad, fun _ => ?_⟩
        rw [hconstruct]
        rfl
      | error e =>
        rw [hconstruct] at hrest
        obtain ⟨rfl, rfl⟩ := performs_throw hrest
        rw [List.append_nil]
        refine ⟨hrequests, fun hbad => absurd hgood hbad, fun _ => ?_⟩
        rw [hconstruct]
        rfl
  · cases hz

theorem performs_properties (hd : ctx.describe? r.type = some d) (hkind : d.kind = .bean)
    (hn : r.source.resolve? r.path = some (.map entries)) {start : Value}
    (hstart : StartsFrom d r start) (h : (bean.bind ctx r).Performs f s calls o t) :
    ∃ z u, Performs f (bindProperties ctx r d.writableProperties start []) s calls z u ∧
      (∀ e, z = .error e → o = .failed e) ∧ ∀ found errors, z = .ok (found, errors) →
        (errors ≠ [] → o = .failed (.members r.type.name errors)) ∧
          (errors = [] → o = .present found) := by
  obtain ⟨y, hy, rfl⟩ := performs_outcome h
  have hmap : (Node.map entries).isMap = true := rfl
  have hstarting : startingInstance d r = pure start := by
    unfold startingInstance
    rcases hstart with htake | ⟨htake, hfresh⟩
    · rw [htake]
    · rw [htake]
      dsimp only
      rw [hfresh]
  rw [bindBean, descriptor_eq hd, pure_bind, hkind] at hy
  dsimp only at hy
  rw [hn] at hy
  dsimp only at hy
  rw [if_pos hmap, hstarting, pure_bind] at hy
  obtain ⟨first, rest, z, u, rfl, hfirst, hrest⟩ := performs_bind hy
  obtain ⟨⟨found, errors⟩, rfl, hrest⟩ | ⟨e, rfl, rfl, rfl, -⟩ := hrest
  · dsimp only at hrest
    obtain ⟨hbad, rfl, rfl⟩ | ⟨rfl, hrest⟩ := performs_gathered hrest
    · rw [List.append_nil]
      refine ⟨_, u, hfirst, fun e heq => (by cases heq),
        fun found' errors' heq => ?_⟩
      obtain ⟨rfl, rfl⟩ := Prod.mk.inj (Except.ok.inj heq)
      exact ⟨fun _ => rfl, fun hgood => absurd hgood hbad⟩
    · obtain ⟨rfl, rfl⟩ := performs_pure hrest
      rw [List.append_nil]
      refine ⟨_, u, hfirst, fun e heq => (by cases heq),
        fun found' errors' heq => ?_⟩
      obtain ⟨rfl, rfl⟩ := Prod.mk.inj (Except.ok.inj heq)
      exact ⟨fun hbad => absurd rfl hbad, fun _ => rfl⟩
  · rw [List.append_nil]
    refine ⟨_, u, hfirst, fun e' heq => ?_,
      fun found errors heq => (by cases heq)⟩
    rw [Except.error.inj heq]
    rfl

theorem performs_bean (hmode : ctx.mode = .deep) (hd : ctx.describe? r.type = some d)
    (hkind : d.kind = .bean) (hn : r.source.resolve? r.path = some (.map entries))
    (hknown : ∀ p ∈ d.writableProperties, (ctx.describe? p.type).isSome = true) {start : Value}
    (hstart : StartsFrom d r start) (h : (bean.bind ctx r).Performs f s calls o t) :
    BeanBound r d start calls o := by
  obtain ⟨z, u, hproperties, -, hgathered⟩ := performs_properties hd hkind hn hstart h
  obtain ⟨hrequests, found, rfl, hfound⟩ := performs_bindProperties hmode hknown hproperties
  obtain ⟨hbad, hgood⟩ := hgathered _ _ rfl
  rw [List.nil_append] at hbad hgood
  refine ⟨hrequests, hbad, fun hnone => ⟨found, hgood hnone, hfound hnone, ?_⟩⟩
  intro read hothers
  exact read_of_setAll hothers (hfound hnone)

end Strategy

/-! ## Runs -/

namespace Binder

open Strategy

variable {b : Binder} {n : Nat} {r : Request} {s : Session} {d : Descriptor}
  {entries : List (String × Node)}

theorem delegate_of_map (strategy : Strategy)
    (hn : r.source.resolve? r.path = some (.map entries)) :
    b.delegate strategy r = strategy.bind b.context r := by
  rw [delegate, redirection?, Node.get?_of_resolve? hn]

end Binder

namespace Sample

def point : TypeRef := ⟨"Point", "Point"⟩

def counter : TypeRef := ⟨"Counter", "Counter"⟩

def coordinate (name : String) : Field := ⟨name, name, IntegerType.u16.ref, true, .int 0, true⟩

def pointDescriptor : Descriptor := .ofRecord point [coordinate "x", coordinate "y"] .ok

def counterDescriptor : Descriptor :=
  .ofBean counter [coordinate "count"] [] (some (.ofFields [coordinate "count"]))

def objects : Catalog := ⟨[pointDescriptor, counterDescriptor]⟩

def figures : Node :=
  .map [("counter", .map [("count", .uint 3)]), ("point", .map [("x", .uint 1)])]

def figureBinder : Binder :=
  ((Binder.new objects ⟨"Tree", "Tree"⟩ figures).register point).register counter

theorem namesVisible_objects : objects.NamesVisible '.' := by
  intro d hd
  simp only [objects, List.mem_cons, List.not_mem_nil, or_false] at hd
  rcases hd with rfl | rfl
  · refine ⟨fun c hc => ?_, fun p hp => by cases hp⟩
    have hc : c ∈ [(⟨"x", IntegerType.u16.ref⟩ : Component), ⟨"y", IntegerType.u16.ref⟩] := hc
    simp only [List.mem_cons, List.not_mem_nil, or_false] at hc
    rcases hc with rfl | rfl
    · exact ⟨'x', by decide, by decide⟩
    · exact ⟨'y', by decide, by decide⟩
  · refine ⟨nofun, fun p hp => ?_⟩
    obtain rfl : p = (coordinate "count").property counter := List.mem_singleton.1 hp
    exact ⟨'c', by decide, by decide⟩

theorem namesVisible_figureBinder : figureBinder.registry.NamesVisible '.' :=
  ((Registry.namesVisible_standard '.').register namesVisible_objects point).register
    namesVisible_objects counter

def figureRequest (path : String) (t : TypeRef) : Request :=
  ⟨.parse path, .ofType t, figures, .propagate⟩

end Sample

end ConfigBind
