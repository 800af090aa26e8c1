import ConfigBind.Proofs.Bind.Instances

/-!
# Shallow binding

A shallow binder skips the members of records and beans that are no leaves.  It does what a deep
binder would do over a registry without these members (`Registry.pruned`), and notes the members
that it skips.  The mode is asked for each member in turn, while the members are missing from a
pruned descriptor from the start, so the two are compared script by script: `Script.Hushes` is that
one script is another without some of its notes of skipped members.

* `Strategy.bind_hushes`: every built-in strategy does in shallow mode what it does in deep mode
  over pruned descriptors, but for these notes.
* `Binder.run_shallow`: so does every run, whatever is in flight and whatever policies decide.
* `Binder.shallow_binds_leaves`: so do all ways to bind.
-/

namespace ConfigBind

/-! ## Pruned descriptors -/

namespace Shape

/-- The shape without the members that are no leaves. -/
def pruned (leaf : TypeRef → Bool) : Shape → Shape
  | record components construct => record (components.filter fun c => leaf c.type) construct
  | bean properties factory => bean (properties.filter fun p => leaf p.type) factory
  | shape => shape

@[simp] theorem kind_pruned (leaf : TypeRef → Bool) (s : Shape) :
    (s.pruned leaf).kind = s.kind := by
  cases s <;> rfl

theorem dependencies_pruned_subset (leaf : TypeRef → Bool) (s : Shape) :
    (s.pruned leaf).dependencies ⊆ s.dependencies := by
  cases s with
  | record components construct => exact List.map_subset _ List.filter_sublist.subset
  | bean properties factory => exact List.map_subset _ List.filter_sublist.subset
  | _ => exact List.Subset.refl _

end Shape

namespace Descriptor

variable {leaf : TypeRef → Bool} {d : Descriptor}

def pruned (leaf : TypeRef → Bool) (d : Descriptor) : Descriptor :=
  { d with shape := d.shape.pruned leaf }

@[simp] theorem kind_pruned : (d.pruned leaf).kind = d.kind := Shape.kind_pruned leaf d.shape

theorem components_pruned :
    (d.pruned leaf).components = d.components.filter fun c => leaf c.type := by
  obtain ⟨t, shape⟩ := d
  cases shape <;> rfl

theorem properties_pruned :
    (d.pruned leaf).properties = d.properties.filter fun p => leaf p.type := by
  obtain ⟨t, shape⟩ := d
  cases shape <;> rfl

theorem writableProperties_pruned :
    (d.pruned leaf).writableProperties = d.writableProperties.filter fun p => leaf p.type := by
  rw [writableProperties, properties_pruned, writableProperties, List.filter_filter,
    List.filter_filter]
  exact List.filter_congr fun p _ => Bool.and_comm ..

theorem item?_pruned : (d.pruned leaf).item? = d.item? := by
  obtain ⟨t, shape⟩ := d
  cases shape <;> rfl

theorem instantiate_pruned : (d.pruned leaf).instantiate = d.instantiate := by
  obtain ⟨t, shape⟩ := d
  cases shape with
  | bean properties factory => cases factory <;> rfl
  | _ => rfl

end Descriptor

namespace Registry

variable {r : Registry} {d : Descriptor} {t : TypeRef}

def isLeaf (r : Registry) (t : TypeRef) : Bool := (r.get? t).any (·.kind.isLeaf)

/-- The registry with the members of records and beans that are leaves, and no others. -/
def pruned (r : Registry) : Registry := { r with types := r.types.map (·.pruned r.isLeaf) }

theorem get?_pruned (r : Registry) (t : TypeRef) :
    r.pruned.get? t = (r.get? t).map (·.pruned r.isLeaf) := by
  rw [get?, pruned, List.find?_map]
  rfl

theorem contains_pruned (r : Registry) (t : TypeRef) : r.pruned.contains t = r.contains t := by
  rw [contains_eq_isSome, contains_eq_isSome, get?_pruned, Option.isSome_map]

theorem Closed.pruned (h : r.Closed) : r.pruned.Closed := by
  intro t d hd u hu
  rw [get?_pruned] at hd
  obtain ⟨e, he, rfl⟩ := Option.map_eq_some_iff.1 hd
  rw [get?_pruned, Option.isSome_map]
  exact h t e he u (Shape.dependencies_pruned_subset _ e.shape hu)

end Registry

/-! ## Notes of skipped members -/

/-- Whether the event is that a member is skipped. -/
def Event.isSkipped : Event → Bool
  | skippedComponent .. | skippedProperty .. => true
  | _ => false

/-- The session without its notes of skipped members. -/
def Session.quiet (s : Session) : Session :=
  { s with events := s.events.filter (!·.isSkipped) }

namespace Session

variable {s t : Session}

theorem quiet_note_of_isSkipped {e : Event} (he : e.isSkipped = true) (s : Session) :
    (s.note e).quiet = s.quiet := by
  simp [quiet, note, he]

theorem quiet_note (h : s.quiet = t.quiet) (e : Event) : (s.note e).quiet = (t.note e).quiet := by
  obtain ⟨hflight, hevents⟩ := Session.mk.inj h
  simp [quiet, note, hflight, List.filter_cons, hevents]

theorem inFlight_eq_of_quiet (h : s.quiet = t.quiet) : s.inFlight = t.inFlight :=
  (Session.mk.inj h).1

theorem quiet_enter (h : s.quiet = t.quiet) (path : String) :
    (s.enter path).quiet = (t.enter path).quiet := by
  refine quiet_note ?_ _
  obtain ⟨hflight, hevents⟩ := Session.mk.inj h
  simp [quiet, hflight, hevents]

theorem quiet_leave (h : s.quiet = t.quiet) (path : String) :
    (s.leave path).quiet = (t.leave path).quiet := by
  obtain ⟨-, hevents⟩ := Session.mk.inj (quiet_note h (.left path))
  simp only [leave, quiet, inFlight_eq_of_quiet h, hevents]

theorem asked_eq_of_quiet (h : s.quiet = t.quiet) : s.asked = t.asked := by
  have hasked (s : Session) : s.quiet.asked = s.asked := by
    rw [asked, quiet, List.filter_filter, asked]
    refine List.filter_congr fun e _ => ?_
    cases e <;> rfl
  rw [← hasked s, ← hasked t, h]

end Session

def quietly {α : Type} (x : Option (α × Session)) : Option (α × Session) :=
  x.map fun y => (y.1, y.2.quiet)

theorem quietly_bind {α β : Type} {x x' : Option (α × Session)}
    {k k' : α × Session → Option (β × Session)} (hx : quietly x = quietly x')
    (hk : ∀ a s s', s.quiet = s'.quiet → quietly (k (a, s)) = quietly (k' (a, s'))) :
    quietly (x.bind k) = quietly (x'.bind k') := by
  cases x with
  | none =>
    cases x' with
    | none => rfl
    | some y' => cases hx
  | some y =>
    cases x' with
    | none => cases hx
    | some y' =>
      obtain ⟨a, s⟩ := y
      obtain ⟨a', s'⟩ := y'
      obtain ⟨rfl, hs⟩ := Prod.mk.inj (Option.some.inj hx)
      exact hk a s s' hs

/-! ## Scripts without notes -/

namespace Script

variable {α β : Type} {c c' : Script α}

/-- The second script is the first without some of its notes of skipped members. -/
inductive Hushes : Script α → Script α → Prop
  | done (a : α) : Hushes (done a) (done a)
  | event (e : Event) {c c' : Script α} (h : Hushes c c') : Hushes (event e c) (event e c')
  | skip {e : Event} (he : e.isSkipped = true) {c c' : Script α} (h : Hushes c c') :
      Hushes (event e c) c'
  | call (r : Request) {k k' : Outcome Value → Script α} (h : ∀ o, Hushes (k o) (k' o)) :
      Hushes (call r k) (call r k')

theorem Hushes.refl (c : Script α) : Hushes c c := by
  induction c with
  | done a => exact .done a
  | event e next ih => exact .event e ih
  | call r next ih => exact .call r ih

theorem Hushes.bind {k k' : α → Script β} (h : Hushes c c') (hk : ∀ a, Hushes (k a) (k' a)) :
    Hushes (c >>= k) (c' >>= k') := by
  induction h with
  | done a => exact hk a
  | event e _ ih => exact .event e ih
  | skip he _ ih => exact .skip he ih
  | call r _ ih => exact .call r ih

/-- **Without the notes of skipped members, both scripts run alike** if their parts do. -/
theorem Hushes.exec (h : Hushes c c') {f g : Request → Bind (Outcome Value)}
    (hf : ∀ r s s', s.quiet = s'.quiet → quietly (f r s) = quietly (g r s')) {s s' : Session}
    (hs : s.quiet = s'.quiet) : quietly (c.exec f s) = quietly (c'.exec g s') := by
  induction h generalizing s s' with
  | done a => exact congrArg some (congrArg (Prod.mk a) hs)
  | event e _ ih => exact ih (Session.quiet_note hs e)
  | skip he _ ih => exact ih ((Session.quiet_note_of_isSkipped he s).trans hs)
  | call r _ ih =>
    rw [exec_call, exec_call]
    exact quietly_bind (hf r s s' hs) fun o t t' ht => ih o ht

theorem Hushes.only {P : Request → Prop} (h : Hushes c c') (hc : c'.Only Event.Plain P) :
    c.Only Event.Plain P := by
  induction h with
  | done a => trivial
  | event e _ ih => exact ⟨hc.1, ih hc.2⟩
  | @skip e he _ _ _ ih =>
    refine ⟨?_, ih hc⟩
    cases e <;> trivial
  | call r _ ih => exact ⟨hc.1, fun o => ih o (hc.2 o)⟩

end Script

namespace Attempt

variable {α β : Type} {a a' : Attempt α}

def Hushes (a a' : Attempt α) : Prop := Script.Hushes a.run a'.run

theorem Hushes.refl (a : Attempt α) : Hushes a a := Script.Hushes.refl a.run

theorem hushes_of_eq (h : a = a') : Hushes a a' := h ▸ .refl a

theorem Hushes.bind {f f' : α → Attempt β} (h : Hushes a a') (hf : ∀ x, Hushes (f x) (f' x)) :
    Hushes (a >>= f) (a' >>= f') := by
  refine Script.Hushes.bind h fun x => ?_
  cases x with
  | error e => exact .refl _
  | ok x => exact hf x

theorem Hushes.outcome {a a' : Attempt (Option Value)} (h : Hushes a a') :
    Script.Hushes a.outcome a'.outcome :=
  Script.Hushes.bind h fun _ => .refl _

theorem hushes_skip {e : Event} (he : e.isSkipped = true) {f : Unit → Attempt α}
    (h : Hushes (f ()) a') : Hushes (liftM (Script.note e) >>= f) a' :=
  Script.Hushes.skip he h

end Attempt

/-! ## Strategies -/

namespace Context

/-- Whether a type is described and a leaf. -/
def knowsLeaf (ctx : Context) (t : TypeRef) : Bool := (ctx.describe? t).any (·.kind.isLeaf)

/-- What a strategy sees in deep mode over pruned descriptors. -/
def pruned (ctx : Context) : Context where
  describe? t := (ctx.describe? t).map (·.pruned ctx.knowsLeaf)
  conversion := ctx.conversion
  mode := .deep
  source := ctx.source

/-- What the described types depend on is described. -/
def Closed (ctx : Context) : Prop :=
  ∀ t d, ctx.describe? t = some d → ∀ u ∈ d.dependencies, (ctx.describe? u).isSome = true

end Context

namespace Strategy

open Attempt Context

variable {ctx : Context} {r : Request} {t : TypeRef}

theorem describe?_pruned (ctx : Context) (t : TypeRef) :
    ctx.pruned.describe? t = (ctx.describe? t).map (·.pruned ctx.knowsLeaf) := rfl

theorem knowsLeaf_pruned (ctx : Context) (t : TypeRef) :
    ctx.pruned.knowsLeaf t = ctx.knowsLeaf t := by
  rw [knowsLeaf, describe?_pruned, knowsLeaf]
  cases ctx.describe? t <;> simp

theorem isLeaf_eq (h : (ctx.describe? t).isSome = true) :
    ctx.isLeaf t = pure (ctx.knowsLeaf t) := by
  obtain ⟨d, hd⟩ := Option.isSome_iff_exists.1 h
  rw [Context.isLeaf, descriptor_eq hd, pure_bind, knowsLeaf, hd]
  rfl

theorem isLeaf_pruned_eq (h : (ctx.describe? t).isSome = true) :
    ctx.pruned.isLeaf t = pure (ctx.knowsLeaf t) := by
  have hpruned : (ctx.pruned.describe? t).isSome = true := by
    rwa [describe?_pruned, Option.isSome_map]
  rw [isLeaf_eq hpruned, knowsLeaf_pruned]

theorem hushes_descriptor_bind {α : Type} {f f' : Descriptor → Attempt α}
    (hf : ∀ d, ctx.describe? t = some d → Hushes (f d) (f' (d.pruned ctx.knowsLeaf))) :
    Hushes (ctx.descriptor t >>= f) (ctx.pruned.descriptor t >>= f') := by
  cases hd : ctx.describe? t with
  | none =>
    rw [Context.descriptor, Context.descriptor, describe?_pruned, hd]
    exact .refl _
  | some d =>
    have hpruned : ctx.pruned.describe? t = some (d.pruned ctx.knowsLeaf) := by
      rw [describe?_pruned, hd, Option.map_some]
    rw [descriptor_eq hd, descriptor_eq hpruned, pure_bind, pure_bind]
    exact hf d hd

/-- **Components that are no leaves are skipped one by one, or are not there.** -/
theorem bindComponents_hushes (hmode : ctx.mode = .shallow) {components : List Component}
    (hc : ∀ c ∈ components, (ctx.describe? c.type).isSome = true) (values : Components)
    (errors : List BindError) :
    Hushes (bindComponents ctx r components values errors)
      (bindComponents ctx.pruned r (components.filter fun c => ctx.knowsLeaf c.type) values
        errors) := by
  induction components generalizing values errors with
  | nil => exact .refl _
  | cons c rest ih =>
    have hrest := ih fun x hx => hc x (List.mem_cons_of_mem c hx)
    have hskips : ctx.skips c.type = pure (!ctx.knowsLeaf c.type) := by
      rw [skips, hmode]
      dsimp only
      rw [isLeaf_eq (hc c List.mem_cons_self), pure_bind]
    cases hleaf : ctx.knowsLeaf c.type with
    | false =>
      rw [List.filter_cons_of_neg (by simp [hleaf]), bindComponents, hskips, hleaf, pure_bind]
      exact hushes_skip rfl (hrest values errors)
    | true =>
      have hdeep : ctx.pruned.skips c.type = pure false := rfl
      rw [List.filter_cons_of_pos (by simp [hleaf]), bindComponents, bindComponents, hskips,
        hdeep, hleaf, pure_bind, pure_bind]
      refine Hushes.bind (.refl _) fun o => ?_
      cases o with
      | present value => exact hrest _ _
      | empty => exact hrest _ _
      | failed e => exact hrest _ _

theorem bindRecord_hushes (hmode : ctx.mode = .shallow) (hclosed : ctx.Closed) :
    Hushes (bindRecord ctx r) (bindRecord ctx.pruned r) := by
  refine hushes_descriptor_bind fun d hd => ?_
  have hc : ∀ c ∈ d.components, (ctx.describe? c.type).isSome = true := fun c hc =>
    hclosed _ d hd _ (Descriptor.mem_dependencies_of_component hc)
  obtain ⟨t, shape⟩ := d
  cases shape with
  | record components construct =>
    dsimp only [Descriptor.pruned, Shape.pruned]
    cases r.source.resolve? r.path with
    | none => exact .refl _
    | some n =>
      dsimp only
      by_cases hmap : n.isMap = true
      · rw [if_pos hmap, if_pos hmap]
        exact (bindComponents_hushes hmode hc _ _).bind fun _ => .refl _
      · rw [if_neg hmap, if_neg hmap]
        exact .refl _
  | _ => exact .refl _

/-- **Properties that are no leaves are skipped one by one, or are not there.** -/
theorem bindProperties_hushes (hmode : ctx.mode = .shallow) {properties : List Property}
    (hp : ∀ p ∈ properties, (ctx.describe? p.type).isSome = true) (target : Value)
    (errors : List BindError) :
    Hushes (bindProperties ctx r properties target errors)
      (bindProperties ctx.pruned r (properties.filter fun p => ctx.knowsLeaf p.type) target
        errors) := by
  induction properties generalizing target errors with
  | nil => exact .refl _
  | cons p rest ih =>
    have hrest := ih fun x hx => hp x (List.mem_cons_of_mem p hx)
    have hsome := hp p List.mem_cons_self
    cases hleaf : ctx.knowsLeaf p.type with
    | false =>
      rw [List.filter_cons_of_neg (by simp [hleaf]), bindProperties, isLeaf_eq hsome, hleaf,
        pure_bind, if_pos ⟨hmode, rfl⟩]
      exact hushes_skip rfl (hrest target errors)
    | true =>
      have hbound (m : Mode) : ¬ (m = .shallow ∧ (!true) = true) := by simp
      rw [List.filter_cons_of_pos (by simp [hleaf]), bindProperties, bindProperties,
        isLeaf_eq hsome, isLeaf_pruned_eq hsome, hleaf, pure_bind, pure_bind,
        if_neg (hbound ctx.mode), if_neg (hbound ctx.pruned.mode)]
      refine Hushes.bind (.refl _) fun o => ?_
      cases o with
      | present value =>
        dsimp only
        cases p.set target value with
        | ok target => exact hrest _ _
        | error e => exact hrest _ _
      | empty => exact Hushes.bind (.refl _) fun _ => hrest _ _
      | failed e => exact hrest _ _

theorem bindBean_hushes (hmode : ctx.mode = .shallow) (hclosed : ctx.Closed) :
    Hushes (bindBean ctx r) (bindBean ctx.pruned r) := by
  refine hushes_descriptor_bind fun d hd => ?_
  have hp : ∀ p ∈ d.writableProperties, (ctx.describe? p.type).isSome = true := fun p hp =>
    hclosed _ d hd _ (Descriptor.mem_dependencies_of_property hp)
  have hstart : startingInstance (d.pruned ctx.knowsLeaf) r = startingInstance d r := by
    rw [startingInstance, Descriptor.instantiate_pruned, startingInstance]
  rw [Descriptor.kind_pruned, hstart, Descriptor.writableProperties_pruned]
  cases d.kind with
  | bean =>
    dsimp only
    cases r.source.resolve? r.path with
    | none => exact .refl _
    | some n =>
      dsimp only
      by_cases hmap : n.isMap = true
      · rw [if_pos hmap, if_pos hmap]
        refine Hushes.bind (.refl _) fun start => ?_
        exact (bindProperties_hushes hmode hp _ _).bind fun _ => .refl _
      · rw [if_neg hmap, if_neg hmap]
        exact .refl _
  | _ => exact .refl _

/-- **A built-in strategy does in shallow mode what it does in deep mode over pruned descriptors**,
but for the notes of skipped members. -/
theorem bind_hushes {strategy : Strategy} (hs : strategy ∈ builtin) (hmode : ctx.mode = .shallow)
    (hclosed : ctx.Closed) (r : Request) :
    Script.Hushes (strategy.bind ctx r) (strategy.bind ctx.pruned r) := by
  have helements := Context.bindElements_eq ctx ctx.pruned
  have hentries := bindEntries_eq ctx ctx.pruned
  -- the strategies for containers and scalars do the same, as their descriptors are not pruned
  have hcontainer {f f' : Descriptor → Attempt (Option Value)}
      (hf : ∀ t shape, f ⟨t, shape⟩ = f' ⟨t, shape.pruned ctx.knowsLeaf⟩) :
      Hushes (ctx.descriptor r.type >>= f) (ctx.pruned.descriptor r.type >>= f') :=
    hushes_descriptor_bind fun d _ => hushes_of_eq (hf d.type d.shape)
  simp only [builtin, List.mem_cons, List.not_mem_nil, or_false] at hs
  rcases hs with rfl | rfl | rfl | rfl | rfl | rfl | rfl <;> refine Hushes.outcome ?_
  · exact .refl _
  · refine hcontainer fun t shape => ?_
    rw [hentries]
    cases shape <;> rfl
  · refine hcontainer fun t shape => ?_
    rw [helements]
    cases shape <;> rfl
  · refine hcontainer fun t shape => ?_
    rw [helements]
    cases shape <;> rfl
  · refine hcontainer fun t shape => ?_
    rw [helements]
    cases shape <;> rfl
  · exact bindRecord_hushes hmode hclosed
  · exact bindBean_hushes hmode hclosed

end Strategy

/-! ## Runs -/

/-- What a run comes to, without its notes of skipped members. -/
def Run.quiet (run : Run) : Outcome Value × List String × List Event :=
  (run.outcome, run.binder.inFlight, run.events.filter (!·.isSkipped))

/-- The type that a call registers is registered already. -/
def Call.Registered (registry : Registry) : Call → Prop
  | .fresh _ t | .under _ t _ => registry.contains t = true
  | .into _ value => registry.contains value.type = true
  | .target .. | .tree .. => True

namespace Binder

variable {b : Binder} {n : Nat} {r : Request} {s s' : Session}

def shallow (b : Binder) : Binder := { b with mode := .shallow }

/-- The binder in deep mode, over the registry without members that are no leaves. -/
def pruned (b : Binder) : Binder := { b with mode := .deep, registry := b.registry.pruned }

theorem context_pruned (b : Binder) : b.pruned.context = b.shallow.context.pruned := by
  have hdescribe : b.pruned.registry.get? = b.shallow.context.pruned.describe? :=
    funext fun t => Registry.get?_pruned b.registry t
  rw [context, hdescribe]
  rfl

theorem strategyFor_pruned (hb : b.Standard) (t : TypeRef) :
    b.pruned.strategyFor t = b.shallow.strategyFor t := by
  have hget : b.pruned.registry.get? t = _ := Registry.get?_pruned b.registry t
  cases hd : b.shallow.registry.get? t with
  | none =>
    have hd' : b.registry.get? t = none := hd
    rw [hd'] at hget
    rw [strategyFor_of_get?_eq_none hget, strategyFor_of_get?_eq_none hd]
  | some d =>
    have hd' : b.registry.get? t = some d := hd
    have hshallow : b.shallow.Standard := hb
    have hpruned : b.pruned.Standard := hb
    rw [hd'] at hget
    rw [hpruned.strategyFor_eq hget, hshallow.strategyFor_eq hd, Descriptor.kind_pruned]

theorem delegate_hushes (hb : b.Standard) (hclosed : b.registry.Closed) {strategy : Strategy}
    (hst : b.shallow.strategyFor r.type = .ok strategy) :
    Script.Hushes (b.shallow.delegate strategy r) (b.pruned.delegate strategy r) := by
  have hshallow : b.shallow.Standard := hb
  have hcontext : b.shallow.context.Closed := hclosed
  unfold delegate
  cases redirection? r with
  | some path => exact .refl _
  | none =>
    rw [context_pruned]
    exact Strategy.bind_hushes (hshallow.mem_builtin hst) rfl hcontext r

theorem recovery_eq_of_quiet (hs : s.quiet = s'.quiet) (e : BindError) :
    b.shallow.recovery r e s = b.pruned.recovery r e s' := by
  rw [recovery, recovery, Session.inFlight_eq_of_quiet hs, Session.asked_eq_of_quiet hs]
  cases r.policy.onFailure s'.asked r.path r.type e <;> rfl

/-- **A shallow run is a deep run over the pruned registry**, but for the notes of skipped
members. -/
theorem run_shallow (hb : b.Standard) (hclosed : b.registry.Closed) (n : Nat) (r : Request)
    (hs : s.quiet = s'.quiet) : quietly (b.shallow.run n r s) = quietly (b.pruned.run n r s') := by
  induction n generalizing r s s' with
  | zero => rfl
  | succ n ih =>
    have hrecovery (e : BindError) {t t' : Session} (ht : t.quiet = t'.quiet) :
        quietly ((b.shallow.recovery r e t).exec (b.shallow.run n) t) =
          quietly ((b.pruned.recovery r e t').exec (b.pruned.run n) t') := by
      rw [recovery_eq_of_quiet ht]
      exact (Script.Hushes.refl _).exec (fun r _ _ => ih r) ht
    have hsettle (o : Outcome Value) {t t' : Session} (ht : t.quiet = t'.quiet) :
        quietly (b.shallow.settle (b.shallow.run n) r o t) =
          quietly (b.pruned.settle (b.pruned.run n) r o t') := by
      rw [settle_eq, settle_eq]
      cases o with
      | failed e => exact hrecovery e ht
      | _ => exact congrArg some (congrArg (Prod.mk _) ht)
    have hstrategy := strategyFor_pruned hb r.type
    cases hst : b.shallow.strategyFor r.type with
    | error e =>
      rw [run_of_error hst, run_of_error (hstrategy.trans hst)]
      exact hrecovery e hs
    | ok strategy =>
      have hselected := Session.quiet_note hs (.selected strategy.name r.type)
      have hflight := Session.inFlight_eq_of_quiet hs
      by_cases hm : r.path.render ∈ s.inFlight
      · rw [run_of_mem hst hm, run_of_mem (hstrategy.trans hst) (hflight ▸ hm)]
        exact hrecovery _ (Session.quiet_note hselected _)
      · rw [run_of_not_mem hst hm, run_of_not_mem (hstrategy.trans hst) (hflight ▸ hm)]
        refine quietly_bind ((delegate_hushes hb hclosed hst).exec (fun r _ _ => ih r)
          (Session.quiet_enter hselected _)) fun o t t' ht => ?_
        rw [Option.map_eq_bind, Option.map_eq_bind]
        refine quietly_bind (hsettle o ht) fun o' u u' hu => ?_
        exact congrArg some (congrArg (Prod.mk o') (Session.quiet_leave hu _))

/-! ## Binds -/

theorem bind?_shallow (hb : b.Standard) (hclosed : b.registry.Closed) (r : Request) :
    (b.shallow.bind? r).map Run.quiet = (b.pruned.bind? r).map Run.quiet := by
  have hquiet (c : Binder) : (c.bind? r).map Run.quiet =
      (quietly (c.run (c.allowance r) r ⟨c.inFlight, []⟩)).map
        fun x => (x.1, x.2.inFlight, x.2.events.reverse) := by
    rw [bind?, quietly, Option.map_map, Option.map_map]
    congr 1
    funext x
    simp [Run.quiet, Session.quiet, List.filter_reverse]
  have hallowance : b.shallow.allowance r = b.pruned.allowance r := rfl
  rw [hquiet, hquiet, hallowance, run_shallow hb hclosed _ r rfl]
  rfl

theorem register_of_contains {t : TypeRef} (h : b.registry.contains t = true) :
    b.register t = b := by
  rw [register]
  rcases Registry.register_cases b.catalog b.registry t with
    ⟨-, hr⟩ | ⟨d, -, -, ⟨-, hr⟩ | ⟨hnew, -⟩⟩
  · rw [hr]
  · rw [hr]
  · rw [hnew] at h
    cases h

theorem perform?_shallow (hb : b.Standard) (hclosed : b.registry.Closed) {call : Call}
    (hcall : call.Registered b.registry) :
    (b.shallow.perform? call).map Run.quiet = (b.pruned.perform? call).map Run.quiet := by
  have hcast {x x' : Option Run} (h : x.map Run.quiet = x'.map Run.quiet) (t : TypeRef) :
      (x.map fun run => { run with outcome := run.outcome.cast t }).map Run.quiet =
        (x'.map fun run => { run with outcome := run.outcome.cast t }).map Run.quiet := by
    have hmap := congrArg (Option.map fun y => (y.1.cast t, y.2)) h
    rw [Option.map_map, Option.map_map] at hmap ⊢
    exact hmap
  have hregister {t : TypeRef} (h : b.registry.contains t = true) :
      b.shallow.register t = b.shallow ∧ b.pruned.register t = b.pruned :=
    ⟨register_of_contains h, register_of_contains ((Registry.contains_pruned _ t).trans h)⟩
  have hwith {p : Path} {t : TypeRef} {policy : FailurePolicy}
      (h : b.registry.contains t = true) :
      (b.shallow.bindWith? p t policy).map Run.quiet =
        (b.pruned.bindWith? p t policy).map Run.quiet := by
    rw [bindWith?, bindWith?, (hregister h).1, (hregister h).2]
    exact hcast (bind?_shallow hb hclosed _) t
  cases call with
  | fresh p t => exact hwith hcall
  | under p t policy => exact hwith hcall
  | target p target => exact bind?_shallow hb hclosed _
  | tree source p t => exact bind?_shallow hb hclosed _
  | into p value =>
    show (b.shallow.bindInto? p value).map Run.quiet = (b.pruned.bindInto? p value).map Run.quiet
    cases hdata : b.source.contains p with
    | false =>
      have hshallow : b.shallow.source.contains p = false := hdata
      have hpruned : b.pruned.source.contains p = false := hdata
      rw [bindInto?_of_absent hshallow, bindInto?_of_absent hpruned]
      rfl
    | true =>
      have hshallow : b.shallow.source.contains p = true := hdata
      have hpruned : b.pruned.source.contains p = true := hdata
      rw [bindInto?_eq hshallow, bindInto?_eq hpruned, (hregister hcall).1, (hregister hcall).2]
      exact hcast (bind?_shallow hb hclosed _) _

/-- **A shallow binder binds leaf members only.**  But for the events of skipped members it does
what a deep binder does over the registry without the members that are no leaves.  Elements and
entries of containers are bound as before. -/
theorem shallow_binds_leaves (hb : b.Standard) (hclosed : b.registry.Closed) :
    (∀ n r s, quietly (b.shallow.run n r s) = quietly (b.pruned.run n r s)) ∧
    (∀ r, (b.shallow.bind? r).map Run.quiet = (b.pruned.bind? r).map Run.quiet ∧
      (r.policy.Direct → b.registry.NamesVisible r.path.separator →
        (b.shallow.bind? r).isSome = true)) ∧
    (∀ call : Call, call.Registered b.registry →
      (b.shallow.perform? call).map Run.quiet = (b.pruned.perform? call).map Run.quiet) ∧
    (∀ strategy r, b.shallow.strategyFor r.type = .ok strategy →
      (b.shallow.delegate strategy r).ByParts b.pruned.context r) ∧
    b.pruned.registry.Closed ∧
    ∀ t d, b.registry.get? t = some d → ∃ e, b.pruned.registry.get? t = some e ∧
      e.kind = d.kind ∧ e.item? = d.item? ∧
        e.components = d.components.filter (fun c => b.registry.isLeaf c.type) ∧
          e.properties = d.properties.filter fun p => b.registry.isLeaf p.type := by
  have hshallow : b.shallow.Standard := hb
  refine ⟨fun n r s => run_shallow hb hclosed n r rfl,
    fun r => ⟨bind?_shallow hb hclosed r, isSome_bind? hshallow⟩,
    fun call => perform?_shallow hb hclosed, fun strategy r hst => ?_, hclosed.pruned,
    fun t d hd => ⟨d.pruned b.registry.isLeaf, ?_, Descriptor.kind_pruned,
      Descriptor.item?_pruned, Descriptor.components_pruned, Descriptor.properties_pruned⟩⟩
  · have hpruned : b.pruned.Standard := hb
    have hst' : b.pruned.strategyFor r.type = .ok strategy :=
      (strategyFor_pruned hb r.type).trans hst
    exact (delegate_hushes hb hclosed hst).only (only_delegate hpruned hst')
  · have hget : b.pruned.registry.get? t = _ := Registry.get?_pruned b.registry t
    rw [hget, hd]
    rfl

end Binder

namespace Sample

/-- A shallow binder does not follow a link, which has no member that is a leaf. -/
theorem link_is_not_followed :
    ((binder loop).Standard ∧ (binder loop).registry.Closed) ∧
    (∃ run, (binder loop).shallow.bind? request = some run) ∧
    ((binder loop).shallow.bind? request).map Run.quiet =
      ((binder loop).pruned.bind? request).map Run.quiet ∧
    ∃ e, (binder loop).pruned.registry.get? link = some e ∧ e.components = [] := by
  obtain ⟨-, hbind, -, -, -, hpruned⟩ :=
    Binder.shallow_binds_leaves (b := binder loop) rfl (closed_binder loop)
  obtain ⟨hsame, hsome⟩ := hbind request
  have hrun := hsome FailurePolicy.direct_propagate (namesVisible_binder loop)
  obtain ⟨d, hd, construct, hshape⟩ := describe?_link loop
  obtain ⟨e, he, -, -, hcomponents, -⟩ := hpruned link d hd
  refine ⟨⟨rfl, closed_binder loop⟩, Option.isSome_iff_exists.1 hrun, hsame, e, he, ?_⟩
  have hleaf : (binder loop).registry.isLeaf link = false := by
    rw [Registry.isLeaf, hd, Option.any_some, Descriptor.kind, hshape]
    rfl
  have hold : d.components = [⟨"next", link⟩] := by rw [Descriptor.components, hshape]
  rw [hcomponents, hold, List.filter_cons_of_neg (by simp [hleaf])]
  rfl

end Sample

end ConfigBind
