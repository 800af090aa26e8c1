import ConfigBind.Proofs.Bind.Merging
import ConfigBind.Proofs.Bind.Soundness
import ConfigBind.Proofs.Bind.Unregistered
import ConfigBind.Proofs.Types.Layout

/-!
# Amending beans

A bean that is bound into an instance keeps what no property is bound to.  A property with data is
set to what it is bound to: a leaf to a new value, and any other to its old value joined with a new
one, or, if that is a bean and the data is a map, to the old bean amended in the same way, and so on
at any depth.

* `Strategy.Sets`: the properties of a bean are set one by one.
* `Binder.Amended`: what has become of an instance.
* `Binder.instances_are_amended`: every successful bind of a map into an instance amends it.
-/

namespace ConfigBind

/-- The value that a property is bound into: none if its type is a leaf, and else its present one,
where that can be read. -/
def Context.current (ctx : Context) (p : Property) (target : Value) : Option Value :=
  if (ctx.describe? p.type).any (·.kind.isLeaf) then none else p.get? target

/-! ## Setting properties -/

namespace Strategy

open Attempt

/-- Some properties are set on a bean, one after the other, as far as there is something to set:
each is bound, by a call, into the value that it has at that time. -/
inductive Sets (ctx : Context) (r : Request) :
    List Property → Value → List Exchange → Value → Prop
  | nil {target : Value} : Sets ctx r [] target [] target
  | present {p : Property} {rest : List Property} {target target' found v : Value} {x : Exchange}
      {calls : List Exchange} (hrequest : x.request = r.property p (ctx.current p target))
      (hv : x.outcome = .present v) (hset : p.set target v = .ok target')
      (h : Sets ctx r rest target' calls found) : Sets ctx r (p :: rest) target (x :: calls) found
  | empty {p : Property} {rest : List Property} {target found : Value} {x : Exchange}
      {calls : List Exchange} (hrequest : x.request = r.property p (ctx.current p target))
      (hv : x.outcome = .empty) (h : Sets ctx r rest target calls found) :
      Sets ctx r (p :: rest) target (x :: calls) found

variable {f : Request → Bind (Outcome Value)} {ctx : Context} {r : Request} {s t : Session}
  {calls : List Exchange} {properties : List Property} {target found : Value}

theorem sets_of_performs (hmode : ctx.mode = .deep) {errors : List BindError}
    (h : Performs f (bindProperties ctx r properties target errors) s calls (.ok (found, [])) t) :
    errors = [] ∧ Sets ctx r properties target calls found := by
  induction properties generalizing target errors s calls with
  | nil =>
    obtain ⟨rfl, heq⟩ := performs_pure h
    obtain ⟨rfl, rfl⟩ := Prod.mk.inj (Except.ok.inj heq)
    exact ⟨rfl, .nil⟩
  | cons p rest ih =>
    cases hd : ctx.describe? p.type with
    | none =>
      rw [bindProperties, isLeaf_eq_throw hd] at h
      cases (performs_throw h).2
    | some d =>
      have hcurrent : ctx.current p target =
          if d.kind.isLeaf = true then none else p.get? target := by
        rw [Context.current, hd, Option.any_some]
      have hdeep : ¬ (ctx.mode = .shallow ∧ (!d.kind.isLeaf) = true) := by simp [hmode]
      rw [bindProperties, isLeaf_eq_pure hd, pure_bind, if_neg hdeep] at h
      obtain ⟨o, u, more, rfl, hrest⟩ := performs_bind_bind h
      rw [← hcurrent]
      cases o with
      | present v =>
        dsimp only at hrest
        cases hset : p.set target v with
        | ok target' =>
          rw [hset] at hrest
          obtain ⟨rfl, hsets⟩ := ih hrest
          exact ⟨rfl, .present rfl rfl hset hsets⟩
        | error e =>
          rw [hset] at hrest
          have hnone := (ih hrest).1
          simp at hnone
      | empty =>
        obtain ⟨rfl, hsets⟩ := ih (performs_note_bind hrest)
        exact ⟨rfl, .empty rfl rfl hsets⟩
      | failed e =>
        have hnone := (ih hrest).1
        simp at hnone

theorem current_eq {L : Layout} {Γ : Typing} {d : Descriptor} (hlawful : L.Lawful Γ d)
    {p : Property} (hp : p ∈ d.writableProperties) {start : Value} (htarget : target.Of Γ d.type)
    (hstart : start.Of Γ d.type)
    (hread : L.read (L.own p) target.datum = L.read (L.own p) start.datum) :
    ctx.current p target = ctx.current p start := by
  rw [Context.current, Context.current, hlawful.get?_eq hp hstart htarget hread]

theorem sound_property {Γ : Typing} {d : Descriptor} (hsound : d.Sound Γ)
    (hpolicy : r.policy.Sound Γ) {p : Property} (hp : p ∈ d.writableProperties)
    (htarget : target.Of Γ d.type) : (r.property p (ctx.current p target)).Sound Γ := by
  refine ⟨⟨fun v hv => ?_, nofun⟩, hpolicy⟩
  have hv : ctx.current p target = some v := hv
  unfold Context.current at hv
  split at hv
  · cases hv
  · exact hsound.of_get? (List.mem_of_mem_filter hp) htarget hv

/-- What has become of the fields of a bean whose properties were set: every property was bound into
what it has at the start, and its field holds what it was bound to; any other field is as it was. -/
structure Amends (L : Layout) (ctx : Context) (r : Request) (start : Value)
    (properties : List Property) (target : Value) (calls : List Exchange) (found : Value) :
    Prop where
  held : ∀ p ∈ properties, ∃ x ∈ calls, x.request = r.property p (ctx.current p start) ∧
    (x.outcome = .empty ∨
      ∃ v, x.outcome = .present v ∧ L.read (L.own p) found.datum = v.datum)
  kept : ∀ field, L.read field found.datum = L.read field target.datum ∨
    ∃ p ∈ properties, L.own p = field ∧ ∃ x ∈ calls, ∃ v,
      x.request = r.property p (ctx.current p start) ∧ x.outcome = .present v

theorem Amends.cons {L : Layout} {start target' : Value} {p : Property} {x : Exchange}
    (h : Amends L ctx r start properties target' calls found)
    (hrequest : x.request = r.property p (ctx.current p start))
    (hheld : x.outcome = .empty ∨
      ∃ v, x.outcome = .present v ∧ L.read (L.own p) found.datum = v.datum)
    (hkept : ∀ field, L.read field target'.datum = L.read field target.datum ∨
      L.own p = field ∧ ∃ v, x.outcome = .present v) :
    Amends L ctx r start (p :: properties) target (x :: calls) found := by
  refine ⟨List.forall_mem_cons.2 ⟨⟨x, List.mem_cons_self, hrequest, hheld⟩, fun q hq => ?_⟩,
    fun field => ?_⟩
  · obtain ⟨y, hy, hbound⟩ := h.held q hq
    exact ⟨y, List.mem_cons_of_mem _ hy, hbound⟩
  · rcases h.kept field with hsame | ⟨q, hq, hown, y, hy, hbound⟩
    · rw [hsame]
      refine (hkept field).imp_right ?_
      rintro ⟨hown, v, hv⟩
      exact ⟨p, List.mem_cons_self, hown, x, List.mem_cons_self, v, hrequest, hv⟩
    · exact .inr ⟨q, List.mem_cons_of_mem _ hq, hown, y, List.mem_cons_of_mem _ hy, hbound⟩

/-- **Setting properties of a lawful bean changes their fields only**, and each property is bound
into what it has at the start. -/
theorem Sets.amends {L : Layout} {Γ : Typing} {d : Descriptor} (hlawful : L.Lawful Γ d)
    (hsound : d.Sound Γ) (hpolicy : r.policy.Sound Γ) {start : Value} (hstart : start.Of Γ d.type)
    (h : Sets ctx r properties target calls found) (hp : properties ⊆ d.writableProperties)
    (hdistinct : (properties.map L.own).Nodup) (htarget : target.Of Γ d.type)
    (hsame : ∀ p ∈ properties, L.read (L.own p) target.datum = L.read (L.own p) start.datum)
    (hcalls : ∀ x ∈ calls, x.request.Sound Γ → x.outcome.Sound Γ x.request.type) :
    Amends L ctx r start properties target calls found := by
  induction h with
  | nil => exact ⟨nofun, fun _ => .inl rfl⟩
  | @empty p rest target found x calls hrequest hv _ ih =>
    have hcurrent : ctx.current p target = ctx.current p start :=
      current_eq hlawful (hp List.mem_cons_self) htarget hstart (hsame p List.mem_cons_self)
    rw [hcurrent] at hrequest
    have hrest := ih (fun q hq => hp (List.mem_cons_of_mem _ hq)) (List.nodup_cons.1 hdistinct).2
      htarget (fun q hq => hsame q (List.mem_cons_of_mem _ hq))
      (fun y hy => hcalls y (List.mem_cons_of_mem _ hy))
    exact hrest.cons hrequest (.inl hv) fun _ => .inl rfl
  | @present p rest target target' found v x calls hrequest hv hset _ ih =>
    have hmem := hp List.mem_cons_self
    have hcurrent : ctx.current p target = ctx.current p start :=
      current_eq hlawful hmem htarget hstart (hsame p List.mem_cons_self)
    rw [hcurrent] at hrequest
    have hvalue : v.Of Γ p.type := by
      have hbound := hcalls x List.mem_cons_self
        (hrequest ▸ sound_property hsound hpolicy hmem hstart)
      rw [hv, hrequest] at hbound
      exact hbound
    have htarget' := hsound.of_set (List.mem_of_mem_filter hmem) htarget hvalue hset
    obtain ⟨hfirst, hdistinct⟩ := List.nodup_cons.1 hdistinct
    have hother {q : Property} (hq : q ∈ rest) : L.own q ≠ L.own p :=
      fun heq => hfirst (heq ▸ List.mem_map_of_mem hq)
    have hframe := hlawful.frame p hmem target v target' htarget hvalue hset
    have hrest := ih (fun q hq => hp (List.mem_cons_of_mem _ hq)) hdistinct htarget'
      (fun q hq => (hframe _ (hother hq)).trans (hsame q (List.mem_cons_of_mem _ hq)))
      (fun y hy => hcalls y (List.mem_cons_of_mem _ hy))
    refine hrest.cons hrequest (.inr ⟨v, hv, ?_⟩) fun field => ?_
    · rw [← hlawful.set p hmem target v target' htarget hvalue hset]
      -- no property behind this one has its field
      refine (hrest.kept (L.own p)).resolve_right ?_
      rintro ⟨q, hq, hown, -⟩
      exact hother hq hown
    · by_cases hfield : field = L.own p
      · exact .inr ⟨hfield.symm, v, hv⟩
      · exact .inl (hframe field hfield)

end Strategy

/-! ## Binds of beans -/

theorem Node.Vanishes.of_subset {root : Node} {held held' : List String} {p : Path}
    (h : root.Vanishes held p) (hsub : held' ⊆ held) : root.Vanishes held' p := by
  obtain ⟨via, q, hleads, hnodup, hfresh, hn⟩ := h
  exact ⟨via, q, hleads, hnodup, fun path hpath hmem => hfresh path hpath (hsub hmem), hn⟩

theorem Node.contains_of_leads {root n : Node} {p q : Path} {via : List Path}
    (h : root.Leads p via q) (hn : root.resolve? q = some n) : root.contains p = true := by
  cases h with
  | refl => rw [contains, hn, Option.isSome_some]
  | step hnext _ =>
    obtain ⟨text, htext⟩ := resolve?_of_redirection? hnext
    rw [contains, htext, Option.isSome_some]

namespace Binder

/-- The bind of a path to a target comes to a value. -/
def Gives (b : Binder) (root : Node) (path : Path) (target : Target) (v : Value) : Prop :=
  ∃ run, b.EndsWith ⟨path, target, root, .propagate⟩ run ∧ run.outcome = .present v

/-- The bind of a property of a bean at a path, into the value that it has, comes to a value. -/
def PropertyGives (b : Binder) (root : Node) (path : Path) (p : Property) (x v : Value) : Prop :=
  b.Gives root (path.appendText p.bindingName) ⟨p.type, b.context.current p x, none⟩ v

/-- The instance `x` has become `y` by a bind of the map at a path: properties with data hold what
they were bound to, other fields are as they were, and what was bound into an old value is that
value joined with a fresh one, or a bean that has been amended in turn. -/
inductive Amended (b : Binder) (Γ : Typing) (Λ : TypeRef → Layout) (root : Node) :
    Path → Value → Value → Prop
  | intro {path : Path} {x y : Value} {d : Descriptor} (hd : b.registry.get? x.type = some d)
      (type_eq : y.type = x.type)
      (given : ∀ p ∈ d.writableProperties,
        ¬ root.Vanishes b.inFlight (path.appendText p.bindingName) →
          ∃ v, b.PropertyGives root path p x v)
      (held : ∀ p ∈ d.writableProperties, ∀ v, b.PropertyGives root path p x v →
        (Λ x.type).read ((Λ x.type).own p) y.datum = v.datum)
      (kept : ∀ field, (∀ p ∈ d.writableProperties, (Λ x.type).own p = field →
          ∀ v, ¬ b.PropertyGives root path p x v) →
        (Λ x.type).read field y.datum = (Λ x.type).read field x.datum)
      (fresh : ∀ p ∈ d.writableProperties, ∀ v, b.PropertyGives root path p x v →
        b.context.current p x = none →
          b.Gives root (path.appendText p.bindingName) (.ofType p.type) v)
      (joined : ∀ p ∈ d.writableProperties, ∀ v, b.PropertyGives root path p x v →
        ∀ old e, b.context.current p x = some old → b.registry.get? p.type = some e →
          (e.kind = .bean → ∀ via q entries, root.Leads (path.appendText p.bindingName) via q →
            root.resolve? q ≠ some (.map entries)) →
          ∃ new, b.Gives root (path.appendText p.bindingName) (.ofType p.type) new ∧
            old.datum.Joined new.datum e.kind v.datum)
      (amended : ∀ p ∈ d.writableProperties, ∀ v, b.PropertyGives root path p x v →
        ∀ old e, b.context.current p x = some old → b.registry.get? p.type = some e →
          e.kind = .bean → (Λ p.type).Lawful Γ e →
            ∀ via q entries, root.Leads (path.appendText p.bindingName) via q →
              root.resolve? q = some (.map entries) → b.Amended Γ Λ root q old v) :
      Amended b Γ Λ root path x y

variable {b : Binder} {n : Nat} {r : Request} {s t : Session} {root : Node} {path : Path}
  {target : Target} {x y v : Value}

theorem Gives.unique {w : Value} (hv : b.Gives root path target v)
    (hw : b.Gives root path target w) : v = w := by
  obtain ⟨run, hrun, hpresent⟩ := hv
  obtain ⟨run', hrun', hpresent'⟩ := hw
  rw [hrun.unique hrun', hpresent'] at hpresent
  exact (Outcome.present.inj hpresent).symm

theorem endsWith_of_nested (hb : b.Standard) (hpolicy : r.policy = .propagate) {o : Outcome Value}
    (h : b.run n r s = some (o, t)) (ho : o.isFailed = false) (hsub : b.inFlight ⊆ s.inFlight) :
    ∃ run, b.EndsWith r run ∧ run.outcome = o := by
  have hsub : (⟨b.inFlight, []⟩ : Session).inFlight ⊆ s.inFlight := hsub
  obtain ⟨t', h'⟩ := run_of_subset_of_success hb hpolicy h ho hsub
  exact ⟨_, ⟨n, o, t', h', rfl⟩, rfl⟩

theorem endsWith_of_property (hb : b.Standard) (hpolicy : r.policy = .propagate) {p : Property}
    {current : Option Value} {o : Outcome Value}
    (h : b.run n (r.property p current) s = some (o, t)) (ho : o.isFailed = false)
    (hsub : b.inFlight ⊆ s.inFlight) : ∃ run, b.EndsWith ⟨r.path.appendText p.bindingName,
      ⟨p.type, current, none⟩, r.source, .propagate⟩ run ∧ run.outcome = o := by
  rw [Request.property, hpolicy] at h
  exact endsWith_of_nested hb rfl h ho hsub

theorem run_at_redirection (hpolicy : r.policy = .propagate) {next : Path}
    (hnext : r.source.redirection? r.path = some next)
    (h : b.run (n + 1) r s = some (.present y, t)) : ∃ s' t',
      b.run n { r with path := next } s' = some (.present y, t') ∧ s.inFlight ⊆ s'.inFlight := by
  obtain ⟨strategy, u, -, -, hdelegate, -⟩ := run_succeeding hpolicy rfl h
  rw [delegate_exec_of_redirection hnext] at hdelegate
  exact ⟨_, u, hdelegate, List.subset_cons_self _ _⟩

theorem sets_of_run (hb : b.Standard) (hdeep : b.mode = .deep) (hpolicy : r.policy = .propagate)
    {d : Descriptor} (hd : b.registry.get? r.type = some d) (hkind : d.kind = .bean)
    (hx : r.target.take.1 = some x) {entries : List (String × Node)}
    (hn : r.source.resolve? r.path = some (.map entries))
    (h : b.run (n + 1) r s = some (.present y, t)) :
    ∃ calls, Strategy.Sets b.context r d.writableProperties x calls y ∧ ∀ z ∈ calls,
      b.run n z.request z.before = some (z.outcome, z.after) ∧ s.inFlight ⊆ z.before.inFlight := by
  obtain ⟨strategy, u, hst, -, hdelegate, -⟩ := run_succeeding hpolicy rfl h
  obtain rfl := Except.ok.inj (hst.symm.trans (hb.strategyFor_eq hd))
  rw [delegate_of_map _ hn, hkind] at hdelegate
  obtain ⟨calls, hcalls⟩ := Script.exec_iff_performs.1 hdelegate
  obtain ⟨z, u', hproperties, hfailed, hgathered⟩ :=
    Strategy.performs_properties hd hkind hn (.inl hx) hcalls
  rcases z with e | ⟨found, errors⟩
  · cases hfailed e rfl
  · obtain ⟨hbad, hgood⟩ := hgathered found errors rfl
    by_cases hnone : errors = []
    · subst hnone
      obtain rfl := Outcome.present.inj (hgood rfl)
      refine ⟨calls, (Strategy.sets_of_performs hdeep hproperties).2, fun z hz =>
        ⟨hcalls.bound hz, ?_⟩⟩
      refine hcalls.before_of (I := fun u => s.inFlight ⊆ u.inFlight) (fun _ _ h => h)
        (fun _ _ _ _ hrun h => ?_) (List.subset_cons_self _ _) z hz
      rwa [(run_traced hb hrun).inFlight]
    · cases hbad hnone

/-- A run has bound a property to a value, which its field holds. -/
def Holds (b : Binder) (n : Nat) (L : Layout) (r : Request) (p : Property) (x y v : Value) :
    Prop :=
  b.PropertyGives r.source r.path p x v ∧ L.read (L.own p) y.datum = v.datum ∧
    ∃ s t, b.inFlight ⊆ s.inFlight ∧
      b.run n (r.property p (b.context.current p x)) s = some (.present v, t)

/-- **What a successful run of a lawful bean at a map has done**: every property was bound to a
value, which its field holds, unless there is no data for it, and other fields are as they were. -/
theorem holds_of_run {Γ : Typing} {L : Layout} (htext : ∀ d, Γ .text d → ∃ text, d = .text text)
    (hb : b.Standard) (hctx : b.context.Sound Γ) (hdeep : b.mode = .deep)
    (hpolicy : r.policy = .propagate) {d : Descriptor} (hd : b.registry.get? r.type = some d)
    (hkind : d.kind = .bean) (hlawful : L.Lawful Γ d) (hx : r.target.take.1 = some x)
    (hxr : x.Of Γ r.type) {entries : List (String × Node)}
    (hn : r.source.resolve? r.path = some (.map entries)) (hsub : b.inFlight ⊆ s.inFlight)
    (h : b.run (n + 1) r s = some (.present y, t)) :
    (∀ p ∈ d.writableProperties,
      (r.source.Vanishes b.inFlight (r.path.appendText p.bindingName) ∧
          ∀ v, ¬ b.PropertyGives r.source r.path p x v) ∨ ∃ v, b.Holds n L r p x y v) ∧
      ∀ field, L.read field y.datum = L.read field x.datum ∨
        ∃ p ∈ d.writableProperties, L.own p = field ∧
          ∃ v, b.PropertyGives r.source r.path p x v := by
  obtain ⟨hdtype, hsound⟩ := hctx.describe _ d hd
  have hxd : x.Of Γ d.type := hdtype.symm ▸ hxr
  have hrsound : r.policy.Sound Γ := hpolicy ▸ FailurePolicy.sound_propagate
  obtain ⟨calls, hsets, hcalls⟩ := sets_of_run hb hdeep hpolicy hd hkind hx hn h
  have hamends := hsets.amends hlawful hsound hrsound hxd (List.Subset.refl _)
    hlawful.distinct hxd (fun _ _ => rfl) fun z hz hzr =>
      (run_sound htext hb hctx hzr (hcalls z hz).1).1
  have hnested (z : Exchange) (hz : z ∈ calls) : b.inFlight ⊆ z.before.inFlight :=
    List.Subset.trans hsub (hcalls z hz).2
  -- a call that did not fail shows what the bind of its property comes to on its own
  have hends (p : Property) (z : Exchange) (hz : z ∈ calls)
      (hrequest : z.request = r.property p (b.context.current p x))
      (ho : z.outcome.isFailed = false) := by
    have hrun := (hcalls z hz).1
    rw [hrequest] at hrun
    exact endsWith_of_property hb hpolicy hrun ho (hnested z hz)
  constructor
  · intro p hp
    obtain ⟨z, hz, hrequest, hempty | ⟨v, hv, hread⟩⟩ := hamends.held p hp
    · obtain ⟨run, hrun, hnone⟩ := hends p z hz hrequest (by rw [hempty]; rfl)
      refine .inl ⟨?_, ?_⟩
      · have hvanishes := (hcalls z hz).1
        rw [hrequest, hempty] at hvanishes
        exact (vanishes_of_run_empty (r := r.property p _) hb hpolicy hvanishes).of_subset
          (hnested z hz)
      · rintro v ⟨run', hrun', hpresent⟩
        rw [hrun.unique hrun', hpresent, hempty] at hnone
        cases hnone
    · obtain ⟨run, hrun, hpresent⟩ := hends p z hz hrequest (by rw [hv]; rfl)
      refine .inr ⟨v, ⟨run, hrun, hpresent.trans hv⟩, hread, z.before, z.after, hnested z hz, ?_⟩
      rw [← hrequest, ← hv]
      exact (hcalls z hz).1
  · intro field
    refine (hamends.kept field).imp_right ?_
    rintro ⟨p, hp, hown, z, hz, v, hrequest, hv⟩
    obtain ⟨run, hrun, hpresent⟩ := hends p z hz hrequest (by rw [hv]; rfl)
    exact ⟨p, hp, hown, v, run, hrun, hpresent.trans hv⟩

theorem amended_of_holds {Γ : Typing} {Λ : TypeRef → Layout} (hb : b.Standard)
    (hpolicy : r.policy = .propagate) {d : Descriptor} (hd : b.registry.get? x.type = some d)
    (htype : y.type = x.type)
    (hheld : ∀ p ∈ d.writableProperties,
      (r.source.Vanishes b.inFlight (r.path.appendText p.bindingName) ∧
          ∀ v, ¬ b.PropertyGives r.source r.path p x v) ∨
        ∃ v, b.Holds n (Λ x.type) r p x y v)
    (hkept : ∀ field, (Λ x.type).read field y.datum = (Λ x.type).read field x.datum ∨
      ∃ p ∈ d.writableProperties, (Λ x.type).own p = field ∧
        ∃ v, b.PropertyGives r.source r.path p x v)
    (hamended : ∀ p ∈ d.writableProperties, ∀ v, b.Holds n (Λ x.type) r p x y v →
      ∀ old e, b.context.current p x = some old → b.registry.get? p.type = some e →
        e.kind = .bean → (Λ p.type).Lawful Γ e →
          ∀ via q entries, r.source.Leads (r.path.appendText p.bindingName) via q →
            r.source.resolve? q = some (.map entries) → b.Amended Γ Λ r.source q old v) :
    b.Amended Γ Λ r.source r.path x y := by
  -- a property is bound to one value only, so any value that its bind gives is held
  have hholds {p : Property} (hp : p ∈ d.writableProperties) {v : Value}
      (hv : b.PropertyGives r.source r.path p x v) : b.Holds n (Λ x.type) r p x y v := by
    obtain ⟨-, hnone⟩ | ⟨w, hw⟩ := hheld p hp
    · exact absurd hv (hnone v)
    · rwa [hv.unique hw.1]
  refine .intro hd htype ?_ ?_ ?_ ?_ ?_ ?_
  · intro p hp hdata
    obtain ⟨hvanishes, -⟩ | ⟨v, hv⟩ := hheld p hp
    · exact absurd hvanishes hdata
    · exact ⟨v, hv.1⟩
  · intro p hp v hv
    exact (hholds hp hv).2.1
  · intro field hfield
    refine (hkept field).resolve_right ?_
    rintro ⟨p, hp, hown, v, hv⟩
    exact hfield p hp hown v hv
  · intro p hp v hv hcurrent
    rwa [PropertyGives, hcurrent] at hv
  · intro p hp v hv old e hold he hother
    obtain ⟨-, -, s', t', hsub, hrun⟩ := hholds hp hv
    rw [hold] at hrun
    obtain ⟨new, hnew, hjoined⟩ :=
      joined_of_run (r := r.property p (some old)) hb hpolicy he hother rfl hrun
    exact ⟨new, endsWith_of_property hb hpolicy hnew rfl hsub, hjoined⟩
  · intro p hp v hv
    exact hamended p hp v (hholds hp hv)

/-- **A successful run of a map into an instance amends it.** -/
theorem amended_of_run {Γ : Typing} {Λ : TypeRef → Layout}
    (htext : ∀ d, Γ .text d → ∃ text, d = .text text) (hb : b.Standard)
    (hctx : b.context.Sound Γ) (hdeep : b.mode = .deep) (hpolicy : r.policy = .propagate)
    (htarget : r.target.Sound Γ) (hx : r.target.take.1 = some x) {d : Descriptor}
    (hd : b.registry.get? r.type = some d) (hkind : d.kind = .bean)
    (hlawful : (Λ r.type).Lawful Γ d) {via : List Path} {q : Path} {entries : List (String × Node)}
    (hleads : r.source.Leads r.path via q) (hn : r.source.resolve? q = some (.map entries))
    (h : b.run n r s = some (.present y, t)) (hsub : b.inFlight ⊆ s.inFlight) :
    b.Amended Γ Λ r.source q x y := by
  -- on the nesting of the run: both a reference and a property take one level
  induction n generalizing r s t x y d via q entries with
  | zero => cases h
  | succ n ih =>
    cases hleads with
    | @step _ next _ via hnext hrest =>
      obtain ⟨s', t', hrun, hsub'⟩ := run_at_redirection hpolicy hnext h
      exact ih (r := { r with path := next }) hpolicy htarget hx hd hkind hlawful hrest hn hrun
        (List.Subset.trans hsub hsub')
    | refl =>
      have hxr : x.Of Γ r.type := htarget.take hx
      have hrsound : r.policy.Sound Γ := hpolicy ▸ FailurePolicy.sound_propagate
      have hyr : y.Of Γ r.type := (run_sound htext hb hctx ⟨htarget, hrsound⟩ h).1
      obtain ⟨hdtype, hsound⟩ := hctx.describe _ d hd
      have hxtype := hxr.type_eq
      rw [← hxtype] at hlawful
      obtain ⟨hheld, hkept⟩ :=
        holds_of_run htext hb hctx hdeep hpolicy hd hkind hlawful hx hxr hn hsub h
      refine amended_of_holds hb hpolicy (hxtype ▸ hd) (hyr.type_eq.trans hxtype.symm)
        hheld hkept ?_
      rintro p hp v ⟨-, -, s', t', hsub', hrun⟩ old e hold he hbean hlawful'
        via q entries hleads hmap
      have hproperty : (r.property p (b.context.current p x)).Sound Γ :=
        Strategy.sound_property hsound hrsound hp (hdtype.symm ▸ hxr)
      rw [hold] at hrun hproperty
      exact ih (r := r.property p (some old)) hpolicy hproperty.target rfl he hbean hlawful' hleads
        hmap hrun hsub'

/-- **Binding into an instance amends it.**  What a map does not name is kept, leaves are replaced,
containers are joined with what they held, and beans at maps are amended in turn, as long as the
accessors are lawful. -/
theorem instances_are_amended {Γ : Typing} {Λ : TypeRef → Layout}
    (htext : ∀ d, Γ .text d → ∃ text, d = .text text) (hb : b.Standard) (hdeep : b.mode = .deep) :
    (b.context.Sound Γ → ∀ (r : Request) (x y : Value) (d : Descriptor) (run : Run),
      r.policy = .propagate → r.target.Sound Γ → r.target.take.1 = some x →
        b.registry.get? r.type = some d → d.kind = .bean → (Λ r.type).Lawful Γ d →
          b.EndsWith r run → run.outcome = .present y →
            ∀ via q entries, r.source.Leads r.path via q →
              r.source.resolve? q = some (.map entries) → b.Amended Γ Λ r.source q x y) ∧
    (b.Sound Γ → b.policy = .propagate → ∀ (p : Path) (x y : Value) (d : Descriptor) (run : Run),
      Γ x.type x.datum → (b.register x.type).registry.get? x.type = some d → d.kind = .bean →
        (Λ x.type).Lawful Γ d → b.bindInto? p x = some run → run.outcome = .present y →
          ∀ via q entries, b.source.Leads p via q → b.source.resolve? q = some (.map entries) →
            (b.register x.type).Amended Γ Λ b.source q x y) := by
  constructor
  · intro hctx r x y d run hpolicy htarget hx hd hkind hlawful hrun hy via q entries hleads hn
    obtain ⟨n, o, t, hexec, rfl⟩ := hrun
    obtain rfl : o = .present y := hy
    exact amended_of_run htext hb hctx hdeep hpolicy htarget hx hd hkind hlawful hleads hn hexec
      (List.Subset.refl _)
  · intro hsound hpolicy p x y d run hdata hd hkind hlawful hrun hy via q entries hleads hn
    have hctx := (hsound.register x.type).context
    have htarget : (b.intoRequest p x).target.Sound Γ := by
      refine ⟨fun v hv => ?_, nofun⟩
      obtain rfl := Option.some.inj hv
      exact ⟨rfl, hdata⟩
    have hr : (b.intoRequest p x).Sound Γ :=
      ⟨htarget, show b.policy.Sound Γ from hpolicy ▸ FailurePolicy.sound_propagate⟩
    have hbind : (b.register x.type).bind? (b.intoRequest p x) = some run := by
      rw [bindInto?_eq (Node.contains_of_leads hleads hn)] at hrun
      rw [← hrun]
      exact (bind?_cast_eq (b := b.register x.type) htext hb hctx hr).symm
    obtain ⟨n, o, t, hexec, rfl⟩ := endsWith_of_bind? hbind
    obtain rfl : o = .present y := hy
    exact amended_of_run (b := b.register x.type) (r := b.intoRequest p x) htext hb hctx hdeep
      hpolicy htarget rfl hd hkind hlawful hleads hn hexec (List.Subset.refl _)

end Binder

namespace Sample

def keys : TypeRef := ⟨"Keys", "Keys"⟩

def gate : TypeRef := ⟨"Gate", "Gate"⟩

def gateFields : List Field :=
  [nameField, ⟨"keys", "keys", keys, false, .list [], true⟩,
    ⟨"lock", "lock", lock, false, .ofFields [nameField, openField], true⟩]

def gateDescriptor : Descriptor := .ofBean gate gateFields [] none

def grounds : Node :=
  .map [("gate", .map [("keys", .list [.text "b"]), ("lock", .map [("open", .bool true)])])]

def gateBinder : Binder :=
  { Binder.new ⟨[]⟩ ⟨"Tree", "Tree"⟩ grounds with
    registry := [⟨.text, .scalar⟩, ⟨.bool, .scalar⟩, ⟨keys, .list .text⟩, lockDescriptor,
      gateDescriptor].foldl Registry.insert .empty
    strategies := Strategy.builtin }

def northGate (keys : List Datum) (isOpen : Bool) : Value :=
  ⟨gate, .object [("name", .text "north"), ("keys", .list keys),
    ("lock", .object [("name", .text "brass"), ("open", .bool isOpen)])]⟩

def gateRequest : Request := gateBinder.intoRequest (.parse "gate") (northGate [.text "a"] false)

theorem run_gate : ∃ t, gateBinder.run 4 gateRequest ⟨[], []⟩ =
    some (.present (northGate [.text "a", .text "b"] true), t) := ⟨_, rfl⟩

theorem bindInto?_gate : ∃ run,
    gateBinder.bindInto? (.parse "gate") (northGate [.text "a"] false) = some run ∧
      run.outcome = .present (northGate [.text "a", .text "b"] true) := by
  have hbound := Binder.le_nestingBound grounds
  have hle := Binder.nestingBound_le_allowance gateBinder gateRequest
  have hsource : gateRequest.source = grounds := rfl
  have hdepth : grounds.depth = 3 := rfl
  rw [hsource] at hle
  obtain ⟨t, hrun⟩ := run_gate
  have hbind := Binder.bind?_of_run hrun (by omega)
  rw [Binder.bindInto?_eq rfl]
  show ∃ run, (gateBinder.bind? gateRequest).map _ = some run ∧ _
  rw [hbind]
  exact ⟨_, rfl, rfl⟩

def gateTyping : Typing := fun t d =>
  if t = .text then ∃ text, d = .text text
  else if t = keys then ∃ items, d = .list items
  else if t = lock then LockData d
  else if t = gate then
    d.Has ["name", "keys", "lock"] ∧ (∃ text, (d.field? "name").getD .none = .text text) ∧
      (∃ items, (d.field? "keys").getD .none = .list items) ∧
        LockData ((d.field? "lock").getD .none)
  else True
where
  LockData (d : Datum) : Prop :=
    d.Has ["name", "open"] ∧ ∃ text, (d.field? "name").getD .none = .text text

theorem gateTyping_lock (d : Datum) : gateTyping lock d ↔
    d.Has ([nameField, openField].map (·.label)) ∧
      ∀ f ∈ [nameField, openField], gateTyping f.type ((d.field? f.label).getD .none) := by
  simp [gateTyping, gateTyping.LockData, nameField, openField, lock, keys, gate, TypeRef.text,
    TypeRef.bool]

theorem gateTyping_gate (d : Datum) : gateTyping gate d ↔
    d.Has (gateFields.map (·.label)) ∧
      ∀ f ∈ gateFields, gateTyping f.type ((d.field? f.label).getD .none) := by
  simp [gateTyping, gateTyping.LockData, gateFields, nameField, openField, lock, keys, gate,
    TypeRef.text, TypeRef.bool]

theorem sound_keys : (⟨keys, .list .text⟩ : Descriptor).Sound gateTyping where
  collect into items v _ _ hv := by
    cases into with
    | none =>
      have hv : Container.list keys .text items = .ok v := hv
      rw [Container.list] at hv
      cases hdata : Container.unpack .text items with
      | error e =>
        rw [hdata] at hv
        cases hv
      | ok data =>
        rw [hdata] at hv
        exact ⟨data, (Except.ok.inj hv) ▸ rfl⟩
    | some old =>
      obtain ⟨data, -, rfl⟩ := Container.of_extend hv
      exact ⟨_, rfl⟩
  entries into _ _ _ _ hv := by cases into <;> cases hv
  construct _ _ _ hv := by cases hv
  factory _ hv := by cases hv
  getter _ hp := by cases hp
  setter _ hp := by cases hp

theorem sound_gateBinder : gateBinder.Sound gateTyping where
  registry d hd := by
    have hd : d ∈ [⟨.text, .scalar⟩, ⟨.bool, .scalar⟩, ⟨keys, .list .text⟩, lockDescriptor,
      gateDescriptor] := hd
    simp only [List.mem_cons, List.not_mem_nil, or_false] at hd
    rcases hd with rfl | rfl | rfl | rfl | rfl
    · exact Descriptor.sound_of_scalar rfl
    · exact Descriptor.sound_of_scalar rfl
    · exact sound_keys
    · refine Descriptor.sound_ofBean gateTyping_lock (by decide) fun d hd => ?_
      obtain rfl := Option.some.inj hd
      exact ⟨⟨_, rfl, rfl⟩, _, rfl⟩
    · exact Descriptor.sound_ofBean gateTyping_gate (by decide) nofun
  catalog _ hd := by cases hd
  conversion := by
    intro t converter n d hconverter hd
    unfold gateTyping
    split_ifs with htext hkeys hlock hgate
    · exact sound_standardConversion _ t converter n d hconverter hd htext
    · subst hkeys
      cases hconverter
    · subst hlock
      cases hconverter
    · subst hgate
      cases hconverter

/-- The gate keeps its name and the name of its lock, has one more key, and its lock is open. -/
theorem gate_is_amended :
    ((∀ d, gateTyping .text d → ∃ text, d = .text text) ∧ gateBinder.Standard ∧
      gateBinder.mode = .deep ∧ gateBinder.Sound gateTyping ∧ gateBinder.policy = .propagate ∧
      gateRequest.target.Sound gateTyping ∧
      gateBinder.registry.get? gate = some gateDescriptor ∧
      Layout.labelled.Lawful gateTyping gateDescriptor ∧
      Layout.labelled.Lawful gateTyping lockDescriptor) ∧
    (∃ run, gateBinder.EndsWith gateRequest run ∧
      run.outcome = .present (northGate [.text "a", .text "b"] true) ∧
      gateBinder.Amended gateTyping (fun _ => Layout.labelled) grounds (.parse "gate")
        (northGate [.text "a"] false) (northGate [.text "a", .text "b"] true)) ∧
    ∃ run, gateBinder.bindInto? (.parse "gate") (northGate [.text "a"] false) = some run ∧
      run.outcome = .present (northGate [.text "a", .text "b"] true) ∧
      (gateBinder.register gate).Amended gateTyping (fun _ => Layout.labelled) grounds
        (.parse "gate") (northGate [.text "a"] false) (northGate [.text "a", .text "b"] true) := by
  have htext (d : Datum) (h : gateTyping .text d) : ∃ text, d = .text text := h
  have hstandard : gateBinder.Standard := Strategy.arrange_nil.symm
  have hdata : gateTyping gate (northGate [.text "a"] false).datum :=
    ⟨⟨_, rfl, rfl⟩, ⟨_, rfl⟩, ⟨_, rfl⟩, ⟨_, rfl, rfl⟩, _, rfl⟩
  have htarget : gateRequest.target.Sound gateTyping := by
    refine ⟨fun v hv => ?_, nofun⟩
    obtain rfl := Option.some.inj hv
    exact ⟨rfl, hdata⟩
  have hgate : Layout.labelled.Lawful gateTyping gateDescriptor :=
    Descriptor.lawful_ofBean (by decide) fun d h => ((gateTyping_gate d).1 h).1
  have hlock : Layout.labelled.Lawful gateTyping lockDescriptor :=
    Descriptor.lawful_ofBean (by decide) fun d h => ((gateTyping_lock d).1 h).1
  obtain ⟨hends, hinto⟩ := @Binder.instances_are_amended gateBinder gateTyping
    (fun _ => Layout.labelled) htext hstandard rfl
  refine ⟨⟨htext, hstandard, rfl, sound_gateBinder, rfl, htarget, rfl, hgate, hlock⟩, ?_, ?_⟩
  · obtain ⟨t, hrun⟩ := run_gate
    refine ⟨_, ⟨4, _, t, hrun, rfl⟩, rfl, ?_⟩
    exact hends sound_gateBinder.context gateRequest _ _ _ _ rfl htarget rfl rfl rfl hgate
      ⟨4, _, t, hrun, rfl⟩ rfl [] _ _ (.refl _) rfl
  · obtain ⟨run, hrun, hy⟩ := bindInto?_gate
    refine ⟨run, hrun, hy, ?_⟩
    exact hinto sound_gateBinder rfl _ _ _ _ run hdata rfl rfl hgate hrun hy [] _ _ (.refl _) rfl

end Sample

end ConfigBind
