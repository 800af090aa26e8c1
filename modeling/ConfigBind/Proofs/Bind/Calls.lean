import ConfigBind.Proofs.Bind.Alike

/-!
# Binds one after the other

A `Call` is a bind that a binder is asked for.  A call may register types; otherwise it leaves the
binder as it was (`Binder.perform?_binder`), with the same paths in flight.  What has been
registered in the meantime makes no difference to a later bind, since faithful registries agree
about all that the type of the bind leads to (`Binder.bindPath?_of_faithful`).
-/

namespace ConfigBind

/-- A bind that a binder is asked for. -/
inductive Call
  | fresh (path : Path) (type : TypeRef)
  | under (path : Path) (type : TypeRef) (policy : FailurePolicy)
  | target (path : Path) (target : Target)
  | into (path : Path) (value : Value)
  | tree (source : Node) (path : Path) (type : TypeRef)

namespace Call

def path : Call → Path
  | fresh p _ | under p _ _ | target p _ | into p _ | tree _ p _ => p

/-- The policy that a call is under, for a binder with the given policy. -/
def policy (binders : FailurePolicy) : Call → FailurePolicy
  | under _ _ policy => policy
  | tree .. => .propagate
  | _ => binders

end Call

namespace Binder

variable {b b' : Binder}

/-- What a call comes to. -/
def perform? (b : Binder) : Call → Option Run
  | .fresh p t => b.bindPath? p t
  | .under p t policy => b.bindWith? p t policy
  | .target p target => b.bindTarget? p target
  | .into p value => b.bindInto? p value
  | .tree source p t => b.bindIn? source p t

/-- The binder after some calls, each on the binder that the one before has left. -/
def performAll? (b : Binder) : List Call → Option Binder
  | [] => some b
  | call :: rest => (b.perform? call).bind fun run => run.binder.performAll? rest

/-! ## One call -/

theorem binder_of_bind? (hb : b.Standard) {r : Request} {run : Run} (h : b.bind? r = some run) :
    run.binder = b := by
  obtain ⟨⟨o, t⟩, hrun, rfl⟩ := Option.map_eq_some_iff.1 h
  have hflight : t.inFlight = b.inFlight := (run_traced hb hrun).inFlight
  simp only [hflight]

theorem binder_of_bindWith? (hb : b.Standard) {p : Path} {t : TypeRef} {policy : FailurePolicy}
    {run : Run} (h : b.bindWith? p t policy = some run) : run.binder = b.register t := by
  obtain ⟨run', hrun', rfl⟩ := Option.map_eq_some_iff.1 h
  have hbinder := binder_of_bind? (b := b.register t) hb hrun'
  exact hbinder

theorem perform?_binder (hb : b.Standard) {call : Call} {run : Run}
    (h : b.perform? call = some run) : run.binder = b ∨ ∃ t, run.binder = b.register t := by
  cases call with
  | fresh p t => exact .inr ⟨t, binder_of_bindWith? hb h⟩
  | under p t policy => exact .inr ⟨t, binder_of_bindWith? hb h⟩
  | target p target => exact .inl (binder_of_bind? hb h)
  | tree source p t => exact .inl (binder_of_bind? hb h)
  | into p value =>
    refine .inr ⟨value.type, ?_⟩
    unfold perform? bindInto? at h
    dsimp only at h
    split at h
    · obtain ⟨run', hrun', rfl⟩ := Option.map_eq_some_iff.1 h
      have hbinder := binder_of_bind? (b := b.register value.type) hb hrun'
      exact hbinder
    · rw [← Option.some.inj h]

theorem performAll?_induction {P : Binder → Prop} (hregister : ∀ b t, P b → P (b.register t))
    (hb : b.Standard) (hP : P b) {calls : List Call} (h : b.performAll? calls = some b') :
    P b' := by
  induction calls generalizing b with
  | nil => exact Option.some.inj h ▸ hP
  | cons call rest ih =>
    obtain ⟨run, hrun, hrest⟩ := Option.bind_eq_some_iff.1 h
    rcases perform?_binder hb hrun with heq | ⟨t, heq⟩
    · rw [heq] at hrest
      exact ih hb hP hrest
    · rw [heq] at hrest
      exact ih (b := b.register t) hb (hregister b t hP) hrest

/-! ## Calls have results -/

/-- All names that the binder knows, or may come to know, are visible. -/
def NamesVisible (b : Binder) (separator : Char) : Prop :=
  b.registry.NamesVisible separator ∧ b.catalog.NamesVisible separator

theorem NamesVisible.register {separator : Char} (h : b.NamesVisible separator) (t : TypeRef) :
    (b.register t).NamesVisible separator :=
  ⟨h.1.register h.2 t, h.2⟩

theorem isSome_bindWith? (hb : b.Standard) {p : Path} {t : TypeRef} {policy : FailurePolicy}
    (hpolicy : policy.Direct) (hnames : b.NamesVisible p.separator) :
    (b.bindWith? p t policy).isSome = true := by
  unfold bindWith?
  rw [Option.isSome_map]
  exact isSome_bind? (b := b.register t) hb hpolicy (hnames.register t).1

theorem isSome_perform? (hb : b.Standard) {call : Call}
    (hpolicy : (call.policy b.policy).Direct) (hnames : b.NamesVisible call.path.separator) :
    (b.perform? call).isSome = true := by
  cases call with
  | fresh p t => exact isSome_bindWith? hb hpolicy hnames
  | under p t policy => exact isSome_bindWith? hb hpolicy hnames
  | target p target => exact isSome_bind? hb hpolicy hnames.1
  | tree source p t => exact isSome_bind? hb hpolicy hnames.1
  | into p value =>
    unfold perform? bindInto?
    dsimp only
    split
    · rw [Option.isSome_map]
      exact isSome_bind? (b := b.register value.type) hb hpolicy (hnames.register _).1
    · rfl

theorem isSome_performAll? (hb : b.Standard) {calls : List Call}
    (hcalls : ∀ call ∈ calls,
      (call.policy b.policy).Direct ∧ b.NamesVisible call.path.separator) :
    (b.performAll? calls).isSome = true := by
  induction calls generalizing b with
  | nil => rfl
  | cons call rest ih =>
    obtain ⟨hcall, hrest⟩ := List.forall_mem_cons.1 hcalls
    obtain ⟨run, hrun⟩ := Option.isSome_iff_exists.1 (isSome_perform? hb hcall.1 hcall.2)
    rw [performAll?, hrun, Option.bind_some]
    rcases perform?_binder hb hrun with heq | ⟨t, heq⟩
    · rw [heq]
      exact ih hb hrest
    · rw [heq]
      exact ih (b := b.register t) hb fun c hc => ⟨(hrest c hc).1, (hrest c hc).2.register t⟩

/-! ## Later calls -/

theorem isSome_standard_text : (Registry.standard.get? .text).isSome = true := by decide

theorem alike_of_holds {registry registry' : Registry} (h : registry.Holds b.catalog [])
    (h' : registry'.Holds b.catalog []) {t : TypeRef}
    (ht : registry.get? t = b.catalog.known? t) (ht' : registry'.get? t = b.catalog.known? t) :
    Context.Alike (Registry.Reaches b.catalog t) (context { b with registry := registry })
      (context { b with registry := registry' }) where
  describe _ hu := (h.get?_of_reaches ht hu).trans (h'.get?_of_reaches ht' hu).symm
  conversion := rfl
  mode := rfl
  closed u d hu hd _ hv := .step hu (h.known u d hd) hv

theorem dependencies_of_text {registry : Registry} (h : registry.Holds b.catalog [])
    {d : Descriptor} (hd : registry.get? .text = some d) : d.dependencies = [] := by
  obtain ⟨e, he⟩ := Option.isSome_iff_exists.1 isSome_standard_text
  have hde : d = e :=
    Option.some.inj ((h.known _ d hd).symm.trans (Registry.known?_of_standard he))
  rw [hde]
  exact Registry.dependencies_of_standard he

theorem alike_of_faithful {registry registry' : Registry}
    (h : registry.Faithful b.catalog []) (h' : registry'.Faithful b.catalog []) {t : TypeRef}
    (ht : registry.get? t = b.catalog.known? t) (ht' : registry'.get? t = b.catalog.known? t) :
    Context.Alike (fun u => Registry.Reaches b.catalog t u ∨ u = .text)
      (context { b with registry := registry }) (context { b with registry := registry' }) := by
  obtain ⟨d, hd⟩ := Option.isSome_iff_exists.1 isSome_standard_text
  refine (alike_of_holds h.holds h'.holds ht ht').with_text ?_ ?_
  · exact (h.standard _ d hd).trans (h'.standard _ d hd).symm
  · exact fun e he => dependencies_of_text h.holds he

/-- **What has been registered makes no difference to a bind.** -/
theorem bindPath?_of_faithful (hb : b.Standard) (hpolicy : b.policy.Direct) {registry : Registry}
    (hstandard : b.registry = .standard) (h : registry.Faithful b.catalog []) (p : Path)
    (t : TypeRef) :
    (bindPath? { b with registry := registry } p t).map (fun run => (run.outcome, run.events)) =
      (b.bindPath? p t).map fun run => (run.outcome, run.events) := by
  -- both registries are faithful once the type is registered, though one may hold more types
  have hfresh : b.registry.Faithful b.catalog [] := hstandard ▸ Registry.faithful_standard _
  have halike := alike_of_faithful (b := b) (h.register t) (hfresh.register t)
    (h.get?_register t) (hfresh.get?_register t)
  have hlater : (register { b with registry := registry } t).Standard := hb
  have hnow : (b.register t).Standard := hb
  have hrun (n : Nat) (s : Session) :
      (register { b with registry := registry } t).run n ⟨p, .ofType t, b.source, b.policy⟩ s =
        (b.register t).run n ⟨p, .ofType t, b.source, b.policy⟩ s :=
    run_of_alike hlater hnow halike (.inr rfl) n (.inl .refl) hpolicy s
  unfold bindPath? bindWith? bind?
  dsimp only [register] at hrun ⊢
  simp only [Option.map_map]
  have hallowance : ∀ r, allowance { b with registry := (registry.register b.catalog t).2 } r =
      allowance { b with registry := (b.registry.register b.catalog t).2 } r := fun _ => rfl
  rw [hrun, hallowance]
  rfl

/-- **Binds restore the paths in flight.**  Whatever a policy decides, a run that ends has the same
paths in flight as at its start, and its events are bracketed.  Where policies are direct and names
visible, it does end.  So after any calls there is in flight what was before them, and the binder
binds a path as it would have done without them. -/
theorem calls_restore_flight (hb : b.Standard) :
    (∀ n r s o t, b.run n r s = some (o, t) → t.inFlight = s.inFlight ∧
      ∃ es, Bracketed b s.inFlight es ∧ t.events = es.reverse ++ s.events) ∧
    (∀ (r : Request) (s : Session), r.policy.Direct →
      b.registry.NamesVisible r.path.separator →
        ∃ o t, b.run (b.allowance r) r s = some (o, t)) ∧
    ∀ calls : List Call,
      ((∀ call ∈ calls, (call.policy b.policy).Direct ∧ b.NamesVisible call.path.separator) →
        (b.performAll? calls).isSome = true) ∧
      ∀ b', b.performAll? calls = some b' → b'.inFlight = b.inFlight ∧
        (b.registry = .standard → b.policy.Direct → ∀ p t,
          (b'.bindPath? p t).map (fun run => (run.outcome, run.events)) =
            (b.bindPath? p t).map fun run => (run.outcome, run.events)) := by
  refine ⟨fun n r s o t h => ⟨(run_traced hb h).inFlight, (run_traced hb h).events⟩, ?_, ?_⟩
  · intro r s hpolicy hnames
    obtain ⟨o, t, h⟩ := run_of_nestingBound hb hpolicy hnames s
    exact ⟨o, t, h _ (nestingBound_le_allowance b r)⟩
  · refine fun calls => ⟨isSome_performAll? hb, fun b' h => ⟨?_, ?_⟩⟩
    · exact performAll?_induction (P := fun c => c.inFlight = b.inFlight) (fun _ _ hc => hc) hb
        rfl h
    · intro hstandard hpolicy p t
      obtain ⟨registry, rfl, hfaithful⟩ := performAll?_induction
        (P := fun c => ∃ registry, c = { b with registry := registry } ∧
          registry.Faithful b.catalog [])
        (by
          rintro _ t ⟨registry, rfl, hfaithful⟩
          exact ⟨(registry.register b.catalog t).2, rfl, hfaithful.register t⟩)
        hb ⟨b.registry, rfl, hstandard ▸ Registry.faithful_standard _⟩ h
      exact bindPath?_of_faithful hb hpolicy hstandard hfaithful p t

end Binder

namespace Sample

def fresh : Binder := .new catalog ⟨"Tree", "Tree"⟩ loop

def calls : List Call := [.fresh (.parse "a") link, .fresh (.parse "b") .text]

/-- After data that refers to itself, links are bound as if nothing had been bound before. -/
theorem fresh_after_calls :
    (fresh.Standard ∧ fresh.policy.Direct ∧ fresh.registry = .standard) ∧
      ∃ b', fresh.performAll? calls = some b' ∧ b'.inFlight = [] ∧
        (b'.bindPath? (.parse "a") link).map (fun run => (run.outcome, run.events)) =
          (fresh.bindPath? (.parse "a") link).map fun run => (run.outcome, run.events) := by
  have hdirect : fresh.policy.Direct := FailurePolicy.direct_propagate
  have hnames : fresh.NamesVisible '.' :=
    ⟨Registry.namesVisible_standard '.', namesVisible_catalog⟩
  have hcalls : ∀ call ∈ calls,
      (call.policy fresh.policy).Direct ∧ fresh.NamesVisible call.path.separator := by
    intro call hcall
    simp only [calls, List.mem_cons, List.not_mem_nil, or_false] at hcall
    rcases hcall with rfl | rfl <;> exact ⟨hdirect, hnames⟩
  obtain ⟨-, -, hrestore⟩ := Binder.calls_restore_flight (b := fresh) rfl
  obtain ⟨hsome, hlater⟩ := hrestore calls
  obtain ⟨b', hb'⟩ := Option.isSome_iff_exists.1 (hsome hcalls)
  obtain ⟨hflight, hfresh⟩ := hlater b' hb'
  exact ⟨⟨rfl, hdirect, rfl⟩, b', hb', hflight, hfresh rfl hdirect _ _⟩

end Sample

end ConfigBind
