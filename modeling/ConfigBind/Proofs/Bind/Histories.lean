import ConfigBind.Proofs.Bind.Calls
import ConfigBind.Proofs.Bind.Redirection

/-!
# What was registered before

A bind registers its own type, with all that the type leads to, so it should not matter what was
registered before.  But references inside a text are bound to texts, which nothing that a type
depends on need have registered.  So two binders on registries with different histories agree as
long as both know texts, or neither; and where only one does, as long as none is missed
(`Session.Clear`).

* `Script.exec_transfer`: what passes from the parts of a script to the script.
* `Binder.run_of_history`: two binders that are alike, but for texts, do the same in such a run.
* `Binder.bindPath?_of_recorded`: so histories make no other difference to a bind.
-/

namespace ConfigBind

/-- **What parts hand over, a script hands over.**  `C` holds at the end of the run, and so at the
end of each of its parts; there the other run does the same. -/
theorem Script.exec_transfer {α : Type} {Q : Event → Prop} {P : Request → Prop}
    {C : Session → Prop} {f g : Request → Bind (Outcome Value)}
    (hnote : ∀ s e, C (s.note e) → C s)
    (hcall : ∀ r s o t, P r → f r s = some (o, t) → C t → C s ∧ g r s = some (o, t))
    {c : Script α} (hc : c.Only Q P) {s t : Session} {a : α} (h : c.exec f s = some (a, t))
    (ht : C t) : C s ∧ c.exec g s = some (a, t) := by
  induction c generalizing s with
  | done b =>
    obtain ⟨rfl, rfl⟩ := Prod.mk.inj (Option.some.inj h)
    exact ⟨ht, rfl⟩
  | event e next ih =>
    obtain ⟨hs, hnext⟩ := ih hc.2 h
    exact ⟨hnote s e hs, hnext⟩
  | call r next ih =>
    obtain ⟨outcome, u, hr, hrest⟩ := exec_call_eq_some h
    obtain ⟨hu, hnext⟩ := ih outcome (hc.2 outcome) hrest
    obtain ⟨hs, hr'⟩ := hcall r s outcome u hc.1 hr hu
    refine ⟨hs, ?_⟩
    rw [exec_call, hr']
    exact hnext

/-! ## Texts that are missed -/

/-- The event is that a text is not bound because texts are not registered. -/
def Event.MissesText : Event → Prop
  | failed _ t e => t = .text ∧ e = .unregisteredType TypeRef.text.name
  | _ => False

/-- If texts are not among the types of `A`, none has been missed. -/
def Session.Clear (A : TypeRef → Prop) (s : Session) : Prop :=
  A .text ∨ ∀ e ∈ s.events, ¬ e.MissesText

theorem Session.clear_of_note {A : TypeRef → Prop} {s : Session} {e : Event}
    (h : (s.note e).Clear A) : s.Clear A := by
  rcases h with h | h
  · exact .inl h
  · exact .inr fun x hx => h x (List.mem_cons_of_mem e hx)

/-- What a policy has bound in place of what failed is of a type of `A`. -/
def FailurePolicy.Within (A : TypeRef → Prop) (policy : FailurePolicy) : Prop :=
  ∀ earlier path t e other u, policy.onFailure earlier path t e = .rebind other u → A u

theorem FailurePolicy.Direct.within {policy : FailurePolicy} (h : policy.Direct)
    (A : TypeRef → Prop) : policy.Within A :=
  fun _ _ _ _ _ _ hrebind => absurd hrebind (h _ _ _ _ _ _)

theorem FailurePolicy.Within.mono {A B : TypeRef → Prop} {policy : FailurePolicy}
    (h : policy.Within A) (hAB : ∀ t, A t → B t) : policy.Within B :=
  fun _ _ _ _ _ _ hrebind => hAB _ (h _ _ _ _ _ _ hrebind)

/-- What is seen of a bind: the outcome and the events. -/
def Run.view (run : Run) : Outcome Value × List Event := (run.outcome, run.events)

/-! ## Runs -/

namespace Binder

variable {A : TypeRef → Prop} {b b' : Binder} {r : Request} {n : Nat} {s t : Session}
  {o : Outcome Value}

theorem only_recovery_of_within (hpolicy : r.policy.Within A) (e : BindError) (s : Session) :
    (b.recovery r e s).Only (fun _ => True) fun q =>
      (A q.type ∨ q.type = .text) ∧ q.policy.Within A := by
  have hdrop : (drop r).Only (fun _ => True) fun q =>
      (A q.type ∨ q.type = .text) ∧ q.policy.Within A := ⟨trivial, trivial⟩
  refine ⟨trivial, trivial, ?_⟩
  show Script.Only _ _ (b.verdict r _)
  cases h : r.policy.onFailure s.asked r.path r.type e with
  | fallback value => trivial
  | ignore => exact hdrop
  | fail e => trivial
  | rebind other u =>
    refine ⟨⟨.inl (hpolicy _ _ _ _ _ _ h), FailurePolicy.direct_propagate.within A⟩, ?_⟩
    intro o
    cases o with
    | present value => trivial
    | empty => exact hdrop
    | failed e => trivial

theorem recovery_eq_of_source (hsource : b.source = b'.source) (r : Request) (e : BindError)
    (s : Session) : b.recovery r e s = b'.recovery r e s := by
  have hverdict : b.verdict r = b'.verdict r := by
    funext decision
    cases decision with
    | rebind other u =>
      unfold verdict
      rw [hsource]
      rfl
    | _ => rfl
  unfold recovery
  rw [hverdict]

theorem mem_events_of_recovery {f : Request → Bind (Outcome Value)}
    (hf : ∀ r s o t, f r s = some (o, t) → s.events ⊆ t.events) {e : BindError} {u : Session}
    (h : (b.recovery r e u).exec f s = some (o, t)) :
    Event.failed r.path.render r.type e ∈ t.events := by
  have hall : (b.recovery r e u).Only (fun _ => True) fun _ => True :=
    Script.Only.mono (only_recovery_of_within (A := fun _ => True) (fun _ _ _ _ _ _ _ => trivial)
      e u) (fun _ _ => trivial) fun _ _ => trivial
  have hsub : (s.note (.failed r.path.render r.type e)).events ⊆ t.events :=
    Script.exec_rel (R := fun s t => s.events ⊆ t.events) (fun _ => List.Subset.refl _)
      (fun _ _ _ => List.Subset.trans) (fun s e _ => List.subset_cons_self e s.events)
      (fun r s o t _ => hf r s o t) hall.2 h
  exact hsub List.mem_cons_self

theorem events_subset_of_run (hb : b.Standard) (h : b.run n r s = some (o, t)) :
    s.events ⊆ t.events := by
  obtain ⟨es, -, hes⟩ := (run_traced hb h).events
  rw [hes]
  exact List.subset_append_right _ _

/-- **Two binders that are alike, but for texts, do the same where no text is missed.** -/
theorem run_of_history (hb : b.Standard) (hb' : b'.Standard) (hsource : b.source = b'.source)
    (h : b.context.Alike A b'.context) (htext : A .text ∨ b.registry.get? .text = none)
    (hr : A r.type ∨ r.type = .text) (hpolicy : r.policy.Within A)
    (hrun : b.run n r s = some (o, t)) (ht : t.Clear A) :
    s.Clear A ∧ b'.run n r s = some (o, t) := by
  induction n generalizing r s o t with
  | zero => cases hrun
  | succ n ih =>
    have hcall : ∀ r s o t, (A r.type ∨ r.type = .text) ∧ r.policy.Within A →
        b.run n r s = some (o, t) → t.Clear A → s.Clear A ∧ b'.run n r s = some (o, t) :=
      fun _ _ _ _ hq => ih hq.1 hq.2
    have hrecovery {e : BindError} {u s : Session} {o : Outcome Value} {t : Session}
        (hexec : (b.recovery r e u).exec (b.run n) s = some (o, t)) (ht : t.Clear A) :
        s.Clear A ∧ (b'.recovery r e u).exec (b'.run n) s = some (o, t) := by
      rw [← recovery_eq_of_source hsource]
      exact Script.exec_transfer (fun _ _ => Session.clear_of_note) hcall
        (only_recovery_of_within hpolicy e u) hexec ht
    -- a text that cannot be bound is missed, so the type is one of `A`
    have htype : A r.type := by
      rcases hr with hr | hr
      · exact hr
      · rcases htext with htext | hnone
        · rwa [hr]
        · rcases ht with ht | ht
          · rwa [hr]
          · have hst : b.strategyFor r.type = .error (.unregisteredType TypeRef.text.name) := by
              rw [hr]
              exact strategyFor_of_get?_eq_none hnone
            rw [run_of_error hst] at hrun
            have hmissed := mem_events_of_recovery
              (fun _ _ _ _ => events_subset_of_run hb) hrun
            exact absurd ⟨hr, rfl⟩ (ht _ hmissed)
    have hstrategy := strategyFor_of_alike hb hb' h htype
    rcases run_cases hrun with ⟨e, hst, hexec⟩ | ⟨strategy, hst, hexec⟩
    · rw [run_of_error (hstrategy ▸ hst)]
      exact hrecovery hexec ht
    rcases hexec with ⟨hm, hexec⟩ | ⟨hm, o', u, u', hdelegate, hsettle, rfl⟩
    · obtain ⟨hclear, hexec'⟩ := hrecovery hexec ht
      rw [run_of_mem (hstrategy ▸ hst) hm]
      exact ⟨Session.clear_of_note (Session.clear_of_note hclear), hexec'⟩
    · have hu' : u'.Clear A := Session.clear_of_note (e := .left r.path.render) ht
      obtain ⟨hu, hsettle'⟩ : u.Clear A ∧ b'.settle (b'.run n) r o' u = some (o, u') := by
        rw [settle_eq] at hsettle ⊢
        cases o' with
        | failed e => exact hrecovery hsettle hu'
        | _ =>
          obtain ⟨rfl, rfl⟩ := Prod.mk.inj (Option.some.inj hsettle)
          exact ⟨hu', rfl⟩
      obtain ⟨hentry, hdelegate'⟩ := Script.exec_transfer (fun _ _ => Session.clear_of_note)
        hcall ((only_delegate hb hst).mono (fun _ he => he) fun q hpart =>
          ⟨hpart.type_or_text h htype, hpart.policy_eq ▸ hpolicy⟩) hdelegate hu
      rw [delegate_of_alike hb h htype hst] at hdelegate'
      refine ⟨?_, run_of_settle (hstrategy ▸ hst) hm hdelegate' hsettle'⟩
      exact Session.clear_of_note (Session.clear_of_note hentry)

/-! ## Binds -/

theorem bindPath?_eq (b : Binder) (p : Path) (t : TypeRef) :
    (b.bindPath? p t).map Run.view =
      ((b.register t).run (b.allowance ⟨p, .ofType t, b.source, b.policy⟩)
        ⟨p, .ofType t, b.source, b.policy⟩ ⟨b.inFlight, []⟩).map
          fun x => (x.1.cast t, x.2.events.reverse) := by
  unfold bindPath? bindWith? bind?
  rw [Option.map_map, Option.map_map]
  rfl

/-- What a bind comes to on one registry it comes to on another one that is alike for its type, as
long as no text is missed. -/
theorem bindPath?_of_alike (hb : b.Standard) {registry registry' : Registry} {p : Path}
    {t : TypeRef} (halike : Context.Alike A
      (context { b with registry := (registry.register b.catalog t).2 })
      (context { b with registry := (registry'.register b.catalog t).2 }))
    (htext : A .text ∨ (registry.register b.catalog t).2.get? .text = none) (ht : A t)
    (hpolicy : b.policy.Within A) {x : Outcome Value × List Event}
    (hview : (bindPath? { b with registry := registry } p t).map Run.view = some x)
    (hclear : A .text ∨ ∀ e ∈ x.2, ¬ e.MissesText) :
    (bindPath? { b with registry := registry' } p t).map Run.view = some x := by
  rw [bindPath?_eq, Option.map_eq_some_iff] at hview
  obtain ⟨⟨o, u⟩, hrun, rfl⟩ := hview
  have hclear : u.Clear A := by
    rcases hclear with hclear | hclear
    · exact .inl hclear
    · exact .inr fun e he => hclear e (List.mem_reverse.2 he)
  have hone : (register { b with registry := registry } t).Standard := hb
  have hother : (register { b with registry := registry' } t).Standard := hb
  obtain ⟨-, hrun'⟩ := run_of_history (r := ⟨p, .ofType t, b.source, b.policy⟩) hone hother rfl
    halike htext (.inl ht) hpolicy hrun hclear
  rw [bindPath?_eq, Option.map_eq_some_iff]
  exact ⟨(o, u), hrun', rfl⟩

/-- **Of what was registered before, only texts make a difference to a bind.**  On registries that
both know texts, or both do not, it comes to the same, events included; and so it does if the first
one does not know them but none is missed. -/
theorem bindPath?_of_recorded (hb : b.Standard) (hc : b.catalog.DescribesStandard)
    {registry registry' : Registry} (h : registry.Recorded b.catalog)
    (h' : registry'.Recorded b.catalog) (p : Path) (t : TypeRef)
    (hpolicy : b.policy.Within (Registry.Reaches b.catalog t)) :
    (((registry.register b.catalog t).2.get? .text).isSome =
        ((registry'.register b.catalog t).2.get? .text).isSome →
      (bindPath? { b with registry := registry } p t).map Run.view =
        (bindPath? { b with registry := registry' } p t).map Run.view) ∧
    ((registry.register b.catalog t).2.get? .text = none →
      ∀ o es, (bindPath? { b with registry := registry } p t).map Run.view = some (o, es) →
        (∀ e ∈ es, ¬ e.MissesText) →
          (bindPath? { b with registry := registry' } p t).map Run.view = some (o, es)) ∧
    (b.policy.Direct → b.catalog.NamesVisible p.separator →
      (bindPath? { b with registry := registry } p t).isSome = true ∧
        (bindPath? { b with registry := registry' } p t).isSome = true) := by
  have hholds := (h.holds hc).register t
  have hholds' := (h'.holds hc).register t
  have hknown := (h.holds hc).get?_register t
  have hknown' := (h'.holds hc).get?_register t
  have halike := alike_of_holds (b := b) hholds hholds' hknown hknown'
  refine ⟨fun htext => ?_, fun hnone o es hview hclear => ?_, fun hdirect hnames => ?_⟩
  · have hsame : (registry.register b.catalog t).2.get? .text =
        (registry'.register b.catalog t).2.get? .text := by
      cases hd : (registry.register b.catalog t).2.get? .text with
      | none =>
        rw [hd] at htext
        exact (Option.isNone_iff_eq_none.1 (by simpa using htext.symm)).symm
      | some d =>
        rw [hd] at htext
        obtain ⟨d', hd'⟩ := Option.isSome_iff_exists.1 htext.symm
        rw [hd', ← hholds.known _ d hd, hholds'.known _ d' hd']
    have hleaf (d : Descriptor)
        (hd : (registry.register b.catalog t).2.get? .text = some d) : d.dependencies = [] :=
      dependencies_of_text hholds hd
    -- so the binders are alike about texts too, in both directions
    have hwith := halike.with_text hsame hleaf
    have hback := (alike_of_holds (b := b) hholds' hholds hknown' hknown).with_text hsame.symm
      fun d hd => hleaf d (hsame.trans hd)
    have hwithin := hpolicy.mono fun u hu => (.inl hu : Registry.Reaches b.catalog t u ∨ u = .text)
    refine Option.ext fun x => ⟨fun hx => ?_, fun hx => ?_⟩
    · exact bindPath?_of_alike hb hwith (.inl (.inr rfl)) (.inl .refl) hwithin hx (.inl (.inr rfl))
    · exact bindPath?_of_alike hb hback (.inl (.inr rfl)) (.inl .refl) hwithin hx (.inl (.inr rfl))
  · exact bindPath?_of_alike hb halike (.inr hnone) .refl hpolicy hview (.inr hclear)
  · have hrecorded {registry : Registry} (h : registry.Recorded b.catalog) :
        registry.NamesVisible p.separator := by
      induction h with
      | empty => exact fun d hd => by cases hd
      | standard => exact Registry.namesVisible_standard _
      | register _ u ih => exact ih.register hnames u
    constructor
    · exact isSome_bindWith? (b := { b with registry := registry }) hb hdirect
        ⟨hrecorded h, hnames⟩
    · exact isSome_bindWith? (b := { b with registry := registry' }) hb hdirect
        ⟨hrecorded h', hnames⟩

end Binder

namespace Sample

def spliced : Node := .map [("a", .text "$\x7bb\x7d1"), ("b", .text "8")]

def primitives : Catalog := ⟨Registry.standard.types⟩

def knowing (registry : Registry) : Binder :=
  { Binder.new primitives ⟨"Tree", "Tree"⟩ spliced with registry }

def number : Request := ⟨.parse "a", .ofType IntegerType.u16.ref, spliced, .propagate⟩

theorem parse_spliced : Text.Template.parse "$\x7bb\x7d1".toList = ⟨[([], ['b'])], ['1']⟩ := by
  have hopen : Text.splitOpen? "$\x7bb\x7d1".toList = some ([], ['b', '\x7d', '1']) := by decide
  have hclose : Text.splitClose? ['b', '\x7d', '1'] = some (['b'], ['1']) := by decide
  have hrest : Text.Template.parse ['1'] = ⟨[], ['1']⟩ :=
    Text.Template.parse_of_not_hasReference (by decide)
  rw [Text.Template.parse_of_split hopen hclose, hrest]

theorem bind_spliced (ctx : Context) : Strategy.scalar.bind ctx number =
    (do
      let filled ← Text.Template.fillPieces (Strategy.resolveReference ctx number) ['1']
        [([], ['b'])]
      return some (← ctx.convert (.text (String.ofList filled)) IntegerType.u16.ref) :
        Attempt (Option Value)).outcome := by
  have hn : number.source.resolve? number.path = some (.text "$\x7bb\x7d1") := rfl
  have href : Text.hasReference "$\x7bb\x7d1".toList = true := by decide
  show (Strategy.bindScalar ctx number).outcome = _
  rw [Strategy.bindScalar, hn]
  dsimp only
  rw [if_pos href, parse_spliced]
  rfl

variable {b : Binder} {n : Nat} {s u : Session}

theorem redirection?_number : Binder.redirection? number = none := by decide

theorem delegate_number : b.delegate Strategy.scalar number =
    Strategy.scalar.bind b.context number := by
  rw [Binder.delegate, redirection?_number]

theorem exec_number_failed {e : BindError} {f : Request → Bind (Outcome Value)}
    (hf : f (textAt "b" spliced) s = some (.failed e, u)) :
    (b.delegate Strategy.scalar number).exec f s = some (.failed e, u) := by
  rw [delegate_number, bind_spliced, Attempt.exec_outcome]
  show Option.map _ (Script.exec f (Script.call (textAt "b" spliced) _) s) = _
  rw [Script.exec_call, hf]
  rfl

theorem exec_number_present {registry : Registry} {f : Request → Bind (Outcome Value)}
    (hf : f (textAt "b" spliced) s = some (.present ⟨.text, .text "8"⟩, u)) :
    ((knowing registry).delegate Strategy.scalar number).exec f s =
      some (.present ⟨IntegerType.u16.ref, .int 81⟩, u) := by
  rw [delegate_number, bind_spliced, Attempt.exec_outcome]
  show Option.map _ (Script.exec f (Script.call (textAt "b" spliced) _) s) = _
  rw [Script.exec_call, hf]
  rfl

theorem register_number :
    (Registry.empty.register primitives IntegerType.u16.ref).2 =
      Registry.empty.add ⟨IntegerType.u16.ref, .scalar⟩ := by
  have hd : primitives.describe? IntegerType.u16.ref = some ⟨IntegerType.u16.ref, .scalar⟩ := rfl
  rw [Registry.register, hd]
  show ((Registry.empty.add _).enroll primitives []) = _
  rw [Registry.enroll]

theorem strategyFor_number {registry : Registry}
    (h : registry.get? IntegerType.u16.ref = some ⟨IntegerType.u16.ref, .scalar⟩) :
    (knowing registry).strategyFor IntegerType.u16.ref = .ok Strategy.scalar :=
  Binder.Standard.strategyFor_eq (b := knowing registry) (d := ⟨IntegerType.u16.ref, .scalar⟩) rfl h

theorem run_number_failed {registry : Registry}
    (hnumber : registry.get? IntegerType.u16.ref = some ⟨IntegerType.u16.ref, .scalar⟩)
    (htext : registry.get? .text = none) : ∃ t, (knowing registry).run 2 number ⟨[], []⟩ =
      some (.failed (.failed "a" "u16" (.failed "b" TypeRef.text.name
        (.unregisteredType TypeRef.text.name))), t) := by
  have hmissed := Binder.run_of_error_eq (b := knowing registry) (r := textAt "b" spliced) rfl
    (Binder.strategyFor_of_get?_eq_none htext) 0 (Binder.entry Strategy.scalar number ⟨[], []⟩)
  rw [Binder.run_of_not_mem_eq rfl (strategyFor_number hnumber) (by decide),
    exec_number_failed hmissed]
  exact ⟨_, rfl⟩

theorem run_number_present {registry : Registry}
    (hnumber : registry.get? IntegerType.u16.ref = some ⟨IntegerType.u16.ref, .scalar⟩)
    (htext : registry.get? .text = some ⟨.text, .scalar⟩) :
    ∃ t, (knowing registry).run 2 number ⟨[], []⟩ =
      some (.present ⟨IntegerType.u16.ref, .int 81⟩, t) := by
  have hst : (knowing registry).strategyFor .text = .ok Strategy.scalar :=
    Binder.Standard.strategyFor_eq (b := knowing registry) (d := ⟨.text, .scalar⟩) rfl htext
  have hm : (textAt "b" spliced).path.render ∉
      (Binder.entry Strategy.scalar number ⟨[], []⟩).inFlight := by decide
  have hbound : ∃ u, (knowing registry).run 1 (textAt "b" spliced)
      (Binder.entry Strategy.scalar number ⟨[], []⟩) = some (.present ⟨.text, .text "8"⟩, u) := by
    rw [Binder.run_of_not_mem_eq rfl hst hm]
    exact ⟨_, rfl⟩
  obtain ⟨u, hbound⟩ := hbound
  rw [Binder.run_of_not_mem_eq rfl (strategyFor_number hnumber) (by decide),
    exec_number_present hbound]
  exact ⟨_, rfl⟩

theorem bindPath?_number {registry : Registry} {o : Outcome Value}
    (h : ∃ t, (knowing (registry.register primitives IntegerType.u16.ref).2).run 2 number ⟨[], []⟩ =
      some (o, t)) :
    ∃ es, ((knowing registry).bindPath? (.parse "a") IntegerType.u16.ref).map Run.view =
      some (o.cast IntegerType.u16.ref, es) := by
  obtain ⟨t, h⟩ := h
  rw [Binder.bindPath?_eq]
  have hrun := Binder.run_mono h (Nat.le_of_succ_le
    (Binder.three_le_allowance (knowing registry) number))
  exact ⟨_, Option.map_eq_some_iff.2 ⟨_, hrun, rfl⟩⟩

theorem bindPath?_number_standard :
    ∃ es, ((knowing .standard).bindPath? (.parse "a") IntegerType.u16.ref).map Run.view =
      some (.present ⟨IntegerType.u16.ref, .int 81⟩, es) := by
  have hsame : (Registry.standard.register primitives IntegerType.u16.ref).2 = .standard := rfl
  refine bindPath?_number (o := .present ⟨IntegerType.u16.ref, .int 81⟩) ?_
  rw [hsame]
  exact run_number_present rfl rfl

theorem describesStandard_primitives : primitives.DescribesStandard := fun _ _ h => h

/-- The number is not bound after nothing was registered; it is after the standard types were. -/
theorem histories_differ :
    (Registry.empty.Recorded primitives ∧ Registry.standard.Recorded primitives ∧
      primitives.DescribesStandard) ∧
    (∃ es, ((knowing .empty).bindPath? (.parse "a") IntegerType.u16.ref).map Run.view =
      some (.failed (.failed "a" "u16" (.failed "b" TypeRef.text.name
        (.unregisteredType TypeRef.text.name))), es)) ∧
    ∃ es, ((knowing .standard).bindPath? (.parse "a") IntegerType.u16.ref).map Run.view =
      some (.present ⟨IntegerType.u16.ref, .int 81⟩, es) := by
  refine ⟨⟨.empty, .standard, describesStandard_primitives⟩, ?_, bindPath?_number_standard⟩
  have hrun : ∃ t, (knowing (Registry.empty.add ⟨IntegerType.u16.ref, .scalar⟩)).run 2 number
      ⟨[], []⟩ = some (.failed (.failed "a" "u16" (.failed "b" TypeRef.text.name
        (.unregisteredType TypeRef.text.name))), t) := run_number_failed rfl rfl
  rw [← register_number] at hrun
  exact bindPath?_number hrun

theorem histories_with_text_agree :
    ((knowing .standard).Standard ∧ (knowing .standard).catalog.DescribesStandard ∧
      Registry.standard.Recorded primitives ∧
      (Registry.empty.register primitives .text).2.Recorded primitives ∧
      (knowing .standard).policy.Direct ∧ primitives.NamesVisible '.') ∧
    (∃ es, ((knowing (Registry.empty.register primitives .text).2).bindPath? (.parse "a")
        IntegerType.u16.ref).map Run.view =
      some (.present ⟨IntegerType.u16.ref, .int 81⟩, es)) ∧
    ((knowing (Registry.empty.register primitives .text).2).bindPath? (.parse "a")
      IntegerType.u16.ref).isSome = true := by
  have hrecorded : (Registry.empty.register primitives .text).2.Recorded primitives :=
    .register .empty .text
  have hdirect : (knowing .standard).policy.Direct := FailurePolicy.direct_propagate
  have hnames : primitives.NamesVisible '.' := Registry.namesVisible_standard '.'
  have htext : (Registry.empty.register primitives .text).2.get? .text =
      some ⟨.text, .scalar⟩ :=
    (Registry.Recorded.empty.holds describesStandard_primitives).get?_register .text
  have hlater := Registry.get?_register_of_get? (c := primitives) htext IntegerType.u16.ref
  obtain ⟨hagree, -, hsome⟩ := Binder.bindPath?_of_recorded (b := knowing .standard) rfl
    describesStandard_primitives .standard hrecorded (.parse "a") IntegerType.u16.ref
    (hdirect.within _)
  obtain ⟨es, hbound⟩ := bindPath?_number_standard
  refine ⟨⟨rfl, describesStandard_primitives, .standard, hrecorded, hdirect, hnames⟩,
    ⟨es, ?_⟩, (hsome hdirect hnames).2⟩
  rw [← hbound]
  refine (hagree ?_).symm
  show _ = (((Registry.empty.register primitives .text).2.register primitives
    IntegerType.u16.ref).2.get? .text).isSome
  rw [hlater]
  rfl

end Sample

end ConfigBind
