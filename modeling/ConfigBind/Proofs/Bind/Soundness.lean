import ConfigBind.Proofs.Bind.Instances
import ConfigBind.Proofs.Bind.Members
import ConfigBind.Proofs.Bind.Typing

/-!
# Type soundness

Every run of a standard binder comes to a value of the type that was asked for
(`Binder.run_sound`), and so do all the binds that it consists of (`Binder.Nests.sound`), if what
the binder was given to work with is well typed (`Binder.Sound`).  So the checks of the entry points
that a value is of the type of the bind make no difference (`Binder.binds_are_typed`).
-/

namespace ConfigBind

/-- What a binder was given to work with is well typed. -/
structure Binder.Sound (Γ : Typing) (b : Binder) : Prop where
  registry : ∀ d ∈ b.registry.types, d.Sound Γ
  catalog : ∀ d ∈ b.catalog.descriptors, d.Sound Γ
  conversion : b.conversion.Sound Γ

namespace Binder

variable {Γ : Typing} {b : Binder} {n : Nat} {r : Request} {s t : Session} {o : Outcome Value}

theorem Sound.context (h : b.Sound Γ) : b.context.Sound Γ where
  describe _ d hd := ⟨Registry.type_of_get? hd, h.registry d (List.mem_of_find?_eq_some hd)⟩
  conversion := h.conversion

theorem Sound.register (h : b.Sound Γ) (t : TypeRef) : (b.register t).Sound Γ where
  registry d hd := by
    rcases Registry.mem_types_register hd with hd | hd
    · exact h.registry d hd
    · exact h.catalog d hd
  catalog := h.catalog
  conversion := h.conversion

/-! ## Runs -/

theorem not_isMismatch_of_strategyFor {t : TypeRef} {e : BindError}
    (h : b.strategyFor t = .error e) : ¬ e.IsMismatch := by
  unfold strategyFor at h
  split at h
  · rw [← Except.error.inj h]
    exact not_false
  · split at h
    · rw [← Except.error.inj h]
      exact not_false
    · cases h

theorem typed_delegate (htext : ∀ d, Γ .text d → ∃ text, d = .text text) (hb : b.Standard)
    (hctx : b.context.Sound Γ) (hr : r.Sound Γ) {strategy : Strategy}
    (hst : b.strategyFor r.type = .ok strategy) :
    (b.delegate strategy r).Typed Γ (Outcome.Sound Γ r.type) := by
  unfold delegate
  cases redirection? r with
  | some path => exact ⟨not_false, ⟨hr.target, hr.policy⟩, fun o ho => ho⟩
  | none =>
    obtain ⟨d, hd, rfl⟩ := hb.get?_of_strategyFor hst
    exact Strategy.typed_ofKind htext hctx hr hd

theorem typed_recovery (hr : r.Sound Γ) {e : BindError} (he : ¬ e.IsMismatch) (s : Session) :
    (b.recovery r e s).Typed Γ (Outcome.Sound Γ r.type) := by
  have hdrop : (drop r).Typed Γ (Outcome.Sound Γ r.type) := ⟨not_false, trivial⟩
  refine ⟨he, not_false, ?_⟩
  show Script.Keeps _ _ _ _ (b.verdict r _)
  cases h : r.policy.onFailure s.asked r.path r.type e with
  | fallback v => exact hr.policy.fallback _ _ _ _ v h
  | ignore => exact hdrop
  | fail e => exact not_false
  | rebind other u =>
    refine ⟨⟨Target.sound_ofType u, FailurePolicy.sound_propagate⟩, fun o ho => ?_⟩
    cases o with
    | present v =>
      have hv : v.Of Γ u := ho
      rwa [hr.policy.rebind _ _ _ _ other u h] at hv
    | empty => exact hdrop
    | failed e => exact not_false

/-- **Every run is typed**, and no bind in it fails because a value was of the wrong type. -/
theorem run_sound (htext : ∀ d, Γ .text d → ∃ text, d = .text text) (hb : b.Standard)
    (hctx : b.context.Sound Γ) (hr : r.Sound Γ) (h : b.run n r s = some (o, t)) :
    o.Sound Γ r.type ∧ (s.Matched → t.Matched) := by
  induction n generalizing r s o t with
  | zero => cases h
  | succ n ih =>
    have hnote : ∀ (s : Session) (e : Event), ¬ e.IsMismatch → s.Matched → (s.note e).Matched :=
      fun s e he hs => List.forall_mem_cons.2 ⟨he, hs⟩
    have hsub : ∀ r s o t, Request.Sound Γ r → b.run n r s = some (o, t) →
        o.Sound Γ r.type ∧ (s.Matched → t.Matched) := fun _ _ _ _ hr h => ih hr h
    have hrecovery {e : BindError} (he : ¬ e.IsMismatch) {u s t : Session} {o : Outcome Value}
        (h : (b.recovery r e u).exec (b.run n) s = some (o, t)) :
        o.Sound Γ r.type ∧ (s.Matched → t.Matched) :=
      (typed_recovery hr he u).exec hnote hsub h
    rcases run_cases h with ⟨e, hst, h⟩ | ⟨strategy, hst, h⟩
    · exact hrecovery (not_isMismatch_of_strategyFor hst) h
    have hselected (hs : s.Matched) : (s.note (.selected strategy.name r.type)).Matched :=
      hnote _ _ not_false hs
    rcases h with ⟨-, h⟩ | ⟨-, o', u, u', hdelegate, hsettle, rfl⟩
    · obtain ⟨ho, ht⟩ := hrecovery (e := .recursive r.path.render) not_false h
      exact ⟨ho, fun hs => ht (hnote _ _ not_false (hselected hs))⟩
    · obtain ⟨ho', hu⟩ := (typed_delegate htext hb hctx hr hst).exec hnote hsub hdelegate
      have hentry (hs : s.Matched) : (entry strategy r s).Matched :=
        hnote _ (.entered r.path.render) not_false (hselected hs)
      have hsettled : o.Sound Γ r.type ∧ (u.Matched → u'.Matched) := by
        rw [settle_eq] at hsettle
        cases o' with
        | failed e => exact hrecovery ho' hsettle
        | _ =>
          obtain ⟨rfl, rfl⟩ := Prod.mk.inj (Option.some.inj hsettle)
          exact ⟨ho', id⟩
      exact ⟨hsettled.1, fun hs =>
        hnote _ (.left r.path.render) not_false (hsettled.2 (hu (hentry hs)))⟩

/-! ## Nested binds -/

/-- With `m` allowed, the bind `y` is a part of the bind `x` with `n` allowed, or of a part of it,
and so on.  A part is what the strategy has bound, or else what the policy has bound in place of a
failure. -/
inductive Nests (b : Binder) : (n : Nat) → Exchange → (m : Nat) → Exchange → Prop
  | self {n : Nat} {x : Exchange} : Nests b n x n x
  | part {n m : Nat} {x y z : Exchange} {strategy : Strategy} {calls : List Exchange}
      {o : Outcome Value} {u : Session} (hst : b.strategyFor x.request.type = .ok strategy)
      (hperforms : (b.delegate strategy x.request).Performs (b.run n)
        (entry strategy x.request x.before) calls o u)
      (hy : y ∈ calls) (h : Nests b n y m z) : Nests b (n + 1) x m z
  | rebound {n m : Nat} {x y z : Exchange} {e : BindError} {s t u : Session}
      {calls : List Exchange} {o : Outcome Value} (he : ¬ e.IsMismatch)
      (hperforms : (b.recovery x.request e s).Performs (b.run n) t calls o u)
      (hy : y ∈ calls) (h : Nests b n y m z) : Nests b (n + 1) x m z

/-- **All the binds that a bind consists of are typed.** -/
theorem Nests.sound (htext : ∀ d, Γ .text d → ∃ text, d = .text text) (hb : b.Standard)
    (hctx : b.context.Sound Γ) {m : Nat} {x y : Exchange} (h : b.Nests n x m y)
    (hx : x.request.Sound Γ) (hrun : b.run n x.request x.before = some (x.outcome, x.after)) :
    y.request.Sound Γ ∧ b.run m y.request y.before = some (y.outcome, y.after) ∧
      y.outcome.Sound Γ y.request.type := by
  induction h with
  | self => exact ⟨hx, hrun, (run_sound htext hb hctx hx hrun).1⟩
  | part hst hperforms hy _ ih =>
    have hcalls := (typed_delegate htext hb hctx hx hst).performs hperforms fun z hz hsound =>
      (run_sound htext hb hctx hsound (hperforms.bound hz)).1
    exact ih (hcalls.2 _ hy) (hperforms.bound hy)
  | rebound he hperforms hy _ ih =>
    have hcalls := (typed_recovery hx he _).performs hperforms fun z hz hsound =>
      (run_sound htext hb hctx hsound (hperforms.bound hz)).1
    exact ih (hcalls.2 _ hy) (hperforms.bound hy)

/-! ## Entry points -/

theorem bind?_cast_eq (htext : ∀ d, Γ .text d → ∃ text, d = .text text) (hb : b.Standard)
    (hctx : b.context.Sound Γ) (hr : r.Sound Γ) :
    ((b.bind? r).map fun run => { run with outcome := run.outcome.cast r.type }) = b.bind? r := by
  cases hrun : b.bind? r with
  | none => rfl
  | some run =>
    obtain ⟨m, o, t, hexec, rfl⟩ := endsWith_of_bind? hrun
    have ho := (run_sound htext hb hctx hr hexec).1
    simp only [Option.map_some, ho.cast_eq]

theorem isFailed_of_ignore (hpolicy : r.policy = .ignore) (h : b.run n r s = some (o, t)) :
    o.isFailed = false := by
  have hrecovery {f : Request → Bind (Outcome Value)} {e : BindError} {u s t : Session}
      {o : Outcome Value} (h : (b.recovery r e u).exec f s = some (o, t)) : o.isFailed = false := by
    rw [recovery, hpolicy] at h
    obtain ⟨rfl, -⟩ := Prod.mk.inj (Option.some.inj h)
    rfl
  cases n with
  | zero => cases h
  | succ n =>
    rcases run_cases h with ⟨e, -, h⟩ | ⟨strategy, -, ⟨-, h⟩ | ⟨-, o', u, u', -, hsettle, -⟩⟩
    · exact hrecovery h
    · exact hrecovery h
    · rw [settle_eq] at hsettle
      cases o' with
      | failed e => exact hrecovery hsettle
      | _ =>
        obtain ⟨rfl, -⟩ := Prod.mk.inj (Option.some.inj hsettle)
        rfl

/-- **Binds have the type that was asked for**, at any depth, if what the binder was given is well
typed: none fails because a value that it unpacks is of another type, and under a policy that
ignores failures none fails at all. -/
theorem binds_are_typed (htext : ∀ d, Γ .text d → ∃ text, d = .text text) (hb : b.Standard)
    (hsound : b.Sound Γ) :
    (∀ n (x : Exchange), x.request.Sound Γ →
      b.run n x.request x.before = some (x.outcome, x.after) →
        (∀ m y, b.Nests n x m y → ∀ v, y.outcome = .present v →
          v.type = y.request.type ∧ Γ y.request.type v.datum) ∧
        (x.before.Matched → x.after.Matched)) ∧
    (∀ p t policy, policy.Sound Γ →
      b.bindWith? p t policy = (b.register t).bind? ⟨p, .ofType t, b.source, policy⟩) ∧
    (∀ p x, Γ x.type x.datum → b.policy.Sound Γ → b.source.contains p = true →
      b.bindInto? p x = (b.register x.type).bind? (b.intoRequest p x)) ∧
    ∀ p t, (∀ run, b.bindWith? p t .ignore = some run → run.outcome.isFailed = false) ∧
      (b.NamesVisible p.separator → (b.bindWith? p t .ignore).isSome = true) := by
  have hbind (p : Path) (t : TypeRef) (policy : FailurePolicy) (hpolicy : policy.Sound Γ) :
      b.bindWith? p t policy = (b.register t).bind? ⟨p, .ofType t, b.source, policy⟩ := by
    have hr : Request.Sound Γ ⟨p, .ofType t, b.source, policy⟩ :=
      ⟨Target.sound_ofType t, hpolicy⟩
    exact bind?_cast_eq (b := b.register t) htext hb (hsound.register t).context hr
  refine ⟨fun n x hx hrun => ⟨fun m y hy v hv => ?_, ?_⟩, hbind, fun p x hx hpolicy hdata => ?_,
    fun p t => ⟨fun run hrun => ?_, fun hnames => ?_⟩⟩
  · obtain ⟨-, -, hsoundness⟩ := hy.sound htext hb hsound.context hx hrun
    rw [hv] at hsoundness
    exact ⟨hsoundness.type_eq, hsoundness.datum⟩
  · exact (run_sound htext hb hsound.context hx hrun).2
  · have hr : Request.Sound Γ (b.intoRequest p x) := by
      refine ⟨⟨fun v hv => ?_, nofun⟩, hpolicy⟩
      obtain rfl := Option.some.inj hv
      exact ⟨rfl, hx⟩
    rw [bindInto?_eq hdata]
    exact bind?_cast_eq (b := b.register x.type) htext hb (hsound.register x.type).context hr
  · rw [hbind p t .ignore FailurePolicy.sound_ignore] at hrun
    obtain ⟨m, o, u, hexec, rfl⟩ := endsWith_of_bind? hrun
    exact isFailed_of_ignore rfl hexec
  · rw [hbind p t .ignore FailurePolicy.sound_ignore]
    exact isSome_bind? (b := b.register t) hb FailurePolicy.direct_ignore (hnames.register t).1

end Binder

namespace Sample

theorem sound_standardConversion (tree : TypeRef) :
    (Conversion.standard tree).Sound Typing.texts := by
  rintro t converter n d hconverter hd rfl
  have htext : converter = Convert.text := (Option.some.inj hconverter).symm
  rw [htext, Convert.text] at hd
  cases hn : n.textual? with
  | none =>
    rw [hn] at hd
    cases hd
  | some text =>
    rw [hn] at hd
    exact ⟨text, (Except.ok.inj hd).symm⟩

theorem sound_plainBinder (source : Node) : (plainBinder source).Sound Typing.texts where
  registry _ hd := Descriptor.sound_of_scalar (Registry.shape_of_mem_standard hd)
  catalog _ hd := by cases hd
  conversion := sound_standardConversion _

theorem sound_objects {d : Descriptor} (hd : d ∈ objects.descriptors) :
    d.Sound Typing.texts := by
  simp only [objects, List.mem_cons, List.not_mem_nil, or_false] at hd
  rcases hd with rfl | rfl
  · exact Descriptor.sound_texts (by decide) fun p hp => by cases hp
  · refine Descriptor.sound_texts (by decide) fun p hp => ?_
    obtain rfl : p = (coordinate "count").property counter := List.mem_singleton.1 hp
    exact (by decide : IntegerType.u16.ref ≠ TypeRef.text)

theorem sound_figureBinder : figureBinder.Sound Typing.texts := by
  have hnew : (Binder.new objects ⟨"Tree", "Tree"⟩ figures).Sound Typing.texts :=
    ⟨fun _ hd => Descriptor.sound_of_scalar (Registry.shape_of_mem_standard hd),
      fun _ => sound_objects, sound_standardConversion _⟩
  exact (hnew.register point).register counter

/-- All the binds that a text is found by are binds of texts; the members of a point have the types
of its components, and binding a counter does not fail if failures are ignored. -/
theorem relay_and_figures_are_typed :
    ((∀ d, Typing.texts .text d → ∃ text, d = .text text) ∧
      ((plainBinder relay).Standard ∧ (plainBinder relay).Sound Typing.texts) ∧
      figureBinder.Standard ∧ figureBinder.Sound Typing.texts) ∧
    (∃ x : Exchange, x.request = textAt "a" relay ∧
      (plainBinder relay).run 3 x.request x.before = some (x.outcome, x.after) ∧
      x.outcome = .present ⟨.text, .text "here"⟩ ∧
      ∀ m y, (plainBinder relay).Nests 3 x m y → ∀ v, y.outcome = .present v →
        v.type = y.request.type) ∧
    (∃ n x, x.request = figureRequest "point" point ∧
      figureBinder.run n x.request x.before = some (x.outcome, x.after) ∧
      ∀ m y, figureBinder.Nests n x m y → ∀ v, y.outcome = .present v →
        v.type = y.request.type) ∧
    ∃ run, figureBinder.bindWith? (.parse "counter") counter .ignore = some run ∧
      run.outcome.isFailed = false := by
  have htext : ∀ d, Typing.texts .text d → ∃ text, d = .text text := fun d h => h rfl
  have hplain := sound_plainBinder relay
  have hfigures := sound_figureBinder
  obtain ⟨hrelay, -⟩ := Binder.binds_are_typed (b := plainBinder relay) htext rfl hplain
  obtain ⟨hpoint, -, -, hignored⟩ :=
    Binder.binds_are_typed (b := figureBinder) htext rfl hfigures
  refine ⟨⟨htext, ⟨rfl, hplain⟩, rfl, hfigures⟩, ?_, ?_, ?_⟩
  · obtain ⟨t, hrun⟩ := run_relay
    have hr : (textAt "a" relay).Sound Typing.texts :=
      ⟨Target.sound_ofType .text, FailurePolicy.sound_propagate⟩
    refine ⟨⟨textAt "a" relay, ⟨[], []⟩, _, t⟩, rfl, hrun, rfl, fun m y hy v hv => ?_⟩
    exact ((hrelay 3 _ hr hrun).1 m y hy v hv).1
  · obtain ⟨o, t, hrun⟩ := Binder.run_of_nestingBound (b := figureBinder)
      (r := figureRequest "point" point) rfl FailurePolicy.direct_propagate
      namesVisible_figureBinder ⟨[], []⟩
    have hrun := hrun _ le_rfl
    have hr : (figureRequest "point" point).Sound Typing.texts :=
      ⟨Target.sound_ofType point, FailurePolicy.sound_propagate⟩
    refine ⟨_, ⟨figureRequest "point" point, ⟨[], []⟩, o, t⟩, rfl, hrun, fun m y hy v hv => ?_⟩
    exact ((hpoint _ _ hr hrun).1 m y hy v hv).1
  · obtain ⟨hfailed, hsome⟩ := hignored (.parse "counter") counter
    have hnames : figureBinder.NamesVisible '.' :=
      ⟨namesVisible_figureBinder, namesVisible_objects⟩
    obtain ⟨run, hbound⟩ := Option.isSome_iff_exists.1 (hsome hnames)
    exact ⟨run, hbound, hfailed run hbound⟩

end Sample

end ConfigBind
