import ConfigBind.Proofs.Bind.Nesting

/-!
# What a run depends on

Two binders are `Alike` about some types if they convert alike, have the same mode and the same
descriptors of these types, which do not lead to others.  Then a strategy does the same for such a
type (`Strategy.bind_of_alike`), and so does every run (`Binder.run_of_alike`).
-/

namespace ConfigBind

/-- What strategies see of two binders is the same for all types of `A`, which lead to types of `A`
only. -/
structure Context.Alike (A : TypeRef → Prop) (ctx ctx' : Context) : Prop where
  describe : ∀ t, A t → ctx.describe? t = ctx'.describe? t
  conversion : ctx.conversion = ctx'.conversion
  mode : ctx.mode = ctx'.mode
  closed : ∀ t d, A t → ctx.describe? t = some d → ∀ u ∈ d.dependencies, A u

namespace Descriptor

variable {d : Descriptor}

theorem mem_dependencies_of_item? {t : TypeRef} (h : d.item? = some t) : t ∈ d.dependencies := by
  unfold item? at h
  rw [dependencies]
  cases hshape : d.shape <;> rw [hshape] at h <;> simpa [Shape.dependencies] using h.symm

theorem mem_dependencies_of_component {c : Component} (h : c ∈ d.components) :
    c.type ∈ d.dependencies := by
  unfold components at h
  rw [dependencies]
  cases hshape : d.shape <;> rw [hshape] at h <;>
    first | exact List.mem_map.2 ⟨c, h, rfl⟩ | simp at h

theorem mem_dependencies_of_property {p : Property} (h : p ∈ d.writableProperties) :
    p.type ∈ d.dependencies := by
  have h := (List.mem_filter.1 h).1
  unfold properties at h
  rw [dependencies]
  cases hshape : d.shape <;> rw [hshape] at h <;>
    first | exact List.mem_map.2 ⟨p, h, rfl⟩ | simp at h

end Descriptor

namespace Context.Alike

variable {A : TypeRef → Prop} {ctx ctx' : Context} {r : Request} {t : TypeRef}

theorem isLeaf (h : Alike A ctx ctx') (ht : A t) : ctx.isLeaf t = ctx'.isLeaf t := by
  simp only [Context.isLeaf, Context.descriptor, h.describe t ht]

theorem skips (h : Alike A ctx ctx') (ht : A t) : ctx.skips t = ctx'.skips t := by
  simp only [Context.skips, h.mode, h.isLeaf ht]

theorem convert (h : Alike A ctx ctx') (n : Node) (t : TypeRef) :
    ctx.convert n t = ctx'.convert n t := by
  rw [Context.convert, h.conversion, Context.convert]

theorem convertAt (h : Alike A ctx ctx') (r : Request) : ctx.convertAt r = ctx'.convertAt r := by
  simp only [Context.convertAt, h.convert]

theorem convertWhole (h : Alike A ctx ctx') (n : Node) (t : TypeRef) :
    ctx.convertWhole n t = ctx'.convertWhole n t := by
  simp only [Context.convertWhole, h.convert, h.conversion]

theorem descriptor_bind {α : Type} (h : Alike A ctx ctx') (ht : A t)
    {f g : Descriptor → Attempt α} (hfg : ∀ d, ctx.describe? t = some d → f d = g d) :
    ctx.descriptor t >>= f = ctx'.descriptor t >>= g := by
  have hdescribe := h.describe t ht
  cases hd : ctx.describe? t with
  | none =>
    rw [hd] at hdescribe
    rw [Context.descriptor, Context.descriptor, hd, ← hdescribe]
    rfl
  | some d =>
    rw [Attempt.descriptor_eq hd, Attempt.descriptor_eq (hdescribe ▸ hd), pure_bind, pure_bind]
    exact hfg d hd

theorem with_text (h : Alike A ctx ctx') (htext : ctx.describe? .text = ctx'.describe? .text)
    (hleaf : ∀ d, ctx.describe? .text = some d → d.dependencies = []) :
    Alike (fun u => A u ∨ u = .text) ctx ctx' where
  describe u hu := by
    rcases hu with hu | rfl
    · exact h.describe u hu
    · exact htext
  conversion := h.conversion
  mode := h.mode
  closed u d hu hd v hv := by
    rcases hu with hu | rfl
    · exact .inl (h.closed u d hu hd v hv)
    · rw [hleaf d hd] at hv
      cases hv

end Context.Alike

/-! ## Strategies -/

theorem Context.bindElements_eq (ctx ctx' : Context) : ctx.bindElements = ctx'.bindElements := by
  have hfrom : ctx.bindElementsFrom = ctx'.bindElementsFrom := by
    funext r item onEmpty count i
    induction count generalizing i with
    | zero => rfl
    | succ count ih =>
      simp only [bindElementsFrom, ih]
      rfl
  funext r item onEmpty
  simp only [bindElements, hfrom]

namespace Strategy

variable {A : TypeRef → Prop} {ctx ctx' : Context} {r : Request}

theorem bindEntries_eq (ctx ctx' : Context) : bindEntries ctx = bindEntries ctx' := by
  funext r value keys
  induction keys with
  | nil => rfl
  | cons key keys ih =>
    simp only [bindEntries, ih]
    rfl

theorem bindComponents_of_alike (h : ctx.Alike A ctx') {components : List Component}
    (hc : ∀ c ∈ components, A c.type) (values : Components) (errors : List BindError) :
    bindComponents ctx r components values errors =
      bindComponents ctx' r components values errors := by
  induction components generalizing values errors with
  | nil => rfl
  | cons c rest ih =>
    have hrest := ih fun c hc' => hc c (List.mem_cons_of_mem _ hc')
    simp only [bindComponents, h.skips (hc c List.mem_cons_self), hrest]
    rfl

theorem bindProperties_of_alike (h : ctx.Alike A ctx') {properties : List Property}
    (hp : ∀ p ∈ properties, A p.type) (target : Value) (errors : List BindError) :
    bindProperties ctx r properties target errors =
      bindProperties ctx' r properties target errors := by
  induction properties generalizing target errors with
  | nil => rfl
  | cons p rest ih =>
    have hrest := ih fun p hp' => hp p (List.mem_cons_of_mem _ hp')
    simp only [bindProperties, h.isLeaf (hp p List.mem_cons_self), h.mode, hrest]
    rfl

theorem bindScalar_of_alike (h : ctx.Alike A ctx') : bindScalar ctx r = bindScalar ctx' r := by
  have hreference : resolveReference ctx r = resolveReference ctx' r := rfl
  simp only [bindScalar, hreference, h.convert, h.convertAt]

theorem bindRecord_of_alike (h : ctx.Alike A ctx') (ht : A r.type) :
    bindRecord ctx r = bindRecord ctx' r := by
  refine h.descriptor_bind ht fun d hd => ?_
  have hc : ∀ c ∈ d.components, A c.type := fun c hc =>
    h.closed _ d ht hd _ (Descriptor.mem_dependencies_of_component hc)
  split
  · rename_i components construct hshape
    rw [Descriptor.components, hshape] at hc
    simp only [bindComponents_of_alike h hc, h.convertWhole]
  · rfl

theorem bindBean_of_alike (h : ctx.Alike A ctx') (ht : A r.type) :
    bindBean ctx r = bindBean ctx' r := by
  refine h.descriptor_bind ht fun d hd => ?_
  have hp : ∀ p ∈ d.writableProperties, A p.type := fun p hp =>
    h.closed _ d ht hd _ (Descriptor.mem_dependencies_of_property hp)
  simp only [bindProperties_of_alike h hp, h.convertWhole, h.convertAt]

/-- **A strategy does the same for two binders that are alike.** -/
theorem bind_of_alike {strategy : Strategy} (hs : strategy ∈ builtin) (h : ctx.Alike A ctx')
    (ht : A r.type) : strategy.bind ctx r = strategy.bind ctx' r := by
  have helements := Context.bindElements_eq ctx ctx'
  simp only [builtin, List.mem_cons, List.not_mem_nil, or_false] at hs
  rcases hs with rfl | rfl | rfl | rfl | rfl | rfl | rfl <;> refine congrArg Attempt.outcome ?_
  · exact bindScalar_of_alike h
  · exact h.descriptor_bind ht fun d hd => by rw [bindEntries_eq ctx ctx']
  · exact h.descriptor_bind ht fun d hd => by rw [helements]
  · exact h.descriptor_bind ht fun d hd => by rw [helements]
  · exact h.descriptor_bind ht fun d hd => by rw [helements]
  · exact bindRecord_of_alike h ht
  · exact bindBean_of_alike h ht

end Strategy

/-! ## Runs -/

theorem Part.type_or_text {A : TypeRef → Prop} {ctx ctx' : Context} {r r' : Request}
    (h : ctx.Alike A ctx') (ht : A r.type) (hpart : Part ctx r r') :
    A r'.type ∨ r'.type = .text := by
  cases hpart with
  | element hd hitem =>
    exact .inl (h.closed _ _ ht hd _ (Descriptor.mem_dependencies_of_item? hitem))
  | entry hd hitem =>
    exact .inl (h.closed _ _ ht hd _ (Descriptor.mem_dependencies_of_item? hitem))
  | component hd hc =>
    exact .inl (h.closed _ _ ht hd _ (Descriptor.mem_dependencies_of_component hc))
  | property hd hp =>
    exact .inl (h.closed _ _ ht hd _ (Descriptor.mem_dependencies_of_property hp))
  | reference => exact .inr rfl
  | redirected => exact .inl ht

theorem Part.type_of_closed {A : TypeRef → Prop} {ctx ctx' : Context} {r r' : Request}
    (h : ctx.Alike A ctx') (htext : A .text) (ht : A r.type) (hpart : Part ctx r r') :
    A r'.type := by
  rcases hpart.type_or_text h ht with ht' | ht'
  · exact ht'
  · rwa [ht']

namespace Binder

variable {A : TypeRef → Prop} {b b' : Binder} {r : Request}

theorem strategyFor_of_alike (hb : b.Standard) (hb' : b'.Standard)
    (h : b.context.Alike A b'.context) {t : TypeRef} (ht : A t) :
    b.strategyFor t = b'.strategyFor t := by
  have hget : b.registry.get? t = b'.registry.get? t := h.describe t ht
  rw [strategyFor, strategyFor, hget, hb, hb']

/-- **Two binders that are alike delegate alike.** -/
theorem delegate_of_alike (hb : b.Standard) (h : b.context.Alike A b'.context) (ht : A r.type)
    {strategy : Strategy} (hst : b.strategyFor r.type = .ok strategy) :
    b.delegate strategy r = b'.delegate strategy r := by
  unfold delegate
  rw [Strategy.bind_of_alike (hb.mem_builtin hst) h ht]
  rfl

theorem recovery_eq_of_direct (b b' : Binder) (hpolicy : r.policy.Direct) (e : BindError)
    (s : Session) : b.recovery r e s = b'.recovery r e s := by
  unfold recovery
  cases h : r.policy.onFailure s.asked r.path r.type e with
  | rebind other t => exact absurd h (hpolicy _ _ _ _ _ _)
  | _ => rfl

/-- **Two binders that are alike do the same.** -/
theorem run_of_alike (hb : b.Standard) (hb' : b'.Standard) (h : b.context.Alike A b'.context)
    (htext : A .text) (n : Nat) (ht : A r.type) (hpolicy : r.policy.Direct) (s : Session) :
    b.run n r s = b'.run n r s := by
  induction n generalizing r s with
  | zero => rfl
  | succ n ih =>
    -- a direct policy has nothing bound, so it cannot tell the binders apart
    have hrecovery (e : BindError) (s t : Session) :
        (b.recovery r e s).exec (b.run n) t = (b'.recovery r e s).exec (b'.run n) t := by
      rw [recovery_eq_of_direct b b' hpolicy]
      exact Script.exec_congr (P := fun _ => False) (fun _ _ hr => hr.elim)
        (only_recovery_of_direct hpolicy e s) t
    have hsettle (o : Outcome Value) (t : Session) :
        b.settle (b.run n) r o t = b'.settle (b'.run n) r o t := by
      rw [settle_eq, settle_eq]
      cases o with
      | failed e => exact hrecovery e t t
      | _ => rfl
    have hstrategy := strategyFor_of_alike hb hb' h ht
    cases hst : b.strategyFor r.type with
    | error e =>
      rw [run_of_error hst, run_of_error (hstrategy ▸ hst)]
      exact hrecovery e s s
    | ok strategy =>
      by_cases hm : r.path.render ∈ s.inFlight
      · rw [run_of_mem hst hm, run_of_mem (hstrategy ▸ hst) hm]
        exact hrecovery _ _ _
      · have hdelegate : (b.delegate strategy r).exec (b.run n) (entry strategy r s) =
            (b'.delegate strategy r).exec (b'.run n) (entry strategy r s) := by
          rw [← delegate_of_alike hb h ht hst]
          exact Script.exec_congr (fun r' s' hpart => ih (hpart.type_of_closed h htext ht)
            (hpart.policy_eq ▸ hpolicy) s') (only_delegate hb hst) _
        rw [run_of_not_mem hst hm, run_of_not_mem (hstrategy ▸ hst) hm, hdelegate]
        simp only [hsettle]

end Binder

end ConfigBind
