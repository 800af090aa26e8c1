import ConfigBind.Proofs.Bind.Exchanges
import ConfigBind.Proofs.Bind.Calls
import ConfigBind.Proofs.Bind.Redirection
import ConfigBind.Proofs.Types.Typing

/-!
# Binds are typed

If the descriptors, the converters, the policy and the instance to bind into are well typed, every
bind is: its value is of the type that was asked for, and no value that is unpacked on the way is of
another type than is expected there.

* `Attempt.Typed`: an attempt comes to what is expected, if its parts are typed.
* `Strategy.typed_ofKind`: the strategy for a type comes to values of the type, if its parts do.
-/

namespace ConfigBind

/-! ## What is well typed -/

/-- An error that a value was not of the expected type. -/
def BindError.IsMismatch : BindError → Prop
  | build e => e.IsMismatch
  | _ => False

def Event.IsMismatch : Event → Prop
  | failed _ _ e => e.IsMismatch
  | _ => False

def Session.Matched (s : Session) : Prop := ∀ e ∈ s.events, ¬ e.IsMismatch

/-- The outcome has a value of the type, or none, and is no mismatch. -/
def Outcome.Sound (Γ : Typing) (t : TypeRef) : Outcome Value → Prop
  | present v => v.Of Γ t
  | empty => True
  | failed e => ¬ e.IsMismatch

/-- Every converter makes data of its type. -/
def Conversion.Sound (Γ : Typing) (c : Conversion) : Prop :=
  ∀ t converter n d, c.converter? t = some converter → converter n = .ok d → Γ t d

/-- The policy gives values of the type that is asked for in place of failures. -/
structure FailurePolicy.Sound (Γ : Typing) (policy : FailurePolicy) : Prop where
  fallback : ∀ earlier path t e v, policy.onFailure earlier path t e = .fallback v → v.Of Γ t
  rebind : ∀ earlier path t e other u, policy.onFailure earlier path t e = .rebind other u → u = t

structure Target.Sound (Γ : Typing) (target : Target) : Prop where
  given : ∀ v, target.instance? = some v → v.Of Γ target.type
  supplied : ∀ v, target.supplied? = some v → v.Of Γ target.type

structure Request.Sound (Γ : Typing) (r : Request) : Prop where
  target : r.target.Sound Γ
  policy : r.policy.Sound Γ

/-- What a strategy sees of the binder is well typed. -/
structure Context.Sound (Γ : Typing) (ctx : Context) : Prop where
  describe : ∀ t d, ctx.describe? t = some d → d.type = t ∧ d.Sound Γ
  conversion : ctx.conversion.Sound Γ

section

variable {Γ : Typing}

theorem FailurePolicy.sound_propagate : FailurePolicy.propagate.Sound Γ where
  fallback := nofun
  rebind := nofun

theorem FailurePolicy.sound_ignore : FailurePolicy.ignore.Sound Γ where
  fallback := nofun
  rebind := nofun

theorem Outcome.Sound.cast_eq {o : Outcome Value} {t : TypeRef} (h : o.Sound Γ t) :
    o.cast t = o := by
  cases o with
  | present v => exact if_pos (Value.Of.type_eq h)
  | _ => rfl

theorem Target.sound_ofType (t : TypeRef) : (Target.ofType t).Sound Γ where
  given := nofun
  supplied := nofun

theorem Target.Sound.take {target : Target} (h : target.Sound Γ) {v : Value}
    (hv : target.take.1 = some v) : v.Of Γ target.type := by
  unfold Target.take at hv
  cases hgiven : target.instance? with
  | some given =>
    rw [hgiven] at hv
    exact h.given v (hgiven.trans hv)
  | none =>
    rw [hgiven] at hv
    exact h.supplied v hv

theorem Request.Sound.below {r : Request} (h : r.Sound Γ) (p : Path) (t : TypeRef) :
    (r.below p t).Sound Γ :=
  ⟨Target.sound_ofType t, h.policy⟩

end

/-! ## Attempts -/

/-- A script under the assumption that its parts are typed. -/
abbrev Script.Typed {α : Type} (Γ : Typing) (post : α → Prop) : Script α → Prop :=
  Script.Keeps (fun e => ¬ e.IsMismatch) (Request.Sound Γ) (fun r o => o.Sound Γ r.type) post

namespace Attempt

variable {α β : Type} {Γ : Typing} {post : α → Prop} {post' : β → Prop} {ctx : Context}
  {r : Request}

/-- If its parts are typed, the attempt comes to what `post` allows, or to an error that is no
mismatch. -/
def Typed (Γ : Typing) (post : α → Prop) (a : Attempt α) : Prop :=
  Script.Typed Γ (fun x =>
    match x with
    | .ok a => post a
    | .error e => ¬ BindError.IsMismatch e) a.run

theorem typed_pure {a : α} (h : post a) : Typed Γ post (pure a) := h

theorem typed_throw {e : BindError} (h : ¬ e.IsMismatch) : Typed Γ post (throw e : Attempt α) := h

theorem Typed.bind {a : Attempt α} {f : α → Attempt β} (ha : Typed Γ post a)
    (hf : ∀ x, post x → Typed Γ post' (f x)) : Typed Γ post' (a >>= f) := by
  refine Script.Keeps.bind ha fun x hx => ?_
  cases x with
  | error e => exact hx
  | ok x => exact hf x hx

theorem typed_note {e : Event} (h : ¬ e.IsMismatch) :
    Typed Γ (fun _ => True) (liftM (Script.note e) : Attempt Unit) := ⟨h, trivial⟩

theorem typed_note_bind {e : Event} {f : Unit → Attempt α} (he : ¬ e.IsMismatch)
    (hf : Typed Γ post (f ())) : Typed Γ post (liftM (Script.note e) >>= f) :=
  (typed_note he).bind fun _ _ => hf

/-- The value, if there is one, is of the type. -/
abbrev Optional (Γ : Typing) (t : TypeRef) (x : Option Value) : Prop := ∀ v, x = some v → v.Of Γ t

theorem optional_some {t : TypeRef} {v : Value} (h : v.Of Γ t) : Optional Γ t (some v) := by
  intro w hw
  rwa [← Option.some.inj hw]

theorem optional_none {t : TypeRef} : Optional Γ t none := nofun

theorem Typed.outcome {t : TypeRef} {a : Attempt (Option Value)} (h : Typed Γ (Optional Γ t) a) :
    a.outcome.Typed Γ (Outcome.Sound Γ t) := by
  refine Script.Keeps.bind h fun x hx => ?_
  rcases x with e | _ | v
  · exact hx
  · trivial
  · exact hx v rfl

theorem typed_bind_bind {f : Outcome Value → Attempt α} (hr : r.Sound Γ)
    (hf : ∀ o, o.Sound Γ r.type → Typed Γ post (f o)) : Typed Γ post (liftM (ctx.bind r) >>= f) :=
  ⟨hr, hf⟩

theorem typed_bindPart (hr : r.Sound Γ) : Typed Γ (Optional Γ r.type) (ctx.bindPart r) := by
  refine typed_bind_bind hr fun o ho => ?_
  cases o with
  | present v => exact typed_pure (optional_some ho)
  | empty => exact typed_pure optional_none
  | failed e => exact typed_throw ho

theorem typed_ofBuild {t : TypeRef} {x : Except BuildError Value} (hx : Builds t x)
    (hdatum : ∀ v, x = .ok v → Γ t v.datum) : Typed Γ (Value.Of Γ t) (Attempt.ofBuild x) := by
  cases x with
  | ok v => exact typed_pure ⟨hx, hdatum v rfl⟩
  | error e => exact typed_throw (e := .build e) hx

theorem typed_descriptor_bind {t : TypeRef} {f : Descriptor → Attempt α}
    (hf : ∀ d, ctx.describe? t = some d → Typed Γ post (f d)) :
    Typed Γ post (ctx.descriptor t >>= f) := by
  unfold Context.descriptor
  cases hd : ctx.describe? t with
  | none => exact typed_throw (e := .unregisteredType t.name) not_false
  | some d => exact hf d hd

theorem typed_isLeaf (t : TypeRef) : Typed Γ (fun _ => True) (ctx.isLeaf t) :=
  typed_descriptor_bind fun _ _ => typed_pure trivial

theorem typed_skips (t : TypeRef) : Typed Γ (fun _ => True) (ctx.skips t) := by
  unfold Context.skips
  cases ctx.mode with
  | shallow => exact (typed_isLeaf t).bind fun _ _ => typed_pure trivial
  | deep => exact typed_pure trivial

variable (hctx : ctx.Sound Γ)
include hctx

theorem typed_convert (n : Node) (t : TypeRef) :
    Typed Γ (Value.Of Γ t) (ctx.convert n t) := by
  unfold Context.convert Conversion.convert
  cases hconverter : ctx.conversion.converter? t with
  | none => exact typed_throw not_false
  | some converter =>
    dsimp only
    cases hn : converter n with
    | error e => exact typed_throw not_false
    | ok d => exact typed_pure ⟨rfl, hctx.conversion t converter n d hconverter hn⟩

theorem typed_convertAt : Typed Γ (Optional Γ r.type) (ctx.convertAt r) := by
  unfold Context.convertAt
  cases r.source.resolve? r.path with
  | none => exact typed_pure optional_none
  | some n => exact (typed_convert hctx n r.type).bind fun v hv => typed_pure (optional_some hv)

theorem typed_convertWhole (n : Node) (t : TypeRef) :
    Typed Γ (Optional Γ t) (ctx.convertWhole n t) := by
  unfold Context.convertWhole
  by_cases h : ctx.conversion.canConvert t = true
  · rw [if_pos h]
    exact (typed_convert hctx n t).bind fun v hv => typed_pure (optional_some hv)
  · rw [if_neg h]
    exact typed_throw not_false

end Attempt

/-! ## Containers -/

namespace Context

open Attempt

variable {Γ : Typing} {ctx : Context} {r : Request} {item : TypeRef}
  {onEmpty : Path → Attempt Unit}

theorem typed_bindElementsFrom (hr : r.Sound Γ)
    (he : ∀ p, Typed Γ (fun _ => True) (onEmpty p)) (count i : Nat) :
    Typed Γ (fun items => ∀ x ∈ items, x.Of Γ item)
      (ctx.bindElementsFrom r item onEmpty count i) := by
  induction count generalizing i with
  | zero => exact typed_pure (by simp)
  | succ count ih =>
    refine (typed_bindPart (hr.below (r.path.element i) item)).bind fun o ho => ?_
    cases o with
    | none => exact (he _).bind fun _ _ => ih (i + 1)
    | some v =>
      refine (ih (i + 1)).bind fun items hitems => typed_pure ?_
      exact List.forall_mem_cons.2 ⟨ho v rfl, hitems⟩

theorem typed_bindElements (hr : r.Sound Γ) (he : ∀ p, Typed Γ (fun _ => True) (onEmpty p)) :
    Typed Γ (fun o => ∀ items, o = some items → ∀ x ∈ items, x.Of Γ item)
      (ctx.bindElements r item onEmpty) := by
  unfold bindElements
  cases r.source.resolve? r.path with
  | none => exact typed_pure nofun
  | some n =>
    dsimp only
    cases n.items? with
    | none => exact typed_throw not_false
    | some nodes =>
      refine (typed_bindElementsFrom hr he nodes.length 0).bind fun items hitems => ?_
      refine typed_pure fun items' heq => ?_
      rwa [← Option.some.inj heq]

theorem typed_skipElement (p : Path) : Typed Γ (fun _ => True) (skipElement p) :=
  typed_note not_false

theorem typed_refuseElement (p : Path) : Typed Γ (fun _ => True) (refuseElement p) :=
  typed_throw not_false

end Context

namespace Strategy

open Attempt Context

variable {Γ : Typing} {ctx : Context} {r : Request} {d : Descriptor}

/-- **Elements are put together without a mismatch.** -/
theorem typed_collect (hr : r.Sound Γ) (hd : d.Sound Γ) {item : TypeRef}
    (hitem : d.item? = some item) {into : Option Value}
    (hinto : ∀ old, into = some old → old.Of Γ d.type) {onEmpty : Path → Attempt Unit}
    (he : ∀ p, Typed Γ (fun _ => True) (onEmpty p)) : Typed Γ (Optional Γ d.type) do
      match ← ctx.bindElements r item onEmpty with
      | none => return none
      | some items => return some (← Attempt.ofBuild (d.collect into items)) := by
  have helements : Typed Γ (fun o => ∀ items, o = some items → ∀ x ∈ items, x.Of Γ item)
      (ctx.bindElements r item onEmpty) := typed_bindElements hr he
  refine helements.bind fun o ho => ?_
  cases o with
  | none => exact typed_pure optional_none
  | some items =>
    have hitems := ho items rfl
    have hbuilds : Builds d.type (d.collect into items) :=
      Descriptor.builds_collect hitem (fun old hold => (hinto old hold).type_eq)
        fun x hx => (hitems x hx).type_eq
    refine (typed_ofBuild hbuilds fun v hv => ?_).bind fun v hv => typed_pure (optional_some hv)
    refine hd.collect into items v hinto (fun item' hitem' => ?_) hv
    rwa [← Option.some.inj (hitem.symm.trans hitem')]

theorem typed_bindEntries (hr : r.Sound Γ) (value : TypeRef) (keys : List String) :
    Typed Γ (fun entries => ∀ e ∈ entries, e.2.Of Γ value) (bindEntries ctx r value keys) := by
  induction keys with
  | nil => exact typed_pure (by simp)
  | cons key rest ih =>
    unfold bindEntries
    cases r.path.atKey? key with
    | none => exact typed_throw (e := .unaddressableKey r.path.render key) not_false
    | some child =>
      refine (typed_bindPart (hr.below child value)).bind fun o ho => ?_
      cases o with
      | none =>
        apply typed_note_bind
        · exact not_false
        · exact ih
      | some v =>
        refine ih.bind fun entries hentries => typed_pure ?_
        exact List.forall_mem_cons.2 ⟨ho v rfl, hentries⟩

theorem typed_bindMap (hr : r.Sound Γ) (hd : ctx.describe? r.type = some d)
    (htype : d.type = r.type) (hsound : d.Sound Γ) {value : TypeRef}
    (hshape : d.shape = .map value) :
    Typed Γ (Optional Γ r.type) (bindMap ctx r) := by
  have hinto : ∀ old, r.target.take.1 = some old → old.Of Γ d.type := fun old hold =>
    htype ▸ hr.target.take hold
  rw [bindMap, descriptor_eq hd, pure_bind, hshape]
  dsimp only
  cases r.source.resolve? r.path with
  | none => exact typed_pure optional_none
  | some n =>
    dsimp only
    cases n.entries? with
    | none => exact typed_throw (e := Context.unfit n d.type) not_false
    | some nodes =>
      refine (typed_bindEntries hr value _).bind fun entries hentries => ?_
      obtain ⟨v, hv, hcollect⟩ := Descriptor.collectEntries_of_forall hshape
        (fun old hold => (hinto old hold).type_eq) fun e he => (hentries e he).type_eq
      have hitem : d.item? = some value := by rw [Descriptor.item?, hshape]
      rw [hcollect]
      refine typed_pure (optional_some ⟨hv.trans htype, ?_⟩)
      rw [← htype]
      refine hsound.entries _ entries v hinto (fun item' hitem' => ?_) hcollect
      rwa [← Option.some.inj (hitem.symm.trans hitem')]

/-! ## Records and beans -/

theorem typed_bindComponents (hr : r.Sound Γ) {components rest : List Component}
    (hrest : rest ⊆ components) {values : Components} (hvalues : values.Of Γ components)
    (errors : List BindError) :
    Typed Γ (fun x => x.1.Of Γ components) (bindComponents ctx r rest values errors) := by
  induction rest generalizing values errors with
  | nil => exact typed_pure hvalues
  | cons c rest ih =>
    have hc : c ∈ components := hrest List.mem_cons_self
    have ih {values : Components} (hvalues : values.Of Γ components) (errors : List BindError) :
        Typed Γ (fun x => x.1.Of Γ components) (bindComponents ctx r rest values errors) :=
      ih (fun x hx => hrest (List.mem_cons_of_mem _ hx)) hvalues errors
    rw [bindComponents]
    refine (typed_skips c.type).bind fun skipped _ => ?_
    cases skipped with
    | true =>
      apply typed_note_bind
      · exact not_false
      · exact ih hvalues errors
    | false =>
      refine typed_bind_bind (hr.below _ c.type) fun o ho => ?_
      cases o with
      | present v => exact ih (hvalues.insert hc ho) errors
      | empty => exact ih hvalues errors
      | failed e => exact ih hvalues (errors ++ [e])

theorem typed_bindRecord (hctx : ctx.Sound Γ) (hr : r.Sound Γ)
    (hd : ctx.describe? r.type = some d) {components : List Component}
    {construct : Construction Datum} (hshape : d.shape = .record components construct) :
    Typed Γ (Optional Γ r.type) (bindRecord ctx r) := by
  obtain ⟨htype, hsound⟩ := hctx.describe r.type d hd
  have hcomponents : d.components = components := by rw [Descriptor.components, hshape]
  rw [bindRecord, descriptor_eq hd, pure_bind, hshape]
  dsimp only
  cases r.source.resolve? r.path with
  | none => exact typed_pure optional_none
  | some n =>
    dsimp only
    by_cases hmap : n.isMap = true
    · rw [if_pos hmap]
      refine (typed_bindComponents hr (List.Subset.refl _) (Components.of_empty _) []).bind ?_
      rintro ⟨values, errors⟩ hvalues
      dsimp only
      by_cases hbad : (!errors.isEmpty) = true
      · rw [if_pos hbad]
        exact typed_throw (e := .members r.type.name errors) not_false
      · rw [if_neg hbad]
        cases hv : d.construct values with
        | error e => exact typed_throw (e := .instantiation r.type.name e) not_false
        | ok v =>
          refine typed_pure (optional_some ?_)
          rw [← htype]
          exact hsound.of_construct (hcomponents.symm ▸ hvalues) hv
    · rw [if_neg hmap]
      exact typed_convertWhole hctx n r.type

theorem typed_bindProperties (hr : r.Sound Γ) (hd : d.Sound Γ) {properties : List Property}
    (hp : properties ⊆ d.properties) {target : Value} (htarget : target.Of Γ d.type)
    (errors : List BindError) :
    Typed Γ (fun x => x.1.Of Γ d.type) (bindProperties ctx r properties target errors) := by
  induction properties generalizing target errors with
  | nil => exact typed_pure htarget
  | cons p rest ih =>
    have hmem : p ∈ d.properties := hp List.mem_cons_self
    have ih {target : Value} (htarget : target.Of Γ d.type) (errors : List BindError) :
        Typed Γ (fun x => x.1.Of Γ d.type) (bindProperties ctx r rest target errors) :=
      ih (fun x hx => hp (List.mem_cons_of_mem _ hx)) htarget errors
    rw [bindProperties]
    refine (typed_isLeaf p.type).bind fun leaf _ => ?_
    by_cases hskip : ctx.mode = .shallow ∧ (!leaf) = true
    · rw [if_pos hskip]
      apply typed_note_bind
      · exact not_false
      · exact ih htarget errors
    · rw [if_neg hskip]
      -- the present value of the property is of its type
      have hcurrent : ∀ v, (if leaf then none else p.get? target) = some v → v.Of Γ p.type := by
        intro v hv
        cases leaf with
        | true => cases hv
        | false => exact hd.of_get? hmem htarget hv
      refine typed_bind_bind ⟨⟨hcurrent, fun v hv => by cases hv⟩, hr.policy⟩ fun o ho => ?_
      cases o with
      | present v =>
        dsimp only
        cases hset : p.set target v with
        | ok target' => exact ih (hd.of_set hmem htarget ho hset) errors
        | error e => exact ih htarget (errors ++ [.build e])
      | empty =>
        apply typed_note_bind
        · exact not_false
        · exact ih htarget errors
      | failed e => exact ih htarget (errors ++ [e])

theorem typed_startingInstance (hr : r.Sound Γ) (hd : d.Sound Γ) (htype : d.type = r.type) :
    Typed Γ (Value.Of Γ d.type) (startingInstance d r) := by
  unfold startingInstance
  cases htake : r.target.take.1 with
  | some v => exact typed_pure (htype ▸ hr.target.take htake)
  | none =>
    dsimp only
    cases hv : d.instantiate with
    | ok v => exact typed_pure (hd.of_instantiate hv)
    | error e => exact typed_throw (e := .instantiation r.type.name e) not_false

theorem typed_bindBean (hctx : ctx.Sound Γ) (hr : r.Sound Γ)
    (hd : ctx.describe? r.type = some d) : Typed Γ (Optional Γ r.type) (bindBean ctx r) := by
  obtain ⟨htype, hsound⟩ := hctx.describe r.type d hd
  rw [bindBean, descriptor_eq hd, pure_bind]
  cases d.kind with
  | bean =>
    dsimp only
    cases r.source.resolve? r.path with
    | none => exact typed_pure optional_none
    | some n =>
      dsimp only
      by_cases hmap : n.isMap = true
      · rw [if_pos hmap]
        refine (typed_startingInstance hr hsound htype).bind fun start hstart => ?_
        have hwritable : d.writableProperties ⊆ d.properties := fun _ hp => (List.mem_filter.1 hp).1
        refine (typed_bindProperties hr hsound hwritable hstart []).bind ?_
        rintro ⟨v, errors⟩ hv
        dsimp only
        by_cases hbad : (!errors.isEmpty) = true
        · rw [if_pos hbad]
          exact typed_throw (e := .members r.type.name errors) not_false
        · rw [if_neg hbad]
          exact typed_pure (optional_some (htype ▸ hv))
      · rw [if_neg hmap]
        exact typed_convertWhole hctx n r.type
  | _ => exact typed_convertAt hctx

/-! ## Scalars -/

/-- **A text that is referred to is a text.** -/
theorem typed_resolveReference (htext : ∀ d, Γ .text d → ∃ text, d = .text text) (hr : r.Sound Γ)
    (reference : String) : Typed Γ (fun _ => True) (resolveReference ctx r reference) := by
  refine typed_bind_bind (hr.below _ .text) fun o ho => ?_
  cases o with
  | empty => exact typed_pure trivial
  | failed e => exact typed_throw ho
  | present v =>
    have hv : v.Of Γ .text := ho
    have hcast : (Outcome.present v).cast .text = .present v := if_pos hv.type_eq
    obtain ⟨text, hdatum⟩ := htext v.datum hv.datum
    rw [hcast]
    dsimp only [Outcome.toExcept]
    rw [hdatum]
    exact typed_pure trivial

theorem typed_fillPieces {resolve : String → Attempt (Option String)} (tail : List Char)
    (h : ∀ reference, Typed Γ (fun _ => True) (resolve reference))
    (pieces : List (List Char × List Char)) :
    Typed Γ (fun _ => True) (Text.Template.fillPieces resolve tail pieces) := by
  induction pieces with
  | nil => exact typed_pure trivial
  | cons piece rest ih =>
    refine (h _).bind fun value _ => ?_
    exact ih.bind fun _ _ => typed_pure trivial

theorem typed_bindScalar (htext : ∀ d, Γ .text d → ∃ text, d = .text text) (hctx : ctx.Sound Γ)
    (hr : r.Sound Γ) : Typed Γ (Optional Γ r.type) (bindScalar ctx r) := by
  unfold bindScalar
  split
  · rename_i text _
    by_cases href : Text.hasReference text.toList = true
    · rw [if_pos href]
      refine (typed_fillPieces _ (typed_resolveReference htext hr) _).bind fun filled _ => ?_
      exact (typed_convert hctx _ r.type).bind fun v hv => typed_pure (optional_some hv)
    · rw [if_neg href]
      exact typed_convertAt hctx
  · exact typed_convertAt hctx

/-! ## All kinds of types -/

/-- **The strategy for a type comes to values of the type, if its parts do.** -/
theorem typed_ofKind (htext : ∀ d, Γ .text d → ∃ text, d = .text text) (hctx : ctx.Sound Γ)
    (hr : r.Sound Γ) (hd : ctx.describe? r.type = some d) :
    ((ofKind d.kind).bind ctx r).Typed Γ (Outcome.Sound Γ r.type) := by
  obtain ⟨htype, hsound⟩ := hctx.describe r.type d hd
  have hinto : ∀ old, r.target.take.1 = some old → old.Of Γ d.type := fun old hold =>
    htype ▸ hr.target.take hold
  cases hshape : d.shape <;> rw [Descriptor.kind, hshape] <;> refine Typed.outcome ?_
  case scalar => exact typed_bindScalar htext hctx hr
  case object => exact typed_bindBean hctx hr hd
  case record => exact typed_bindRecord hctx hr hd hshape
  case bean => exact typed_bindBean hctx hr hd
  case list item =>
    have hitem : d.item? = some item := by rw [Descriptor.item?, hshape]
    rw [bindList, descriptor_eq hd, pure_bind, hshape, ← htype]
    exact typed_collect hr hsound hitem hinto typed_skipElement
  case array item capacity =>
    have hitem : d.item? = some item := by rw [Descriptor.item?, hshape]
    rw [bindArray, descriptor_eq hd, pure_bind, hshape, ← htype]
    refine typed_collect hr hsound hitem ?_ typed_refuseElement
    intro old hold
    cases hold
  case set item =>
    have hitem : d.item? = some item := by rw [Descriptor.item?, hshape]
    rw [bindSet, descriptor_eq hd, pure_bind, hshape, ← htype]
    exact typed_collect hr hsound hitem hinto typed_skipElement
  case map => exact typed_bindMap hr hd htype hsound hshape

end Strategy

end ConfigBind
