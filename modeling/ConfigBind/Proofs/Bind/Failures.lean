import ConfigBind.Proofs.Bind.Alike
import ConfigBind.Proofs.Bind.Errors

/-!
# Failures of parts

A strategy never keeps a failure of a part to itself, and never makes one recursive that was not:
it comes to a value or to nothing only if no part failed, and its own failure comes of a path in
flight if and only if that of a part does (`Outcome.Reports`).  For this all members of a type have
to be registered, since otherwise the failures of other members are lost.

`Script.Collects post errors` says what a script comes to by the errors of the parts that failed.

* `Strategy.collects_ofKind`: the strategy of every type reports failures, and binds something.
* `Binder.collects_delegate`: so does every bind of a standard binder whose registry is closed.
* `Script.Collects.exec`: what a run of a script comes to, and that a run elsewhere whose parts come
  to the same does so as well.
-/

namespace ConfigBind

/-! ## What a script comes to -/

namespace Script

variable {α β : Type} {post : List BindError → α → Prop} {post' : List BindError → β → Prop}
  {errors : List BindError}

/-- Whatever the outcomes of its parts are, the script comes to something that `post` allows for the
errors of the parts that failed, those of `errors` before them. -/
def Collects (post : List BindError → α → Prop) : Script α → List BindError → Prop
  | done a, errors => post errors a
  | event _ next, errors => next.Collects post errors
  | call _ next, errors => ∀ outcome, (next outcome).Collects post (errors ++ outcome.errors)

theorem Collects.bind {c : Script α} {k : α → Script β} (hc : c.Collects post errors)
    (hk : ∀ errors a, post errors a → (k a).Collects post' errors) :
    (c >>= k).Collects post' errors := by
  induction c generalizing errors with
  | done a => exact hk errors a hc
  | event e next ih => exact ih hc
  | call r next ih => exact fun outcome => ih outcome (hc outcome)

theorem Collects.mono {post' : List BindError → α → Prop} {c : Script α}
    (hc : c.Collects post errors) (h : ∀ errors a, post errors a → post' errors a) :
    c.Collects post' errors := by
  induction c generalizing errors with
  | done a => exact h errors a hc
  | event e next ih => exact ih hc
  | call r next ih => exact fun outcome => ih outcome (hc outcome)

/-- **Two runs of a script whose parts come to the same come to the same.**  The sessions of the
runs may differ, as long as notes and parts keep to `R`; and only those parts matter that the first
run asks for, whose errors are among the ones that the script has collected. -/
theorem Collects.exec {Q : Event → Prop} {P : Request → Prop} {R : Session → Session → Prop}
    (hnote : ∀ s s' e, Q e → R s s' → R (s.note e) (s'.note e))
    {f : Request → Bind (Outcome Value)} {c : Script α} (hc : c.Collects post errors)
    (honly : c.Only Q P) {s t : Session} {a : α} (h : c.exec f s = some (a, t)) :
    ∃ found, post (errors ++ found) a ∧
      ∀ (g : Request → Bind (Outcome Value)) (s' : Session), R s s' →
        (∀ r s s' o t, P r → o.errors ⊆ found → R s s' → f r s = some (o, t) →
          ∃ t', g r s' = some (o, t') ∧ R t t') →
        ∃ t', c.exec g s' = some (a, t') ∧ R t t' := by
  induction c generalizing errors s with
  | done b =>
    obtain ⟨rfl, rfl⟩ := Prod.mk.inj (Option.some.inj h)
    refine ⟨[], by rwa [List.append_nil], ?_⟩
    intro g s' hs _
    exact ⟨s', rfl, hs⟩
  | event e next ih =>
    obtain ⟨found, hpost, hrest⟩ := ih hc honly.2 h
    refine ⟨found, hpost, ?_⟩
    intro g s' hs hg
    exact hrest g (s'.note e) (hnote s s' e honly.1 hs) hg
  | call r next ih =>
    obtain ⟨outcome, u, hr, hnext⟩ := exec_call_eq_some h
    obtain ⟨found, hpost, hrest⟩ := ih outcome (hc outcome) (honly.2 outcome) hnext
    -- the errors of this part, and those of the parts behind it
    refine ⟨outcome.errors ++ found, by rwa [← List.append_assoc], ?_⟩
    intro g s' hs hg
    obtain ⟨u', hr', hu⟩ := hg r s s' outcome u honly.1 (List.subset_append_left _ _) hs hr
    have hlater : ∀ r s s' o t, P r → o.errors ⊆ found → R s s' → f r s = some (o, t) →
        ∃ t', g r s' = some (o, t') ∧ R t t' :=
      fun r s s' o t hP ho => hg r s s' o t hP (List.subset_append_of_subset_right _ ho)
    obtain ⟨t', hnext', ht⟩ := hrest g u' hu hlater
    exact ⟨t', by rw [exec_call, hr']; exact hnext', ht⟩

end Script

/-- The outcome tells of the failures of the parts: it is no failure only if none of them is, and it
is recursive if and only if one of them is. -/
def Outcome.Reports {α : Type} (o : Outcome α) (errors : List BindError) : Prop :=
  match o with
  | .failed e => e.isRecursive = BindError.anyRecursive errors
  | _ => errors = []

theorem Outcome.Reports.isRecursive_eq {α : Type} {o : Outcome α} {errors : List BindError}
    (h : o.Reports errors) : o.isRecursive = BindError.anyRecursive errors := by
  cases o with
  | failed e => rw [isRecursive_failed, h]
  | _ =>
    have hnone : errors = [] := h
    rw [hnone]
    rfl

theorem Outcome.Reports.eq_nil {α : Type} {o : Outcome α} {errors : List BindError}
    (h : o.Reports errors) (ho : o.isFailed = false) : errors = [] := by
  cases o with
  | failed e => cases ho
  | _ => exact h

theorem Outcome.reports_errors {α : Type} (o : Outcome α) : o.Reports o.errors := by
  cases o with
  | failed e => exact (Bool.or_false _).symm
  | _ => rfl

/-! ## Attempts -/

namespace Attempt

variable {α β : Type} {Q : α → Prop} {Q' : β → Prop} {ctx : Context} {r : Request}

/-- The attempt gives a value, of `Q`, only if no part has failed, and its error is recursive if and
only if that of a part is. -/
def Reporting (Q : α → Prop) (a : Attempt α) : Prop :=
  Script.Collects (fun errors x =>
    match x with
    | .ok a => errors = [] ∧ Q a
    | .error e => e.isRecursive = BindError.anyRecursive errors) a.run []

theorem reporting_pure {a : α} (h : Q a) : Reporting Q (pure a) := ⟨rfl, h⟩

theorem reporting_throw {e : BindError} (h : e.isRecursive = false) :
    Reporting Q (throw e : Attempt α) := h

theorem Reporting.bind {a : Attempt α} {f : α → Attempt β} (ha : Reporting Q a)
    (hf : ∀ x, Q x → Reporting Q' (f x)) : Reporting Q' (a >>= f) := by
  refine Script.Collects.bind ha fun errors x hx => ?_
  cases x with
  | error e => exact hx
  | ok x =>
    obtain ⟨rfl, hx⟩ := hx
    exact hf x hx

theorem reporting_note_bind {e : Event} {f : Unit → Attempt α} (h : Reporting Q (f ())) :
    Reporting Q ((liftM (Script.note e) : Attempt Unit) >>= f) := h

theorem Reporting.outcome {a : Attempt (Option Value)} (h : Reporting (·.isSome = true) a) :
    a.outcome.Collects (fun errors o => o.Reports errors ∧ o.isEmpty = false) [] := by
  refine Script.Collects.bind h fun errors x hx => ?_
  rcases x with e | _ | v
  · exact ⟨hx, rfl⟩
  · exact absurd hx.2 (by decide)
  · exact ⟨hx.1, rfl⟩

theorem collects_bind_bind {post : List BindError → Except BindError α → Prop}
    {f : Outcome Value → Attempt α} {errors : List BindError}
    (h : ∀ o, Script.Collects post (f o).run (errors ++ o.errors)) :
    Script.Collects post (liftM (ctx.bind r) >>= f : Attempt α).run errors := h

theorem reporting_bindPart : Reporting (fun _ => True) (ctx.bindPart r) := by
  intro o
  cases o with
  | present v => exact ⟨rfl, trivial⟩
  | empty => exact ⟨rfl, trivial⟩
  | failed e => exact (Bool.or_false _).symm

theorem reporting_ofBuild (x : Except BuildError α) :
    Reporting (fun _ => True) (Attempt.ofBuild x) := by
  cases x with
  | ok v => exact reporting_pure trivial
  | error e => exact reporting_throw rfl

theorem reporting_convert (n : Node) (t : TypeRef) :
    Reporting (fun _ => True) (ctx.convert n t) := by
  unfold Context.convert
  cases ctx.conversion.convert n t with
  | ok v => exact reporting_pure trivial
  | error e => exact reporting_throw rfl

theorem reporting_convertAt {n : Node} (hn : r.source.resolve? r.path = some n) :
    Reporting (·.isSome = true) (ctx.convertAt r) := by
  unfold Context.convertAt
  rw [hn]
  exact (reporting_convert n r.type).bind fun _ _ => reporting_pure rfl

theorem reporting_convertWhole (n : Node) (t : TypeRef) :
    Reporting (·.isSome = true) (ctx.convertWhole n t) := by
  unfold Context.convertWhole
  by_cases h : ctx.conversion.canConvert t = true
  · rw [if_pos h]
    exact (reporting_convert n t).bind fun _ _ => reporting_pure rfl
  · rw [if_neg h]
    exact reporting_throw rfl

theorem isLeaf_eq_pure {t : TypeRef} {d : Descriptor} (hd : ctx.describe? t = some d) :
    ctx.isLeaf t = pure d.kind.isLeaf := by
  rw [Context.isLeaf, descriptor_eq hd, pure_bind]

theorem exists_isLeaf_eq {t : TypeRef} (h : (ctx.describe? t).isSome = true) :
    ∃ leaf, ctx.isLeaf t = pure leaf := by
  obtain ⟨d, hd⟩ := Option.isSome_iff_exists.1 h
  exact ⟨_, isLeaf_eq_pure hd⟩

theorem isLeaf_eq_throw {t : TypeRef} (h : ctx.describe? t = none) :
    ctx.isLeaf t = throw (.unregisteredType t.name) := by
  rw [Context.isLeaf, Context.descriptor, h]
  rfl

theorem isLeaf_cases (ctx : Context) (t : TypeRef) : (∃ leaf, ctx.isLeaf t = pure leaf) ∨
    ctx.describe? t = none ∧ ∃ e, ctx.isLeaf t = throw e := by
  cases hd : ctx.describe? t with
  | some d => exact .inl ⟨_, isLeaf_eq_pure hd⟩
  | none => exact .inr ⟨rfl, _, isLeaf_eq_throw hd⟩

theorem skips_cases (ctx : Context) (t : TypeRef) : (∃ skipped, ctx.skips t = pure skipped) ∨
    ctx.describe? t = none ∧ ∃ e, ctx.skips t = throw e := by
  unfold Context.skips
  cases ctx.mode with
  | deep => exact .inl ⟨false, rfl⟩
  | shallow =>
    obtain ⟨leaf, hleaf⟩ | ⟨hnone, e, he⟩ := isLeaf_cases ctx t
    · exact .inl ⟨!leaf, by rw [hleaf]; rfl⟩
    · exact .inr ⟨hnone, e, by rw [he]; rfl⟩

end Attempt

/-! ## Containers -/

namespace Context

open Attempt

variable {ctx : Context} {r : Request} {onEmpty : Path → Attempt Unit} {item : TypeRef}

theorem reporting_bindElementsFrom (he : ∀ p, Reporting (fun _ => True) (onEmpty p))
    (count i : Nat) :
    Reporting (fun _ => True) (ctx.bindElementsFrom r item onEmpty count i) := by
  induction count generalizing i with
  | zero => exact reporting_pure trivial
  | succ count ih =>
    refine reporting_bindPart.bind fun o _ => ?_
    cases o with
    | none => exact (he _).bind fun _ _ => ih (i + 1)
    | some value => exact (ih (i + 1)).bind fun _ _ => reporting_pure trivial

theorem reporting_bindElements {n : Node} (hn : r.source.resolve? r.path = some n)
    (he : ∀ p, Reporting (fun _ => True) (onEmpty p)) :
    Reporting (·.isSome = true) (ctx.bindElements r item onEmpty) := by
  unfold bindElements
  rw [hn]
  dsimp only
  cases n.items? with
  | none => exact reporting_throw rfl
  | some items =>
    exact (reporting_bindElementsFrom he items.length 0).bind fun _ _ => reporting_pure rfl

theorem reporting_skipElement (p : Path) : Reporting (fun _ => True) (skipElement p) :=
  reporting_note_bind (f := pure) (reporting_pure trivial)

theorem reporting_refuseElement (p : Path) : Reporting (fun _ => True) (refuseElement p) :=
  reporting_throw rfl

end Context

namespace Strategy

open Attempt Context

variable {ctx : Context} {r : Request} {d : Descriptor} {n : Node}

theorem reporting_collect {item : TypeRef} (hn : r.source.resolve? r.path = some n)
    {onEmpty : Path → Attempt Unit} (he : ∀ p, Reporting (fun _ => True) (onEmpty p))
    (f : List Value → Except BuildError Value) : Reporting (·.isSome = true) do
      match ← ctx.bindElements r item onEmpty with
      | none => return none
      | some items => return some (← Attempt.ofBuild (f items)) := by
  refine (reporting_bindElements hn he).bind fun o ho => ?_
  cases o with
  | none => exact absurd ho (by decide)
  | some items => exact (reporting_ofBuild (f items)).bind fun _ _ => reporting_pure rfl

theorem reporting_bindEntries (value : TypeRef) (keys : List String) :
    Reporting (fun _ => True) (bindEntries ctx r value keys) := by
  induction keys with
  | nil => exact reporting_pure trivial
  | cons key rest ih =>
    unfold bindEntries
    cases r.path.atKey? key with
    | none => exact reporting_throw rfl
    | some child =>
      refine reporting_bindPart.bind fun o _ => ?_
      cases o with
      | none => exact reporting_note_bind ih
      | some v => exact ih.bind fun _ _ => reporting_pure trivial

theorem reporting_bindMap {value : TypeRef} (hd : ctx.describe? r.type = some d)
    (hshape : d.shape = .map value) (hn : r.source.resolve? r.path = some n) :
    Reporting (·.isSome = true) (bindMap ctx r) := by
  rw [bindMap, descriptor_eq hd, pure_bind, hshape]
  dsimp only
  rw [hn]
  dsimp only
  cases n.entries? with
  | none => exact reporting_throw rfl
  | some nodes =>
    refine (reporting_bindEntries value _).bind fun entries _ => ?_
    exact (reporting_ofBuild _).bind fun _ _ => reporting_pure rfl

/-! ## Records and beans -/

/-- The errors that were gathered from some members stand for those of the parts that failed.  They
may hold errors of setters besides. -/
def Stands (gathered errors : List BindError) : Prop :=
  (gathered = [] → errors = []) ∧
    BindError.anyRecursive gathered = BindError.anyRecursive errors

theorem Stands.push {gathered errors : List BindError} (h : Stands gathered errors)
    (e : BindError) : Stands (gathered ++ [e]) (errors ++ [e]) := by
  refine ⟨fun hnil => by simp at hnil, ?_⟩
  rw [BindError.anyRecursive_append, BindError.anyRecursive_append, h.2]

theorem Stands.push_own {gathered errors : List BindError} (h : Stands gathered errors)
    {e : BindError} (he : e.isRecursive = false) : Stands (gathered ++ [e]) errors := by
  refine ⟨fun hnil => by simp at hnil, ?_⟩
  rw [BindError.anyRecursive_append, h.2, BindError.anyRecursive, he]
  simp [BindError.anyRecursive]

/-- Going through some components comes to what `post` allows, if a relation of what was gathered to
the errors of parts is kept by every failure, and if every component is of a known type or `post`
allows an error. -/
theorem collects_bindComponents {R : List BindError → List BindError → Prop}
    {post : List BindError → Except BindError (Components × List BindError) → Prop}
    (hpush : ∀ gathered errors e, R gathered errors → R (gathered ++ [e]) (errors ++ [e]))
    (hdone : ∀ gathered errors values, R gathered errors → post errors (.ok (values, gathered)))
    {components : List Component} (hknown : ∀ c ∈ components,
      (ctx.describe? c.type).isSome = true ∨ ∀ errors e, post errors (.error e))
    (values : Components) {gathered errors : List BindError} (h : R gathered errors) :
    Script.Collects post (bindComponents ctx r components values gathered).run errors := by
  induction components generalizing values gathered errors with
  | nil => exact hdone gathered errors values h
  | cons c rest ih =>
    have hrest : ∀ (values : Components) {gathered errors : List BindError}, R gathered errors →
        Script.Collects post (bindComponents ctx r rest values gathered).run errors :=
      fun values _ _ => ih (fun c hc => hknown c (List.mem_cons_of_mem _ hc)) values
    rw [bindComponents]
    obtain ⟨skipped, hskipped⟩ | ⟨hnone, e, he⟩ := skips_cases ctx c.type
    · rw [hskipped, pure_bind]
      cases skipped with
      | true => exact hrest values h
      | false =>
        refine collects_bind_bind fun o => ?_
        cases o with
        | present value => exact hrest _ (by rwa [Outcome.errors_present, List.append_nil])
        | empty => exact hrest _ (by rwa [Outcome.errors_empty, List.append_nil])
        | failed e => exact hrest _ (hpush _ _ e h)
    · rw [he]
      refine (hknown c List.mem_cons_self).elim (fun hsome => ?_) fun hthrow => hthrow errors e
      rw [hnone] at hsome
      cases hsome

theorem collects_bindProperties {R : List BindError → List BindError → Prop}
    {post : List BindError → Except BindError (Value × List BindError) → Prop}
    (hpush : ∀ gathered errors e, R gathered errors → R (gathered ++ [e]) (errors ++ [e]))
    (hown : ∀ gathered errors e, R gathered errors → R (gathered ++ [.build e]) errors)
    (hdone : ∀ gathered errors target, R gathered errors → post errors (.ok (target, gathered)))
    {properties : List Property} (hknown : ∀ p ∈ properties,
      (ctx.describe? p.type).isSome = true ∨ ∀ errors e, post errors (.error e))
    (target : Value) {gathered errors : List BindError} (h : R gathered errors) :
    Script.Collects post (bindProperties ctx r properties target gathered).run errors := by
  induction properties generalizing target gathered errors with
  | nil => exact hdone gathered errors target h
  | cons p rest ih =>
    have hrest : ∀ (target : Value) {gathered errors : List BindError}, R gathered errors →
        Script.Collects post (bindProperties ctx r rest target gathered).run errors :=
      fun target _ _ => ih (fun p hp => hknown p (List.mem_cons_of_mem _ hp)) target
    rw [bindProperties]
    obtain ⟨leaf, hleaf⟩ | ⟨hnone, e, he⟩ := isLeaf_cases ctx p.type
    · rw [hleaf, pure_bind]
      by_cases hskip : ctx.mode = .shallow ∧ (!leaf) = true
      · rw [if_pos hskip]
        exact hrest target h
      · rw [if_neg hskip]
        refine collects_bind_bind fun o => ?_
        cases o with
        | present value =>
          have hsame : R gathered (errors ++ (Outcome.present value).errors) := by
            rwa [Outcome.errors_present, List.append_nil]
          dsimp only
          cases p.set target value with
          | ok target => exact hrest target hsame
          | error e => exact hrest target (hown _ _ e hsame)
        | empty => exact hrest target (by rwa [Outcome.errors_empty, List.append_nil])
        | failed e => exact hrest target (hpush _ _ e h)
    · rw [he]
      refine (hknown p List.mem_cons_self).elim (fun hsome => ?_) fun hthrow => hthrow errors e
      rw [hnone] at hsome
      cases hsome

/-- Going through some members throws nothing, and gathers what stands for the errors of the parts
that failed. -/
def Gathering {α : Type} (a : Attempt (α × List BindError)) (errors : List BindError) : Prop :=
  Script.Collects (fun errors x => ∃ found gathered, x = .ok (found, gathered) ∧
    Stands gathered errors) a.run errors

theorem gathering_bindComponents {components : List Component}
    (hknown : ∀ c ∈ components, (ctx.describe? c.type).isSome = true) (values : Components)
    {gathered errors : List BindError} (h : Stands gathered errors) :
    Gathering (bindComponents ctx r components values gathered) errors :=
  collects_bindComponents (fun _ _ e h => h.push e) (fun _ _ values h => ⟨values, _, rfl, h⟩)
    (fun c hc => .inl (hknown c hc)) values h

theorem gathering_bindProperties {properties : List Property}
    (hknown : ∀ p ∈ properties, (ctx.describe? p.type).isSome = true) (target : Value)
    {gathered errors : List BindError} (h : Stands gathered errors) :
    Gathering (bindProperties ctx r properties target gathered) errors :=
  collects_bindProperties (fun _ _ e h => h.push e) (fun _ _ e h => h.push_own (e := .build e) rfl)
    (fun _ _ target h => ⟨target, _, rfl, h⟩) (fun p hp => .inl (hknown p hp)) target h

theorem Gathering.bind {α : Type} {a : Attempt (α × List BindError)} (h : Gathering a [])
    {f : α × List BindError → Attempt (Option Value)}
    (hbad : ∀ found first rest, ∃ e : BindError, f (found, first :: rest) = throw e ∧
      e.isRecursive = BindError.anyRecursive (first :: rest))
    (hgood : ∀ found, Reporting (·.isSome = true) (f (found, []))) :
    Reporting (·.isSome = true) (a >>= f) := by
  refine Script.Collects.bind h fun errors x hx => ?_
  obtain ⟨found, gathered, rfl, hnone, hany⟩ := hx
  cases gathered with
  | nil =>
    obtain rfl := hnone rfl
    exact hgood found
  | cons first rest =>
    obtain ⟨e, hf, he⟩ := hbad found first rest
    show Script.Collects _ (f (found, first :: rest)).run errors
    rw [hf]
    exact he.trans hany

theorem reporting_bindRecord {components : List Component} {construct : Construction Datum}
    (hd : ctx.describe? r.type = some d) (hshape : d.shape = .record components construct)
    (hn : r.source.resolve? r.path = some n)
    (hknown : ∀ c ∈ components, (ctx.describe? c.type).isSome = true) :
    Reporting (·.isSome = true) (bindRecord ctx r) := by
  rw [bindRecord, descriptor_eq hd, pure_bind, hshape]
  dsimp only
  rw [hn]
  dsimp only
  by_cases hmap : n.isMap = true
  · rw [if_pos hmap]
    refine Gathering.bind (gathering_bindComponents hknown _ ⟨id, rfl⟩) ?_ ?_
    · exact fun values first rest => ⟨.members r.type.name (first :: rest), rfl, rfl⟩
    · intro values
      dsimp only
      cases d.construct values with
      | ok value => exact reporting_pure rfl
      | error e => exact reporting_throw (e := .instantiation r.type.name e) rfl
  · rw [if_neg hmap]
    exact reporting_convertWhole n r.type

theorem reporting_startingInstance : Reporting (fun _ => True) (startingInstance d r) := by
  unfold startingInstance
  cases r.target.take.1 with
  | some value => exact reporting_pure trivial
  | none =>
    dsimp only
    cases d.instantiate with
    | ok value => exact reporting_pure trivial
    | error e => exact reporting_throw rfl

theorem reporting_bindBean (hd : ctx.describe? r.type = some d)
    (hn : r.source.resolve? r.path = some n)
    (hknown : ∀ p ∈ d.writableProperties, (ctx.describe? p.type).isSome = true) :
    Reporting (·.isSome = true) (bindBean ctx r) := by
  rw [bindBean, descriptor_eq hd, pure_bind]
  cases d.kind with
  | bean =>
    dsimp only
    rw [hn]
    dsimp only
    by_cases hmap : n.isMap = true
    · rw [if_pos hmap]
      refine reporting_startingInstance.bind fun start _ => ?_
      refine Gathering.bind (gathering_bindProperties hknown _ ⟨id, rfl⟩) ?_ ?_
      · exact fun value first rest => ⟨.members r.type.name (first :: rest), rfl, rfl⟩
      · exact fun value => reporting_pure rfl
    · rw [if_neg hmap]
      exact reporting_convertWhole n r.type
  | _ => exact reporting_convertAt hn

/-! ## Scalars -/

theorem reporting_resolveReference (reference : String) :
    Reporting (fun _ => True) (resolveReference ctx r reference) := by
  refine collects_bind_bind fun o => ?_
  cases o with
  | empty => exact ⟨rfl, trivial⟩
  | failed e => exact (Bool.or_false _).symm
  | present value =>
    by_cases htype : value.type = .text
    · have hcast : (Outcome.present value).cast .text = .present value := if_pos htype
      rw [hcast]
      dsimp only [Outcome.toExcept]
      cases value.datum with
      | text text => exact reporting_pure trivial
      | _ => exact reporting_throw rfl
    · have hcast : (Outcome.present value).cast .text =
          .failed (.build (.typeMismatch TypeRef.text.name)) := if_neg htype
      rw [hcast]
      exact reporting_throw (e := .build (.typeMismatch TypeRef.text.name)) rfl

theorem reporting_fillPieces {resolve : String → Attempt (Option String)} (tail : List Char)
    (h : ∀ reference, Reporting (fun _ => True) (resolve reference))
    (pieces : List (List Char × List Char)) :
    Reporting (fun _ => True) (Text.Template.fillPieces resolve tail pieces) := by
  induction pieces with
  | nil => exact reporting_pure trivial
  | cons piece rest ih =>
    refine (h _).bind fun value _ => ?_
    exact ih.bind fun _ _ => reporting_pure trivial

theorem reporting_bindScalar (hn : r.source.resolve? r.path = some n) :
    Reporting (·.isSome = true) (bindScalar ctx r) := by
  unfold bindScalar
  rw [hn]
  cases n with
  | text text =>
    dsimp only
    by_cases href : Text.hasReference text.toList = true
    · rw [if_pos href]
      refine (reporting_fillPieces _ reporting_resolveReference _).bind fun filled _ => ?_
      exact (reporting_convert _ _).bind fun _ _ => reporting_pure rfl
    · rw [if_neg href]
      exact reporting_convertAt hn
  | _ => exact reporting_convertAt hn

/-! ## All kinds of types -/

/-- **The strategy of every type reports the failures of parts**, and where there is data it does
not come to nothing. -/
theorem collects_ofKind (hd : ctx.describe? r.type = some d)
    (hknown : ∀ u ∈ d.dependencies, (ctx.describe? u).isSome = true)
    (hn : r.source.resolve? r.path = some n) : ((ofKind d.kind).bind ctx r).Collects
      (fun errors o => o.Reports errors ∧ o.isEmpty = false) [] := by
  have hcomponents : ∀ c ∈ d.components, (ctx.describe? c.type).isSome = true :=
    fun c hc => hknown _ (Descriptor.mem_dependencies_of_component hc)
  have hproperties : ∀ p ∈ d.writableProperties, (ctx.describe? p.type).isSome = true :=
    fun p hp => hknown _ (Descriptor.mem_dependencies_of_property hp)
  cases hshape : d.shape <;> rw [Descriptor.kind, hshape] <;> refine Reporting.outcome ?_
  case scalar => exact reporting_bindScalar hn
  case object => exact reporting_bindBean hd hn hproperties
  case record components construct =>
    rw [Descriptor.components, hshape] at hcomponents
    exact reporting_bindRecord hd hshape hn hcomponents
  case bean => exact reporting_bindBean hd hn hproperties
  case list =>
    rw [bindList, descriptor_eq hd, pure_bind, hshape]
    exact reporting_collect hn reporting_skipElement _
  case array =>
    rw [bindArray, descriptor_eq hd, pure_bind, hshape]
    exact reporting_collect hn reporting_refuseElement _
  case set =>
    rw [bindSet, descriptor_eq hd, pure_bind, hshape]
    exact reporting_collect hn reporting_skipElement _
  case map => exact reporting_bindMap hd hshape hn

end Strategy

namespace Binder

variable {b : Binder} {r : Request}

theorem collects_strategy (hb : b.Standard) (hclosed : b.registry.Closed) {strategy : Strategy}
    (hst : b.strategyFor r.type = .ok strategy) {n : Node}
    (hn : r.source.resolve? r.path = some n) : (strategy.bind b.context r).Collects
      (fun errors o => o.Reports errors ∧ o.isEmpty = false) [] := by
  obtain ⟨d, hd, rfl⟩ := hb.get?_of_strategyFor hst
  exact Strategy.collects_ofKind hd (hclosed _ d hd) hn

/-- **A standard binder with a closed registry reports the failures of parts.** -/
theorem collects_delegate (hb : b.Standard) (hclosed : b.registry.Closed) {strategy : Strategy}
    (hst : b.strategyFor r.type = .ok strategy) :
    (b.delegate strategy r).Collects (fun errors o => o.Reports errors) [] := by
  unfold delegate
  cases redirection? r with
  | some path => exact fun o => o.reports_errors
  | none =>
    dsimp only
    cases hn : r.source.resolve? r.path with
    | none =>
      obtain ⟨d, hd, rfl⟩ := hb.get?_of_strategyFor hst
      have hscript : (Strategy.ofKind d.kind).bind b.context r = .done .empty :=
        Strategy.bind_of_absent hd hn
      rw [hscript]
      exact (rfl : ([] : List BindError) = [])
    | some n => exact (collects_strategy hb hclosed hst hn).mono fun _ _ h => h.1

end Binder

end ConfigBind
