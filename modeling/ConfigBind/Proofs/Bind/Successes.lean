import ConfigBind.Proofs.Bind.Absence

/-!
# Binds that succeed

A bind that is no failure has no part that is one, and it is empty only where there is no data.  For
this the types of members need not be registered: a member of an unknown type may well hide the
failures of others, but it makes the bind fail.

* `Strategy.succeeds_ofKind`: what a strategy comes to if it does not fail.
* `Binder.run_of_subset_of_success`: with fewer paths in flight a successful run comes to the same.
* `Binder.vanishes_of_run_empty`: an empty run has followed references to where there is no data.
-/

namespace ConfigBind

/-- The script comes to a success only if no part has failed, and never to nothing. -/
abbrev Script.Succeeds (c : Script (Outcome Value)) : Prop :=
  c.Collects (fun errors o => (o.isFailed = false → errors = []) ∧ o.isEmpty = false) []

/-! ## Attempts -/

namespace Attempt

variable {α β : Type} {Q : α → Prop} {Q' : β → Prop}

def Strict (Q : α → Prop) (a : Attempt α) : Prop :=
  Script.Collects (fun errors x => ∀ v, x = .ok v → errors = [] ∧ Q v) a.run []

theorem Reporting.strict {a : Attempt α} (h : Reporting Q a) : Strict Q a := by
  refine Script.Collects.mono h fun errors x hx v hv => ?_
  subst hv
  exact hx

theorem strict_pure {a : α} (h : Q a) : Strict Q (pure a) := (reporting_pure h).strict

theorem strict_throw (e : BindError) : Strict Q (throw e : Attempt α) := nofun

theorem Strict.bind {a : Attempt α} {f : α → Attempt β} (ha : Strict Q a)
    (hf : ∀ x, Q x → Strict Q' (f x)) : Strict Q' (a >>= f) := by
  refine Script.Collects.bind ha fun errors x hx => ?_
  cases x with
  | error e => exact nofun
  | ok x =>
    obtain ⟨rfl, hQ⟩ := hx x rfl
    exact hf x hQ

theorem Strict.outcome {a : Attempt (Option Value)} (h : Strict (·.isSome = true) a) :
    a.outcome.Succeeds := by
  refine Script.Collects.bind h fun errors x hx => ?_
  rcases x with e | _ | v
  · exact ⟨nofun, rfl⟩
  · exact absurd (hx _ rfl).2 (by decide)
  · exact ⟨fun _ => (hx _ rfl).1, rfl⟩

end Attempt

/-! ## Members -/

namespace Strategy

open Attempt Context

variable {ctx : Context} {r : Request} {d : Descriptor} {n : Node} {α : Type}

def Gleaning (a : Attempt (α × List BindError)) (errors : List BindError) : Prop :=
  Script.Collects (fun errors x => ∀ found, x = .ok (found, []) → errors = []) a.run errors

theorem gleaning_bindComponents (components : List Component) (values : Components) :
    Gleaning (bindComponents ctx r components values []) [] := by
  refine collects_bindComponents (R := fun gathered errors => gathered = [] → errors = [])
    ?_ ?_ (fun _ _ => .inr fun _ _ found heq => by cases heq) values fun _ => rfl
  · simp
  · intro gathered errors values h found heq
    exact h (Prod.mk.inj (Except.ok.inj heq)).2

theorem gleaning_bindProperties (properties : List Property) (target : Value) :
    Gleaning (bindProperties ctx r properties target []) [] := by
  refine collects_bindProperties (R := fun gathered errors => gathered = [] → errors = [])
    ?_ ?_ ?_ (fun _ _ => .inr fun _ _ found heq => by cases heq) target fun _ => rfl
  · simp
  · simp
  · intro gathered errors target h found heq
    exact h (Prod.mk.inj (Except.ok.inj heq)).2

theorem Gleaning.bind {a : Attempt (α × List BindError)} (h : Gleaning a [])
    {f : α × List BindError → Attempt (Option Value)}
    (hbad : ∀ found first rest, ∃ e : BindError, f (found, first :: rest) = throw e)
    (hgood : ∀ found, Strict (·.isSome = true) (f (found, []))) :
    Strict (·.isSome = true) (a >>= f) := by
  refine Script.Collects.bind h fun errors x hx => ?_
  rcases x with e | ⟨found, _ | ⟨first, rest⟩⟩
  · exact nofun
  · obtain rfl := hx found rfl
    exact hgood found
  · obtain ⟨e, he⟩ := hbad found first rest
    show Script.Collects _ (f (found, first :: rest)).run errors
    rw [he]
    exact nofun

theorem strict_bindRecord {components : List Component} {construct : Construction Datum}
    (hd : ctx.describe? r.type = some d) (hshape : d.shape = .record components construct)
    (hn : r.source.resolve? r.path = some n) : Strict (·.isSome = true) (bindRecord ctx r) := by
  rw [bindRecord, descriptor_eq hd, pure_bind, hshape]
  dsimp only
  rw [hn]
  dsimp only
  by_cases hmap : n.isMap = true
  · rw [if_pos hmap]
    refine Gleaning.bind (gleaning_bindComponents _ _) ?_ ?_
    · exact fun values first rest => ⟨.members r.type.name (first :: rest), rfl⟩
    · intro values
      dsimp only
      cases d.construct values with
      | ok value => exact strict_pure rfl
      | error e => exact strict_throw (.instantiation r.type.name e)
  · rw [if_neg hmap]
    exact (reporting_convertWhole n r.type).strict

theorem strict_bindBean (hd : ctx.describe? r.type = some d)
    (hn : r.source.resolve? r.path = some n) : Strict (·.isSome = true) (bindBean ctx r) := by
  rw [bindBean, descriptor_eq hd, pure_bind]
  cases d.kind with
  | bean =>
    dsimp only
    rw [hn]
    dsimp only
    by_cases hmap : n.isMap = true
    · rw [if_pos hmap]
      refine reporting_startingInstance.strict.bind fun start _ => ?_
      refine Gleaning.bind (gleaning_bindProperties _ _) ?_ ?_
      · exact fun value first rest => ⟨.members r.type.name (first :: rest), rfl⟩
      · exact fun value => strict_pure rfl
    · rw [if_neg hmap]
      exact (reporting_convertWhole n r.type).strict
  | _ => exact (reporting_convertAt hn).strict

/-- **The strategy of every type succeeds only if no part fails**, and where there is data it does
not come to nothing. -/
theorem succeeds_ofKind (hd : ctx.describe? r.type = some d)
    (hn : r.source.resolve? r.path = some n) : ((ofKind d.kind).bind ctx r).Succeeds := by
  cases hshape : d.shape <;> rw [Descriptor.kind, hshape] <;> refine Strict.outcome ?_
  case scalar => exact (reporting_bindScalar hn).strict
  case object => exact strict_bindBean hd hn
  case record => exact strict_bindRecord hd hshape hn
  case bean => exact strict_bindBean hd hn
  case list =>
    rw [bindList, descriptor_eq hd, pure_bind, hshape]
    exact (reporting_collect hn reporting_skipElement _).strict
  case array =>
    rw [bindArray, descriptor_eq hd, pure_bind, hshape]
    exact (reporting_collect hn reporting_refuseElement _).strict
  case set =>
    rw [bindSet, descriptor_eq hd, pure_bind, hshape]
    exact (reporting_collect hn reporting_skipElement _).strict
  case map => exact (reporting_bindMap hd hshape hn).strict

end Strategy

/-! ## Runs -/

namespace Binder

variable {b : Binder} {n : Nat} {r : Request} {s t : Session} {o : Outcome Value}

theorem succeeds_strategy (hb : b.Standard) {strategy : Strategy}
    (hst : b.strategyFor r.type = .ok strategy) {node : Node}
    (hn : r.source.resolve? r.path = some node) : (strategy.bind b.context r).Succeeds := by
  obtain ⟨d, hd, rfl⟩ := hb.get?_of_strategyFor hst
  exact Strategy.succeeds_ofKind hd hn

theorem collects_delegate_of_success (hb : b.Standard) {strategy : Strategy}
    (hst : b.strategyFor r.type = .ok strategy) : (b.delegate strategy r).Collects
      (fun errors o => o.isFailed = false → errors = []) [] := by
  unfold delegate
  cases redirection? r with
  | some path => exact fun o ho => o.reports_errors.eq_nil ho
  | none =>
    dsimp only
    cases hn : r.source.resolve? r.path with
    | none =>
      obtain ⟨d, hd, rfl⟩ := hb.get?_of_strategyFor hst
      rw [Strategy.bind_of_absent hd hn]
      exact fun _ => rfl
    | some node => exact (succeeds_strategy hb hst hn).mono fun _ _ h => h.1

/-- **With fewer paths in flight a successful run comes to the same.** -/
theorem run_of_subset_of_success (hb : b.Standard) (hpolicy : r.policy = .propagate)
    (h : b.run n r s = some (o, t)) (ho : o.isFailed = false) {s' : Session}
    (hsub : s'.inFlight ⊆ s.inFlight) : ∃ t', b.run n r s' = some (o, t') := by
  refine run_of_subset_of (K := (·.isFailed = false)) ?_ ?_ hb hpolicy h ho hsub nofun
  · intro o path t ho
    rwa [Outcome.isFailed_wrapAt] at ho
  · intro strategy r hst
    refine (collects_delegate_of_success hb hst).mono fun errors o hnone ho o' hmem => ?_
    rw [hnone ho] at hmem
    cases o' with
    | failed e => exact absurd (hmem List.mem_cons_self) List.not_mem_nil
    | _ => rfl

/-- **An empty run has followed references to where there is no data**, whatever types are
registered. -/
theorem vanishes_of_run_empty (hb : b.Standard) (hpolicy : r.policy = .propagate)
    (h : b.run n r s = some (.empty, t)) : r.source.Vanishes s.inFlight r.path :=
  vanishes_of_run_of (fun hst hn => (succeeds_strategy hb hst hn).mono fun _ _ h => h.2)
    hb hpolicy h

end Binder

end ConfigBind
