import ConfigBind.Proofs.Bind.Redirection

/-!
# Binds that no policy is asked about

The policy of a request is handed on to its parts and has no other effect on what a strategy does:
under another policy a strategy asks for the same parts, each under that policy
(`Strategy.bind_under`).  Where failures stand, a bind that is no failure has no failure among its
parts either, so that under any other policy it is the same bind, event by event, and the policy is
never asked.

* `Binder.run_under`: a run that does not fail where failures stand is the same under every policy.
* `Binder.endsWith_of_standing`: so is a bind.
-/

namespace ConfigBind

/-- The request under another policy. -/
def Request.under (r : Request) (policy : FailurePolicy) : Request := { r with policy }

theorem Request.resolve?_under (r : Request) (policy : FailurePolicy) :
    (r.under policy).source.resolve? (r.under policy).path = r.source.resolve? r.path := rfl

namespace Script

variable {α β : Type} {policy : FailurePolicy}

/-- The script with all its parts under a policy. -/
def under (policy : FailurePolicy) : Script α → Script α
  | done a => done a
  | event e next => event e (next.under policy)
  | call r next => call (r.under policy) fun outcome => (next outcome).under policy

theorem under_bind (c : Script α) (k : α → Script β) :
    (c >>= k).under policy = c.under policy >>= fun a => (k a).under policy := by
  induction c with
  | done a => rfl
  | event e next ih => exact congrArg (event e) ih
  | call r next ih => exact congrArg (call (r.under policy)) (funext ih)

theorem under_eq_of_only {c : Script α} (h : c.Only (fun _ => True) fun _ => False) :
    c.under policy = c := by
  induction c with
  | done a => rfl
  | event e next ih => exact congrArg (event e) (ih h.2)
  | call r next ih => exact h.1.elim

theorem exec_under (f : Request → Bind (Outcome Value)) (c : Script α) (s : Session) :
    (c.under policy).exec f s = c.exec (fun r => f (r.under policy)) s := by
  induction c generalizing s with
  | done a => rfl
  | event e next ih => exact ih (s.note e)
  | call r next ih =>
    rw [under, exec_call, exec_call]
    congr 1
    funext x
    exact ih x.1 x.2

end Script

namespace Attempt

variable {α β : Type} {policy : FailurePolicy} {ctx : Context} {r : Request}

def under (policy : FailurePolicy) (a : Attempt α) : Attempt α :=
  ExceptT.mk (Script.under policy a.run)

theorem under_bind (a : Attempt α) (f : α → Attempt β) :
    under policy (a >>= f) = under policy a >>= fun x => under policy (f x) := by
  refine (Script.under_bind a.run _).trans ?_
  show _ = ExceptT.bind _ _
  congr 1
  funext x
  cases x <;> rfl

theorem under_eq_of_only {a : Attempt α} (h : Only (fun _ => True) (fun _ => False) a) :
    under policy a = a := Script.under_eq_of_only h

theorem under_outcome (a : Attempt (Option Value)) :
    a.outcome.under policy = (under policy a).outcome :=
  Script.under_bind a.run _

theorem under_bind_eq {a a' : Attempt α} {f f' : α → Attempt β} (ha : under policy a = a')
    (hf : ∀ x, under policy (f x) = f' x) : under policy (a >>= f) = a' >>= f' := by
  rw [under_bind, ha]
  congr 1
  funext x
  exact hf x

theorem under_bind_of_only {a : Attempt α} {f f' : α → Attempt β}
    (ha : Only (fun _ => True) (fun _ => False) a) (hf : ∀ x, under policy (f x) = f' x) :
    under policy (a >>= f) = a >>= f' :=
  under_bind_eq (under_eq_of_only ha) hf

theorem under_bindPart : under policy (ctx.bindPart r) = ctx.bindPart (r.under policy) := by
  refine congrArg ExceptT.mk (congrArg (Script.call (r.under policy)) ?_)
  funext o
  cases o <;> rfl

end Attempt

/-! ## Strategies -/

namespace Context

open Attempt

variable {policy : FailurePolicy} {ctx : Context} {r : Request} {item : TypeRef}
  {onEmpty : Path → Attempt Unit}

theorem bindElementsFrom_under (he : ∀ p, under policy (onEmpty p) = onEmpty p) (count i : Nat) :
    under policy (ctx.bindElementsFrom r item onEmpty count i) =
      ctx.bindElementsFrom (r.under policy) item onEmpty count i := by
  induction count generalizing i with
  | zero => rfl
  | succ count ih =>
    refine under_bind_eq under_bindPart fun o => ?_
    cases o with
    | none => exact under_bind_eq (he _) fun _ => ih (i + 1)
    | some value => exact under_bind_eq (ih (i + 1)) fun _ => rfl

theorem bindElements_under (he : ∀ p, under policy (onEmpty p) = onEmpty p) :
    under policy (ctx.bindElements r item onEmpty) =
      ctx.bindElements (r.under policy) item onEmpty := by
  unfold bindElements
  rw [Request.resolve?_under]
  cases r.source.resolve? r.path with
  | none => rfl
  | some n =>
    dsimp only
    cases n.items? with
    | none => rfl
    | some items => exact under_bind_eq (bindElementsFrom_under he items.length 0) fun _ => rfl

end Context

namespace Strategy

open Attempt Context

variable {policy : FailurePolicy} {ctx : Context} {r : Request}

theorem descriptor_under {α : Type} {t : TypeRef} {f f' : Descriptor → Attempt α}
    (hf : ∀ d, under policy (f d) = f' d) :
    under policy (ctx.descriptor t >>= f) = ctx.descriptor t >>= f' := by
  refine under_bind_of_only ?_ hf
  unfold Context.descriptor
  cases ctx.describe? t <;> trivial

theorem collect_under {item : TypeRef} {onEmpty : Path → Attempt Unit}
    (he : ∀ p, under policy (onEmpty p) = onEmpty p) (f : List Value → Except BuildError Value) :
    under policy (do
      match ← ctx.bindElements r item onEmpty with
      | none => return none
      | some items => return some (← Attempt.ofBuild (f items))) = do
      match ← ctx.bindElements (r.under policy) item onEmpty with
      | none => return none
      | some items => return some (← Attempt.ofBuild (f items)) := by
  refine under_bind_eq (bindElements_under he) fun o => ?_
  cases o with
  | none => rfl
  | some items =>
    exact under_bind_of_only (only_ofBuild _) fun _ => rfl

theorem bindList_under : under policy (bindList ctx r) = bindList ctx (r.under policy) := by
  refine descriptor_under fun d => ?_
  cases d.shape with
  | list item => exact collect_under (fun _ => rfl) _
  | _ => rfl

theorem bindArray_under : under policy (bindArray ctx r) = bindArray ctx (r.under policy) := by
  refine descriptor_under fun d => ?_
  cases d.shape with
  | array item capacity => exact collect_under (fun _ => rfl) _
  | _ => rfl

theorem bindSet_under : under policy (bindSet ctx r) = bindSet ctx (r.under policy) := by
  refine descriptor_under fun d => ?_
  cases d.shape with
  | set item => exact collect_under (fun _ => rfl) _
  | _ => rfl

theorem bindEntries_under (value : TypeRef) (keys : List String) :
    under policy (bindEntries ctx r value keys) = bindEntries ctx (r.under policy) value keys := by
  induction keys with
  | nil => rfl
  | cons key rest ih =>
    have hpath : (r.under policy).path = r.path := rfl
    unfold bindEntries
    rw [hpath]
    cases r.path.atKey? key with
    | none => rfl
    | some child =>
      refine under_bind_eq under_bindPart fun o => ?_
      cases o with
      | none => exact under_bind_eq rfl fun _ => ih
      | some v => exact under_bind_eq ih fun _ => rfl

theorem bindMap_under : under policy (bindMap ctx r) = bindMap ctx (r.under policy) := by
  refine descriptor_under fun d => ?_
  rw [Request.resolve?_under]
  cases d.shape with
  | map value =>
    dsimp only
    cases r.source.resolve? r.path with
    | none => rfl
    | some n =>
      dsimp only
      cases n.entries? with
      | none => rfl
      | some nodes =>
        refine under_bind_eq (bindEntries_under value _) fun entries => ?_
        exact under_bind_of_only (only_ofBuild _) fun _ => rfl
  | _ => rfl

theorem bindComponents_under (components : List Component) (values : Components)
    (errors : List BindError) : under policy (bindComponents ctx r components values errors) =
      bindComponents ctx (r.under policy) components values errors := by
  induction components generalizing values errors with
  | nil => rfl
  | cons c rest ih =>
    unfold bindComponents
    refine under_bind_of_only (only_skips c.type) fun skipped => ?_
    cases skipped with
    | true => exact under_bind_eq rfl fun _ => ih _ _
    | false =>
      refine under_bind_eq rfl fun o => ?_
      cases o <;> exact ih _ _

theorem bindRecord_under : under policy (bindRecord ctx r) = bindRecord ctx (r.under policy) := by
  refine descriptor_under fun d => ?_
  rw [Request.resolve?_under]
  cases d.shape with
  | record components construct =>
    dsimp only
    cases r.source.resolve? r.path with
    | none => rfl
    | some n =>
      dsimp only
      by_cases hmap : n.isMap = true
      · rw [if_pos hmap, if_pos hmap]
        refine under_bind_eq (bindComponents_under components _ _) ?_
        rintro ⟨values, errors⟩
        cases errors with
        | cons e rest => rfl
        | nil =>
          dsimp only
          cases d.construct values <;> rfl
      · rw [if_neg hmap, if_neg hmap]
        exact under_eq_of_only (only_convertWhole _ _)
  | _ => rfl

theorem bindProperties_under (properties : List Property) (target : Value)
    (errors : List BindError) : under policy (bindProperties ctx r properties target errors) =
      bindProperties ctx (r.under policy) properties target errors := by
  induction properties generalizing target errors with
  | nil => rfl
  | cons p rest ih =>
    unfold bindProperties
    refine under_bind_of_only (only_isLeaf p.type) fun leaf => ?_
    by_cases hskip : ctx.mode = .shallow ∧ (!leaf) = true
    · rw [if_pos hskip, if_pos hskip]
      exact under_bind_eq rfl fun _ => ih _ _
    · rw [if_neg hskip, if_neg hskip]
      refine under_bind_eq rfl fun o => ?_
      cases o with
      | present value =>
        dsimp only
        cases p.set target value <;> exact ih _ _
      | empty => exact under_bind_eq rfl fun _ => ih _ _
      | failed e => exact ih _ _

theorem bindBean_under : under policy (bindBean ctx r) = bindBean ctx (r.under policy) := by
  refine descriptor_under fun d => ?_
  rw [Request.resolve?_under]
  cases d.kind with
  | bean =>
    dsimp only
    cases r.source.resolve? r.path with
    | none => rfl
    | some n =>
      dsimp only
      by_cases hmap : n.isMap = true
      · rw [if_pos hmap, if_pos hmap]
        refine under_bind_of_only (only_startingInstance d) fun start => ?_
        refine under_bind_eq (bindProperties_under _ _ _) ?_
        rintro ⟨value, errors⟩
        cases errors <;> rfl
      · rw [if_neg hmap, if_neg hmap]
        exact under_eq_of_only (only_convertWhole _ _)
  | _ => exact under_eq_of_only only_convertAt

theorem resolveReference_under (reference : String) :
    under policy (resolveReference ctx r reference) =
      resolveReference ctx (r.under policy) reference := by
  refine under_bind_eq rfl fun o => ?_
  cases (o.cast .text).toExcept with
  | error e => rfl
  | ok found =>
    cases found with
    | none => rfl
    | some value =>
      dsimp only
      cases value.datum <;> rfl

theorem fillPieces_under {resolve resolve' : String → Attempt (Option String)} (tail : List Char)
    (h : ∀ reference, under policy (resolve reference) = resolve' reference)
    (pieces : List (List Char × List Char)) :
    under policy (Text.Template.fillPieces resolve tail pieces) =
      Text.Template.fillPieces resolve' tail pieces := by
  induction pieces with
  | nil => rfl
  | cons piece rest ih =>
    exact under_bind_eq (h _) fun value => under_bind_eq ih fun _ => rfl

theorem bindScalar_under : under policy (bindScalar ctx r) = bindScalar ctx (r.under policy) := by
  unfold bindScalar
  rw [Request.resolve?_under]
  cases r.source.resolve? r.path with
  | none => exact under_eq_of_only only_convertAt
  | some n =>
    cases n with
    | text text =>
      dsimp only
      by_cases href : Text.hasReference text.toList = true
      · rw [if_pos href, if_pos href]
        refine under_bind_eq (fillPieces_under _ resolveReference_under _) fun filled => ?_
        exact under_bind_of_only (only_convert _ _) fun _ => rfl
      · rw [if_neg href, if_neg href]
        exact under_eq_of_only only_convertAt
    | _ => exact under_eq_of_only only_convertAt

/-- **Under another policy a built-in strategy asks for the same parts**, each under that policy. -/
theorem bind_under {strategy : Strategy} (h : strategy ∈ builtin) :
    strategy.bind ctx (r.under policy) = (strategy.bind ctx r).under policy := by
  have houtcome {a a' : Attempt (Option Value)} (h : under policy a = a') :
      a'.outcome = a.outcome.under policy := by
    rw [under_outcome, h]
  simp only [builtin, List.mem_cons, List.not_mem_nil, or_false] at h
  rcases h with rfl | rfl | rfl | rfl | rfl | rfl | rfl
  · exact houtcome bindScalar_under
  · exact houtcome bindMap_under
  · exact houtcome bindArray_under
  · exact houtcome bindSet_under
  · exact houtcome bindList_under
  · exact houtcome bindRecord_under
  · exact houtcome bindBean_under

end Strategy

/-! ## Runs -/

theorem Session.asked_note_of_plain {e : Event} (he : e.Plain) (s : Session) :
    (s.note e).asked = s.asked := by
  cases e with
  | asked => exact he.elim
  | _ => rfl

namespace Binder

variable {b : Binder} {n : Nat} {r : Request} {s t : Session} {o : Outcome Value}

theorem delegate_under (hb : b.Standard) {strategy : Strategy}
    (hst : b.strategyFor r.type = .ok strategy) (policy : FailurePolicy) :
    b.delegate strategy (r.under policy) = (b.delegate strategy r).under policy := by
  have hpath : redirection? (r.under policy) = redirection? r := rfl
  unfold delegate
  rw [hpath]
  cases redirection? r with
  | some path => rfl
  | none => exact Strategy.bind_under (hb.mem_builtin hst)

/-- **A run that does not fail where failures stand is the same under every policy**, and no policy
is asked. -/
theorem run_under (hb : b.Standard) (hclosed : b.registry.Closed)
    (hpolicy : r.policy = .propagate) (h : b.run n r s = some (o, t))
    (ho : o.isFailed = false) (policy : FailurePolicy) :
    b.run n (r.under policy) s = some (o, t) ∧ t.asked = s.asked := by
  induction n generalizing r s o t with
  | zero => cases h
  | succ n ih =>
    rcases run_standing hpolicy h with ⟨e, -, rfl, -⟩ | ⟨strategy, hst, h⟩
    · cases ho
    rcases h with ⟨-, rfl, -⟩ | ⟨hm, o', u, hdelegate, rfl, rfl⟩
    · cases ho
    rw [Outcome.isFailed_wrapAt] at ho
    -- the two runs go through the same sessions, in which no policy is asked
    have hnote : ∀ (v v' : Session) (e : Event), e.Plain → v' = v ∧ v.asked = s.asked →
        v'.note e = v.note e ∧ (v.note e).asked = s.asked := by
      rintro v v' e he ⟨rfl, hasked⟩
      exact ⟨rfl, (Session.asked_note_of_plain he v').trans hasked⟩
    obtain ⟨found, hreports, htransfer⟩ := (collects_delegate hb hclosed hst).exec hnote
      (only_delegate hb hst) hdelegate
    rw [List.nil_append] at hreports
    have hfound : found = [] := hreports.eq_nil ho
    obtain ⟨u', hdelegate', rfl, hasked⟩ := htransfer (fun r => b.run n (r.under policy))
      (entry strategy r s) ⟨rfl, rfl⟩ (by
        rintro r' v v' o v₁ hpart herrors ⟨rfl, hv⟩ hrun
        have hstands : o.isFailed = false :=
          Outcome.isFailed_eq_false_of_errors (List.subset_nil.1 (hfound ▸ herrors))
        obtain ⟨hrun', hsame⟩ := ih (hpart.policy_eq.trans hpolicy) hrun hstands
        exact ⟨v₁, hrun', rfl, hsame.trans hv⟩)
    have hsettled : u'.settle r o' = u' := Session.settle_of_not_isFailed ho u' r
    rw [Outcome.wrapAt_of_not_isFailed ho, hsettled]
    refine ⟨?_, hasked⟩
    rw [← Script.exec_under, ← delegate_under hb hst] at hdelegate'
    exact run_of_settle (r := r.under policy) hst hm hdelegate' (settle_of_not_isFailed ho)

/-- **A policy changes only binds in which something failed.**  If the bind of a request is no
failure where failures stand, then under the policy of the request, whatever that is, it is the same
bind, event by event, and the policy is never asked.  If names are visible the two binds have that
result. -/
theorem endsWith_of_standing (hb : b.Standard) (hclosed : b.registry.Closed) (r : Request) :
    (∀ run, b.EndsWith (r.under .propagate) run → run.outcome.isFailed = false →
      b.EndsWith r run ∧ ∀ e ∈ run.events, e.isAsked = false) ∧
    (b.registry.NamesVisible r.path.separator →
      (b.bind? (r.under .propagate)).isSome = true ∧
        ∀ run, b.bind? (r.under .propagate) = some run → run.outcome.isFailed = false →
          b.bind? r = some run) := by
  have hdirect : (r.under .propagate).policy.Direct := FailurePolicy.direct_propagate
  constructor
  · rintro run ⟨n, o, t, hexec, rfl⟩ ho
    obtain ⟨hexec', hasked⟩ := run_under hb hclosed rfl hexec ho r.policy
    refine ⟨⟨n, o, t, hexec', rfl⟩, fun e he => ?_⟩
    have hnone : t.events.filter (·.isAsked) = [] := hasked
    simpa using List.filter_eq_nil_iff.1 hnone e (List.mem_reverse.1 he)
  · intro hnames
    refine ⟨isSome_bind? hb hdirect hnames, fun run hrun ho => ?_⟩
    obtain ⟨⟨o, t⟩, hexec, rfl⟩ := Option.map_eq_some_iff.1 hrun
    -- the allowance is the same, whatever the policy
    exact bind?_of_run (run_under hb hclosed rfl hexec ho r.policy).1 (Nat.le_refl _)

end Binder

namespace Sample

/-- A text that is reached is the same where failures would be dropped. -/
theorem relay_asks_no_policy :
    ((plainBinder relay).Standard ∧ (plainBinder relay).registry.Closed ∧
      (plainBinder relay).registry.NamesVisible '.') ∧
    ∃ run, (plainBinder relay).bind? (textAt "a" relay) = some run ∧
      run.outcome = .present ⟨.text, .text "here"⟩ ∧
        (plainBinder relay).bind? ((textAt "a" relay).under .ignore) = some run ∧
          (plainBinder relay).EndsWith ((textAt "a" relay).under .ignore) run ∧
            ∀ e ∈ run.events, e.isAsked = false := by
  have hnames := namesVisible_plainBinder relay
  obtain ⟨t, hrun⟩ := run_relay
  have hends : (plainBinder relay).EndsWith (textAt "a" relay) _ := ⟨3, _, t, hrun, rfl⟩
  have hbind := ((Binder.bind?_iff_endsWith (b := plainBinder relay) (r := textAt "a" relay) rfl
    FailurePolicy.direct_propagate hnames).2 _).2 hends
  obtain ⟨hsame, hvisible⟩ := Binder.endsWith_of_standing (b := plainBinder relay) rfl
    (closed_plainBinder relay) ((textAt "a" relay).under .ignore)
  obtain ⟨hends', hasked⟩ := hsame _ hends rfl
  exact ⟨⟨rfl, closed_plainBinder relay, hnames⟩, _, hbind, rfl,
    (hvisible hnames).2 _ hbind rfl, hends', hasked⟩

end Sample

end ConfigBind
