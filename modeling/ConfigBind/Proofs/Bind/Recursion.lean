import ConfigBind.Proofs.Bind.Propagation

/-!
# Recursive failures

Where failures stand, a bind fails recursively if and only if some path was refused because it was
being bound already, however deep below and on whatever way it was reached.  A run is accounted for
by the number of refusals (`Session.refusals`): no script loses a recursive failure of a part
(`Script.Collects.exec_accounts`), so no run does (`Binder.run_accounts`).

* `Binder.isRecursive_iff_refused`: a bind is a recursive failure if and only if a path was refused.
-/

namespace ConfigBind

/-- Whether the event is that a path was being bound already. -/
def Event.isRefused : Event → Bool
  | refused _ => true
  | _ => false

def Session.refusals (s : Session) : Nat := s.events.countP (·.isRefused)

@[simp] theorem Session.refusals_note (s : Session) (e : Event) :
    (s.note e).refusals = s.refusals + if e.isRefused then 1 else 0 :=
  List.countP_cons

@[simp] theorem Session.refusals_enter (s : Session) (path : String) :
    (s.enter path).refusals = s.refusals :=
  List.countP_cons

@[simp] theorem Session.refusals_leave (s : Session) (path : String) :
    (s.leave path).refusals = s.refusals :=
  List.countP_cons

@[simp] theorem Session.refusals_settle (s : Session) (r : Request) (o : Outcome Value) :
    (s.settle r o).refusals = s.refusals := by
  cases o with
  | failed e => simp [settle, report, Event.isRefused]
  | _ => rfl

/-- Errors that came up from `s` to `t` account for the refusals in between: one is recursive if and
only if a path was refused. -/
def Accounts (errors : List BindError) (s t : Session) : Prop :=
  s.refusals ≤ t.refusals ∧ (BindError.anyRecursive errors = true ↔ s.refusals < t.refusals)

theorem accounts_iff {o : Outcome Value} {s t : Session} : Accounts o.errors s t ↔
    s.refusals ≤ t.refusals ∧ (o.isRecursive = true ↔ s.refusals < t.refusals) := Iff.rfl

theorem Accounts.append {xs ys : List BindError} {s t u : Session} (h : Accounts xs s t)
    (h' : Accounts ys t u) : Accounts (xs ++ ys) s u := by
  obtain ⟨hle, hxs⟩ := h
  obtain ⟨hle', hys⟩ := h'
  refine ⟨Nat.le_trans hle hle', ?_⟩
  rw [BindError.anyRecursive_append, Bool.or_eq_true, hxs, hys]
  omega

theorem Script.Collects.exec_accounts {α : Type} {post : List BindError → α → Prop}
    {P : Request → Prop} {f : Request → Bind (Outcome Value)}
    (hf : ∀ r s o t, P r → f r s = some (o, t) → Accounts o.errors s t) {c : Script α}
    {errors : List BindError} (hc : c.Collects post errors) (honly : c.Only Event.Plain P)
    {s t : Session} {a : α} (h : c.exec f s = some (a, t)) :
    ∃ found, post (errors ++ found) a ∧ Accounts found s t := by
  induction c generalizing errors s with
  | done b =>
    obtain ⟨rfl, rfl⟩ := Prod.mk.inj (Option.some.inj h)
    refine ⟨[], by rwa [List.append_nil], Nat.le_refl _, ?_⟩
    simp [BindError.anyRecursive]
  | event e next ih =>
    obtain ⟨found, hpost, hle, hany⟩ := ih hc honly.2 h
    have hplain : e.isRefused = false := by
      cases e with
      | refused path => exact honly.1.elim
      | _ => rfl
    have hnote : (s.note e).refusals = s.refusals := by simp [hplain]
    rw [hnote] at hle hany
    exact ⟨found, hpost, hle, hany⟩
  | call r next ih =>
    obtain ⟨outcome, u, hr, hnext⟩ := exec_call_eq_some h
    obtain ⟨found, hpost, hfound⟩ := ih outcome (hc outcome) (honly.2 outcome) hnext
    refine ⟨outcome.errors ++ found, by rwa [← List.append_assoc], ?_⟩
    exact (hf r s outcome u honly.1 hr).append hfound

namespace Binder

variable {b : Binder} {n : Nat} {r : Request} {s t : Session} {o : Outcome Value}

/-- **The outcome of a run in which failures stand accounts for its refusals.** -/
theorem run_accounts (hb : b.Standard) (hclosed : b.registry.Closed)
    (hpolicy : r.policy = .propagate) (h : b.run n r s = some (o, t)) :
    Accounts o.errors s t := by
  induction n generalizing r s o t with
  | zero => cases h
  | succ n ih =>
    have hentry (strategy : Strategy) : (entry strategy r s).refusals = s.refusals := by
      simp [entry, Event.isRefused]
    rcases run_standing hpolicy h with ⟨e, hst, rfl, rfl⟩ | ⟨strategy, hst, h⟩
    · -- that a type has no strategy is no matter of paths
      have hown : (wrapped r e).isRecursive = false := by
        rw [isRecursive_wrapped]
        exact isRecursive_of_strategyFor hst
      have hreport : (s.report r e).refusals = s.refusals := by
        simp [Session.report, Event.isRefused]
      exact accounts_iff.2 ⟨by omega, by rw [hown, hreport]; simp⟩
    rcases h with ⟨hm, rfl, rfl⟩ | ⟨hm, o', u, hdelegate, rfl, rfl⟩
    · have hown : (wrapped r (.recursive r.path.render)).isRecursive = true :=
        isRecursive_wrapped r _
      have hreport : ((refusal strategy r s).report r (.recursive r.path.render)).refusals =
          s.refusals + 1 := by
        simp [Session.report, refusal, Event.isRefused]
      exact accounts_iff.2 ⟨by omega, by rw [hown, hreport]; simp⟩
    · -- the request itself is not refused, so all refusals are among its parts
      have hparts : ∀ r' s o t, Part b.context r r' → b.run n r' s = some (o, t) →
          Accounts o.errors s t :=
        fun r' s o t hpart h => ih (hpart.policy_eq.trans hpolicy) h
      obtain ⟨found, hreports, hle, hany⟩ := (collects_delegate hb hclosed hst).exec_accounts
        hparts (only_delegate hb hst) hdelegate
      rw [List.nil_append] at hreports
      rw [← hreports.isRecursive_eq, hentry] at hany
      rw [hentry] at hle
      simpa [accounts_iff] using And.intro hle hany

/-- **A bind is a recursive failure if and only if a path was refused.**  This holds of every bind
that ends and whose failures stand, of a standard binder with a closed registry, whatever the tree
refers to and however types lead to each other.  If names are visible the bind has that result.  And
an error is recursive if and only if its tree has a path down to a refusal. -/
theorem isRecursive_iff_refused (hb : b.Standard) (hclosed : b.registry.Closed)
    (hpolicy : r.policy = .propagate) :
    (∀ run, b.EndsWith r run →
      ((∃ e, run.outcome = .failed e ∧ e.isRecursive = true) ↔
        ∃ path, Event.refused path ∈ run.events)) ∧
    (b.registry.NamesVisible r.path.separator →
      (b.bind? r).isSome = true ∧ ∀ run, b.bind? r = some run ↔ b.EndsWith r run) ∧
    ∀ e : BindError, e.isRecursive = true ↔ e.Recurs := by
  have hdirect : r.policy.Direct := hpolicy ▸ FailurePolicy.direct_propagate
  refine ⟨?_, bind?_iff_endsWith hb hdirect, BindError.isRecursive_iff⟩
  rintro run ⟨n, o, t, hrun, rfl⟩
  have haccounts := run_accounts hb hclosed hpolicy hrun
  have hcount : 0 < t.refusals ↔ ∃ path, Event.refused path ∈ t.events := by
    rw [Session.refusals, List.countP_pos_iff]
    constructor
    · rintro ⟨e, he, hrefused⟩
      cases e with
      | refused path => exact ⟨path, he⟩
      | _ => cases hrefused
    · rintro ⟨path, he⟩
      exact ⟨_, he, rfl⟩
  rw [← Outcome.isRecursive_iff]
  simp only [List.mem_reverse]
  rw [← hcount]
  exact haccounts.2

end Binder

namespace Sample

theorem faithful_binder (source : Node) : (binder source).registry.Faithful catalog [] :=
  (Registry.faithful_standard catalog).register link

theorem closed_binder (source : Node) : (binder source).registry.Closed := by
  refine (faithful_binder source).isClosed fun d hd u hu => ?_
  obtain rfl := List.mem_singleton.1 hd
  obtain rfl := List.mem_singleton.1 hu
  rfl

theorem describe?_link (source : Node) : ∃ d, (binder source).registry.get? link = some d ∧
    ∃ construct, d.shape = .record [⟨"next", link⟩] construct := by
  have hknown : (binder source).registry.get? link = catalog.known? link :=
    (Registry.faithful_standard catalog).get?_register link
  exact ⟨_, hknown.trans rfl, _, rfl⟩

theorem strategyFor_link (source : Node) :
    (binder source).strategyFor link = .ok Strategy.record := by
  obtain ⟨d, hd, construct, hshape⟩ := describe?_link source
  rw [Binder.Standard.strategyFor_eq (b := binder source) rfl hd, Descriptor.kind, hshape]
  rfl

def nextRequest : Request := request.below (.appendText (.parse "a") "next") link

theorem delegate_loop : ∃ next,
    (binder loop).delegate Strategy.record request = .call nextRequest next ∧
      ∀ e, next (.failed e) = .done (.failed (.members "Link" [e])) := by
  obtain ⟨d, hd, construct, hshape⟩ := describe?_link loop
  have hdescriptor : (binder loop).context.descriptor request.type = pure d :=
    Attempt.descriptor_eq hd
  have hbind : Strategy.record.bind (binder loop).context request =
      (Strategy.bindRecord (binder loop).context request).outcome := rfl
  have hpath : Binder.redirection? request = none := by decide
  rw [Binder.delegate, hpath]
  dsimp only
  rw [hbind, Strategy.bindRecord, hdescriptor, pure_bind, hshape]
  exact ⟨_, rfl, fun _ => rfl⟩

theorem run_loop : ∃ o t, (binder loop).run 3 request ⟨[], []⟩ = some (o, t) ∧
    o.isRecursive = true := by
  have hst : (binder loop).strategyFor link = .ok Strategy.record := strategyFor_link loop
  obtain ⟨next, hscript, hnext⟩ := delegate_loop
  have hpath : Binder.redirection? nextRequest = some (.parse "a") := by decide
  have hback : { nextRequest with path := .parse "a" } = request := rfl
  rw [Binder.run_of_not_mem_eq rfl hst (by decide), hscript, Script.exec_call,
    Binder.run_of_redirection_eq rfl hst (by decide) hpath, hback,
    Binder.run_of_mem_eq rfl hst (by decide)]
  dsimp only [Option.map_some, Option.bind_some, Binder.wrapped, Outcome.wrapAt]
  rw [hnext]
  exact ⟨_, _, rfl, rfl⟩

/-- The bind of a link that is its own next one is a recursive failure, and a path was refused. -/
theorem loop_is_refused :
    ((binder loop).Standard ∧ (binder loop).registry.Closed ∧ request.policy = .propagate ∧
      (binder loop).registry.NamesVisible request.path.separator) ∧
    ∃ run, (binder loop).bind? request = some run ∧ (binder loop).EndsWith request run ∧
      (∃ e, run.outcome = .failed e ∧ e.isRecursive = true) ∧
        ∃ path, Event.refused path ∈ run.events := by
  have hnames := namesVisible_binder loop
  obtain ⟨hrefused, hvisible, -⟩ := Binder.isRecursive_iff_refused (b := binder loop)
    (r := request) rfl (closed_binder loop) rfl
  obtain ⟨o, t, hrun, ho⟩ := run_loop
  have hends : (binder loop).EndsWith request _ := ⟨3, o, t, hrun, rfl⟩
  have hbind := ((hvisible hnames).2 _).2 hends
  have hfailed := Outcome.isRecursive_iff.1 ho
  exact ⟨⟨rfl, closed_binder loop, rfl, hnames⟩, _, hbind, hends, hfailed,
    (hrefused _ hends).1 hfailed⟩

end Sample

end ConfigBind
