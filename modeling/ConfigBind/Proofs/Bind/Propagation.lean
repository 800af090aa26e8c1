import ConfigBind.Proofs.Bind.Failures

/-!
# Runs in which failures stand

A policy may let failures stand.  Then a request that fails is wrapped at its path, and what its
parts come to is all that counts: `Binder.run_of_error_eq`, `Binder.run_of_mem_eq` and
`Binder.run_of_not_mem_eq` are one level of such a run, and `Binder.run_standing` takes a run apart
by them; `Binder.run_succeeding` does if it does not fail.
-/

namespace ConfigBind

/-- The outcome, as it is handed on by the bind of a path. -/
def Outcome.wrapAt {α : Type} (o : Outcome α) (path : Path) (t : TypeRef) : Outcome α :=
  match o with
  | failed e => failed (.failed path.render t.name e)
  | o => o

namespace Outcome

variable {α : Type} {o : Outcome α} {path : Path} {t : TypeRef}

@[simp] theorem isRecursive_wrapAt : (o.wrapAt path t).isRecursive = o.isRecursive := by
  cases o with
  | failed e => simp only [wrapAt, isRecursive_failed, BindError.isRecursive]
  | _ => rfl

@[simp] theorem isFailed_wrapAt : (o.wrapAt path t).isFailed = o.isFailed := by
  cases o <;> rfl

theorem wrapAt_of_not_isFailed (h : o.isFailed = false) : o.wrapAt path t = o := by
  cases o with
  | failed e => cases h
  | _ => rfl

end Outcome

namespace Session

/-- The session after a failure of a request was put to its policy. -/
def report (s : Session) (r : Request) (e : BindError) : Session :=
  (s.note (.failed r.path.render r.type e)).note
    (.asked r.policy.name r.path.render r.type e s.inFlight.length)

/-- The session after the outcome of a request was put to its policy, if it is a failure. -/
def settle (s : Session) (r : Request) : Outcome Value → Session
  | .failed e => s.report r e
  | _ => s

theorem settle_of_not_isFailed {o : Outcome Value} (h : o.isFailed = false) (s : Session)
    (r : Request) : s.settle r o = s := by
  cases o with
  | failed e => cases h
  | _ => rfl

end Session

namespace Binder

variable {b : Binder} {n : Nat} {r : Request} {s t : Session} {o : Outcome Value}

@[simp] theorem isRecursive_wrapped (r : Request) (e : BindError) :
    (wrapped r e).isRecursive = e.isRecursive := by
  rw [wrapped, Outcome.isRecursive_failed, BindError.isRecursive]

theorem recovery_exec_eq (hpolicy : r.policy = .propagate) (e : BindError)
    (f : Request → Bind (Outcome Value)) (s : Session) :
    (b.recovery r e s).exec f s = some (wrapped r e, s.report r e) := by
  rw [recovery, Session.report, hpolicy]
  rfl

theorem settle_exec_eq (hpolicy : r.policy = .propagate) (o : Outcome Value)
    (f : Request → Bind (Outcome Value)) (s : Session) :
    b.settle f r o s = some (o.wrapAt r.path r.type, s.settle r o) := by
  cases o with
  | failed e => exact recovery_exec_eq hpolicy e f s
  | _ => rfl

theorem settle_of_not_isFailed (ho : o.isFailed = false) {f : Request → Bind (Outcome Value)} :
    b.settle f r o s = some (o, s) := by
  cases o with
  | failed e => cases ho
  | _ => rfl

theorem run_of_error_eq (hpolicy : r.policy = .propagate) {e : BindError}
    (hst : b.strategyFor r.type = .error e) (n : Nat) (s : Session) :
    b.run (n + 1) r s = some (wrapped r e, s.report r e) := by
  rw [run_of_error hst, recovery_exec_eq hpolicy]

theorem run_of_mem_eq (hpolicy : r.policy = .propagate) {strategy : Strategy}
    (hst : b.strategyFor r.type = .ok strategy) (hm : r.path.render ∈ s.inFlight) (n : Nat) :
    b.run (n + 1) r s = some (wrapped r (.recursive r.path.render),
      (refusal strategy r s).report r (.recursive r.path.render)) := by
  rw [run_of_mem hst hm, recovery_exec_eq hpolicy]

theorem run_of_not_mem_eq (hpolicy : r.policy = .propagate) {strategy : Strategy}
    (hst : b.strategyFor r.type = .ok strategy) (hm : r.path.render ∉ s.inFlight) (n : Nat) :
    b.run (n + 1) r s = ((b.delegate strategy r).exec (b.run n) (entry strategy r s)).map
      fun x => (x.1.wrapAt r.path r.type, (x.2.settle r x.1).leave r.path.render) := by
  rw [run_of_not_mem hst hm, Option.map_eq_bind]
  congr 1
  funext x
  rw [settle_exec_eq hpolicy]
  rfl

/-- What a run has done in which failures stand: there was no strategy for it, or its path was
refused, or it was delegated. -/
theorem run_standing (hpolicy : r.policy = .propagate) (h : b.run (n + 1) r s = some (o, t)) :
    (∃ e, b.strategyFor r.type = .error e ∧ o = wrapped r e ∧ t = s.report r e) ∨
      ∃ strategy, b.strategyFor r.type = .ok strategy ∧
        (r.path.render ∈ s.inFlight ∧ o = wrapped r (.recursive r.path.render) ∧
            t = (refusal strategy r s).report r (.recursive r.path.render) ∨
          r.path.render ∉ s.inFlight ∧ ∃ o' u,
            (b.delegate strategy r).exec (b.run n) (entry strategy r s) = some (o', u) ∧
              o = o'.wrapAt r.path r.type ∧ t = (u.settle r o').leave r.path.render) := by
  cases hst : b.strategyFor r.type with
  | error e =>
    rw [run_of_error_eq hpolicy hst] at h
    obtain ⟨rfl, rfl⟩ := Prod.mk.inj (Option.some.inj h)
    exact .inl ⟨e, rfl, rfl, rfl⟩
  | ok strategy =>
    refine .inr ⟨strategy, rfl, ?_⟩
    by_cases hm : r.path.render ∈ s.inFlight
    · rw [run_of_mem_eq hpolicy hst hm] at h
      obtain ⟨rfl, rfl⟩ := Prod.mk.inj (Option.some.inj h)
      exact .inl ⟨hm, rfl, rfl⟩
    · rw [run_of_not_mem_eq hpolicy hst hm] at h
      obtain ⟨⟨o', u⟩, hdelegate, heq⟩ := Option.map_eq_some_iff.1 h
      obtain ⟨rfl, rfl⟩ := Prod.mk.inj heq
      exact .inr ⟨hm, o', u, hdelegate, rfl, rfl⟩

theorem run_succeeding (hpolicy : r.policy = .propagate) (ho : o.isFailed = false)
    (h : b.run (n + 1) r s = some (o, t)) : ∃ strategy u,
      b.strategyFor r.type = .ok strategy ∧ r.path.render ∉ s.inFlight ∧
        (b.delegate strategy r).exec (b.run n) (entry strategy r s) = some (o, u) ∧
          t = u.leave r.path.render := by
  rcases run_standing hpolicy h with ⟨e, -, rfl, -⟩ | ⟨strategy, hst, h⟩
  · cases ho
  rcases h with ⟨-, rfl, -⟩ | ⟨hm, o', u, hdelegate, rfl, rfl⟩
  · cases ho
  rw [Outcome.isFailed_wrapAt] at ho
  rw [Outcome.wrapAt_of_not_isFailed ho, Session.settle_of_not_isFailed ho]
  exact ⟨strategy, u, hst, hm, hdelegate, rfl⟩

theorem delegate_exec_of_redirection {path : Path} (hpath : redirection? r = some path)
    (strategy : Strategy) (f : Request → Bind (Outcome Value)) (s : Session) :
    (b.delegate strategy r).exec f s =
      f { r with path } (s.note (.redirected r.path.render path.render)) := by
  have hdelegate : b.delegate strategy r = .event (.redirected r.path.render path.render)
      (.call { r with path } .done) := by
    rw [delegate, hpath]
    rfl
  rw [hdelegate, Script.exec_event, Script.exec_call]
  exact Option.bind_fun_some _

theorem run_of_redirection_eq (hpolicy : r.policy = .propagate) {strategy : Strategy}
    (hst : b.strategyFor r.type = .ok strategy) (hm : r.path.render ∉ s.inFlight) {path : Path}
    (hpath : redirection? r = some path) (n : Nat) : b.run (n + 1) r s =
      (b.run n { r with path } ((entry strategy r s).note
          (.redirected r.path.render path.render))).map
        fun x => (x.1.wrapAt r.path r.type, (x.2.settle r x.1).leave r.path.render) := by
  rw [run_of_not_mem_eq hpolicy hst hm, delegate_exec_of_redirection hpath]

end Binder

end ConfigBind
