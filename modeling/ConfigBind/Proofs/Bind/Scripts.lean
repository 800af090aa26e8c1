import ConfigBind.Bind.Binder
import Mathlib.Data.List.Basic

/-!
# Running scripts

`Script.Only Q P` says of a script that, whatever the outcomes of its parts are, it notes events of
`Q` only and asks for requests of `P` only.  What holds of these carries over to every run of the
script:

* `exec_rel`: a reflexive and transitive relation that the notes and the binds keep is kept.
* `exec_isSome`: if the binds have a result, so has the script.
* `exec_congr`, `exec_mono`: scripts do not tell two ways to bind apart that agree on `P`.

One level of `Binder.run` is given by `run_of_error`, `run_of_mem` and `run_of_not_mem`: the type
has no strategy, the path is in flight, or it is entered.  `Binder.run_cases` takes a run apart so.
-/

namespace ConfigBind

namespace Script

variable {α β : Type} {Q : Event → Prop} {P : Request → Prop}
  {f g : Request → Bind (Outcome Value)} {s s' : Session}

/-- The script notes events of `Q` only and asks for requests of `P` only. -/
def Only (Q : Event → Prop) (P : Request → Prop) : Script α → Prop
  | done _ => True
  | event e next => Q e ∧ next.Only Q P
  | call r next => P r ∧ ∀ outcome, (next outcome).Only Q P

theorem Only.bind {c : Script α} {k : α → Script β} (hc : c.Only Q P)
    (hk : ∀ a, (k a).Only Q P) : (c >>= k).Only Q P := by
  induction c with
  | done a => exact hk a
  | event e next ih => exact ⟨hc.1, ih hc.2⟩
  | call r next ih => exact ⟨hc.1, fun outcome => ih outcome (hc.2 outcome)⟩

theorem Only.mono {Q' : Event → Prop} {P' : Request → Prop} {c : Script α} (hc : c.Only Q P)
    (hQ : ∀ e, Q e → Q' e) (hP : ∀ r, P r → P' r) : c.Only Q' P' := by
  induction c with
  | done a => trivial
  | event e next ih => exact ⟨hQ e hc.1, ih hc.2⟩
  | call r next ih => exact ⟨hP r hc.1, fun outcome => ih outcome (hc.2 outcome)⟩

/-! ## Steps of a run -/

@[simp] theorem exec_event (e : Event) (next : Script α) (s : Session) :
    (event e next).exec f s = next.exec f (s.note e) := rfl

theorem exec_call (r : Request) (next : Outcome Value → Script α) (s : Session) :
    (call r next).exec f s =
      (f r s).bind fun x => (next x.1).exec f x.2 := rfl

theorem exec_call_eq_some {r : Request} {next : Outcome Value → Script α} {a : α}
    (h : (call r next).exec f s = some (a, s')) :
    ∃ outcome t, f r s = some (outcome, t) ∧ (next outcome).exec f t = some (a, s') := by
  rw [exec_call, Option.bind_eq_some_iff] at h
  obtain ⟨⟨outcome, t⟩, hr, hnext⟩ := h
  exact ⟨outcome, t, hr, hnext⟩

theorem exec_bind (c : Script α) (k : α → Script β) (s : Session) :
    (c >>= k).exec f s = (c.exec f s).bind fun x => (k x.1).exec f x.2 := by
  induction c generalizing s with
  | done a => rfl
  | event e next ih => exact ih (s.note e)
  | call r next ih =>
    rw [call_bind, exec_call, exec_call, Option.bind_assoc]
    congr 1
    funext x
    exact ih x.1 x.2

/-- **What notes and binds keep is kept.** -/
theorem exec_rel {R : Session → Session → Prop} (hrefl : ∀ s, R s s)
    (htrans : ∀ s t u, R s t → R t u → R s u) (hnote : ∀ s e, Q e → R s (s.note e))
    (hf : ∀ r s o t, P r → f r s = some (o, t) → R s t) {c : Script α} (hc : c.Only Q P)
    {a : α} (h : c.exec f s = some (a, s')) : R s s' := by
  induction c generalizing s with
  | done b =>
    obtain ⟨-, rfl⟩ := Prod.mk.inj (Option.some.inj h)
    exact hrefl s
  | event e next ih => exact htrans _ _ _ (hnote s e hc.1) (ih hc.2 h)
  | call r next ih =>
    obtain ⟨outcome, t, hr, hnext⟩ := exec_call_eq_some h
    exact htrans _ _ _ (hf r s outcome t hc.1 hr) (ih outcome (hc.2 outcome) hnext)

theorem exec_isSome {I : Session → Prop} (hnote : ∀ s e, I s → I (s.note e))
    (hf : ∀ r s, P r → I s → ∃ o t, f r s = some (o, t) ∧ I t) {c : Script α}
    (hc : c.Only Q P) (hs : I s) : ∃ a t, c.exec f s = some (a, t) ∧ I t := by
  induction c generalizing s with
  | done a => exact ⟨a, s, rfl, hs⟩
  | event e next ih => exact ih hc.2 (hnote s e hs)
  | call r next ih =>
    obtain ⟨outcome, t, hr, ht⟩ := hf r s hc.1 hs
    obtain ⟨a, u, hnext, hu⟩ := ih outcome (hc.2 outcome) ht
    exact ⟨a, u, by rw [exec_call, hr]; exact hnext, hu⟩

theorem exec_congr (hf : ∀ r s, P r → f r s = g r s) {c : Script α} (hc : c.Only Q P)
    (s : Session) : c.exec f s = c.exec g s := by
  induction c generalizing s with
  | done a => rfl
  | event e next ih => exact ih hc.2 (s.note e)
  | call r next ih =>
    rw [exec_call, exec_call, hf r s hc.1]
    congr 1
    funext x
    exact ih x.1 (hc.2 x.1) x.2

theorem exec_mono (hf : ∀ r s x, f r s = some x → g r s = some x) {c : Script α}
    {x : α × Session} (h : c.exec f s = some x) : c.exec g s = some x := by
  induction c generalizing s with
  | done a => exact h
  | event e next ih => exact ih h
  | call r next ih =>
    obtain ⟨outcome, t, hr, hnext⟩ := exec_call_eq_some h
    rw [exec_call, hf r s _ hr]
    exact ih outcome hnext

end Script

/-! ## Attempts -/

namespace Attempt

variable {α β : Type} {Q : Event → Prop} {P : Request → Prop}

def Only (Q : Event → Prop) (P : Request → Prop) (a : Attempt α) : Prop := Script.Only Q P a.run

theorem only_pure (a : α) : Only Q P (pure a : Attempt α) := trivial

theorem only_throw (e : BindError) : Only Q P (throw e : Attempt α) := trivial

theorem only_throw_bind (e : BindError) {f : α → Attempt β} :
    Only Q P ((throw e : Attempt α) >>= f) := trivial

theorem Only.bind {a : Attempt α} {f : α → Attempt β} (ha : Only Q P a)
    (hf : ∀ x, Only Q P (f x)) : Only Q P (a >>= f) := by
  refine Script.Only.bind ha fun x => ?_
  cases x with
  | error e => trivial
  | ok x => exact hf x

theorem only_note {e : Event} (he : Q e) : Only Q P (liftM (Script.note e) : Attempt Unit) :=
  ⟨he, trivial⟩

theorem Only.outcome {a : Attempt (Option Value)} (ha : Only Q P a) :
    a.outcome.Only Q P :=
  Script.Only.bind ha fun _ => trivial

theorem only_ofBuild (x : Except BuildError α) : Only Q P (Attempt.ofBuild x) := by
  cases x <;> trivial

variable {ctx : Context} {r : Request}

theorem only_bind (hr : P r) : Only Q P (liftM (ctx.bind r) : Attempt (Outcome Value)) :=
  ⟨hr, fun _ => trivial⟩

theorem only_bindPart (hr : P r) : Only Q P (ctx.bindPart r) := by
  refine (only_bind hr).bind fun o => ?_
  cases o <;> trivial

theorem only_convert (n : Node) (t : TypeRef) : Only Q P (ctx.convert n t) := by
  unfold Context.convert
  split <;> trivial

theorem only_convertAt : Only Q P (ctx.convertAt r) := by
  unfold Context.convertAt
  split
  · exact (only_convert _ _).bind fun _ => only_pure _
  · exact only_pure _

theorem only_convertWhole (n : Node) (t : TypeRef) : Only Q P (ctx.convertWhole n t) := by
  unfold Context.convertWhole
  split
  · exact (only_convert _ _).bind fun _ => only_pure _
  · exact only_throw _

theorem only_descriptor_bind {t : TypeRef} {f : Descriptor → Attempt α}
    (hf : ∀ d, ctx.describe? t = some d → Only Q P (f d)) :
    Only Q P (ctx.descriptor t >>= f) := by
  unfold Context.descriptor
  cases hd : ctx.describe? t with
  | none => exact only_throw _
  | some d => exact hf d hd

theorem descriptor_eq {t : TypeRef} {d : Descriptor} (hd : ctx.describe? t = some d) :
    ctx.descriptor t = pure d := by
  rw [Context.descriptor, hd]

theorem only_isLeaf (t : TypeRef) : Only Q P (ctx.isLeaf t) :=
  only_descriptor_bind fun _ _ => only_pure _

theorem only_skips (t : TypeRef) : Only Q P (ctx.skips t) := by
  unfold Context.skips
  split
  · exact (only_isLeaf t).bind fun _ => only_pure _
  · exact only_pure _

/-! ## Runs of attempts -/

variable {f : Request → Bind (Outcome Value)} {s t : Session}

def exec (f : Request → Bind (Outcome Value)) (a : Attempt α) :
    Session → Option (Except BindError α × Session) :=
  Script.exec f (ExceptT.run a)

theorem exec_pure (a : α) : exec f (pure a) s = some (.ok a, s) := rfl

theorem exec_throw (e : BindError) : exec f (throw e : Attempt α) s = some (.error e, s) := rfl

theorem exec_note (e : Event) :
    exec f (liftM (Script.note e) : Attempt Unit) s = some (.ok (), s.note e) := rfl

theorem exec_bind (a : Attempt α) (k : α → Attempt β) : exec f (a >>= k) s =
    (exec f a s).bind fun
      | (.ok x, t) => exec f (k x) t
      | (.error e, t) => some (.error e, t) := by
  refine (Script.exec_bind (ExceptT.run a) _ s).trans ?_
  congr 1
  funext (x, t)
  cases x <;> rfl

theorem exec_bind_of_ok {a : Attempt α} {x : α} (h : exec f a s = some (.ok x, t))
    (k : α → Attempt β) : exec f (a >>= k) s = exec f (k x) t := by
  rw [exec_bind, h]
  rfl

theorem exec_bind_of_error {a : Attempt α} {e : BindError} (h : exec f a s = some (.error e, t))
    (k : α → Attempt β) : exec f (a >>= k) s = some (.error e, t) := by
  rw [exec_bind, h]
  rfl

theorem exec_bind_pure (a : Attempt α) (g : α → β) :
    exec f (a >>= fun x => pure (g x)) s = (exec f a s).map fun y => (y.1.map g, y.2) := by
  rw [exec_bind, Option.map_eq_bind]
  congr 1
  funext (x, t)
  cases x <;> rfl

theorem exec_call (ctx : Context) : exec f (liftM (ctx.bind r) : Attempt (Outcome Value)) s =
    (f r s).map fun x => (.ok x.1, x.2) := by
  rw [Option.map_eq_bind]
  rfl

theorem exec_bindPart (ctx : Context) : exec f (ctx.bindPart r) s =
    (f r s).map fun x => (x.1.toExcept, x.2) := by
  unfold Context.bindPart
  rw [exec_bind, exec_call, Option.bind_map, Option.map_eq_bind]
  congr 1
  funext (o, t)
  cases o <;> rfl

theorem exec_outcome (a : Attempt (Option Value)) : a.outcome.exec f s =
    (exec f a s).map fun x => (Outcome.ofExcept x.1, x.2) := by
  rw [Option.map_eq_bind]
  exact Script.exec_bind (ExceptT.run a) _ s

end Attempt

/-! ## Levels of a run -/

namespace Bind

variable {α : Type} {path : String} {s : Session}

theorem note_bind (e : Event) (k : Unit → Bind α) : (note e >>= k) s = k () (s.note e) := rfl

theorem enter_eq (path : String) (s : Session) : enter path s =
    if s.inFlight.contains path then some (false, s.note (.refused path))
    else some (true, s.enter path) := by
  show (ite _ _ _ : Bind Bool) s = _
  by_cases h : s.inFlight.contains path = true
  · rw [if_pos h, if_pos h]
    rfl
  · rw [if_neg h, if_neg h]
    rfl

theorem enter_bind_of_mem (h : path ∈ s.inFlight) (k : Bool → Bind α) :
    (enter path >>= k) s = k false (s.note (.refused path)) := by
  show (enter path s).bind _ = _
  rw [enter_eq, if_pos (List.contains_iff_mem.2 h)]
  rfl

theorem enter_bind_of_not_mem (h : path ∉ s.inFlight) (k : Bool → Bind α) :
    (enter path >>= k) s = k true (s.enter path) := by
  show (enter path s).bind _ = _
  rw [enter_eq, if_neg (mt List.contains_iff_mem.1 h)]
  rfl

end Bind

namespace Binder

variable {b : Binder} {n : Nat} {r : Request} {s s' : Session} {o : Outcome Value}

theorem settle_eq (bind : Request → Bind (Outcome Value)) (o : Outcome Value) (s : Session) :
    b.settle bind r o s =
      match o with
      | .failed e => (b.recovery r e s).exec bind s
      | o => some (o, s) := by
  cases o <;> rfl

theorem recovery_of_propagate (hpolicy : r.policy = .propagate) (e : BindError)
    (f : Request → Bind (Outcome Value)) (s t : Session) :
    ∃ u, (b.recovery r e s).exec f t = some (wrapped r e, u) ∧ u.inFlight = t.inFlight := by
  rw [recovery, hpolicy]
  exact ⟨_, rfl, rfl⟩

theorem run_of_error {e : BindError} (h : b.strategyFor r.type = .error e) (n : Nat)
    (s : Session) : b.run (n + 1) r s = (b.recovery r e s).exec (b.run n) s := by
  rw [run, h]
  rfl

/-- The state of a request that was refused. -/
def refusal (strategy : Strategy) (r : Request) (s : Session) : Session :=
  (s.note (.selected strategy.name r.type)).note (.refused r.path.render)

/-- The state in which an entered request is bound. -/
def entry (strategy : Strategy) (r : Request) (s : Session) : Session :=
  (s.note (.selected strategy.name r.type)).enter r.path.render

theorem run_of_mem {strategy : Strategy} (h : b.strategyFor r.type = .ok strategy)
    (hm : r.path.render ∈ s.inFlight) (n : Nat) : b.run (n + 1) r s =
      (b.recovery r (.recursive r.path.render) (refusal strategy r s)).exec (b.run n)
        (refusal strategy r s) := by
  have hm : r.path.render ∈ (s.note (.selected strategy.name r.type)).inFlight := hm
  rw [run, h]
  dsimp only
  rw [Bind.note_bind, Bind.enter_bind_of_mem hm]
  rfl

theorem run_of_not_mem {strategy : Strategy} (h : b.strategyFor r.type = .ok strategy)
    (hm : r.path.render ∉ s.inFlight) (n : Nat) : b.run (n + 1) r s =
      ((b.delegate strategy r).exec (b.run n) (entry strategy r s)).bind fun x =>
        (b.settle (b.run n) r x.1 x.2).map fun y => (y.1, y.2.leave r.path.render) := by
  have hm : r.path.render ∉ (s.note (.selected strategy.name r.type)).inFlight := hm
  rw [run, h]
  dsimp only
  rw [Bind.note_bind, Bind.enter_bind_of_not_mem hm]
  show Option.bind _ _ = Option.bind _ _
  congr 1
  funext x
  exact (Option.map_eq_bind ..).symm

theorem run_of_settle {strategy : Strategy} (h : b.strategyFor r.type = .ok strategy)
    (hm : r.path.render ∉ s.inFlight) {o' : Outcome Value} {t t' : Session}
    (hdelegate : (b.delegate strategy r).exec (b.run n) (entry strategy r s) = some (o', t))
    (hsettle : b.settle (b.run n) r o' t = some (o, t')) :
    b.run (n + 1) r s = some (o, t'.leave r.path.render) := by
  rw [run_of_not_mem h hm, hdelegate, Option.bind_some]
  exact Option.map_eq_some_iff.2 ⟨(o, t'), hsettle, rfl⟩

/-- What a run with a result has done. -/
theorem run_cases (h : b.run (n + 1) r s = some (o, s')) :
    (∃ e, b.strategyFor r.type = .error e ∧ (b.recovery r e s).exec (b.run n) s = some (o, s')) ∨
      ∃ strategy, b.strategyFor r.type = .ok strategy ∧
        (r.path.render ∈ s.inFlight ∧
            (b.recovery r (.recursive r.path.render) (refusal strategy r s)).exec (b.run n)
              (refusal strategy r s) = some (o, s') ∨
          r.path.render ∉ s.inFlight ∧ ∃ o' t t',
            (b.delegate strategy r).exec (b.run n) (entry strategy r s) = some (o', t) ∧
              b.settle (b.run n) r o' t = some (o, t') ∧ s' = t'.leave r.path.render) := by
  cases hst : b.strategyFor r.type with
  | error e => exact .inl ⟨e, rfl, by rwa [run_of_error hst] at h⟩
  | ok strategy =>
    refine .inr ⟨strategy, rfl, ?_⟩
    by_cases hm : r.path.render ∈ s.inFlight
    · exact .inl ⟨hm, by rwa [run_of_mem hst hm] at h⟩
    · rw [run_of_not_mem hst hm, Option.bind_eq_some_iff] at h
      obtain ⟨⟨o', t⟩, hdelegate, hleave⟩ := h
      obtain ⟨⟨o'', t'⟩, hsettle, heq⟩ := Option.map_eq_some_iff.1 hleave
      obtain ⟨rfl, rfl⟩ := Prod.mk.inj heq
      exact .inr ⟨hm, o', t, t', hdelegate, hsettle, rfl⟩

theorem settle_mono {f g : Request → Bind (Outcome Value)}
    (hf : ∀ r s x, f r s = some x → g r s = some x) {x : Outcome Value × Session}
    (h : b.settle f r o s = some x) : b.settle g r o s = some x := by
  rw [settle_eq] at h ⊢
  split at h
  · exact Script.exec_mono hf h
  · exact h

theorem run_succ_of_run (h : b.run n r s = some (o, s')) : b.run (n + 1) r s = some (o, s') := by
  induction n generalizing r s o s' with
  | zero => cases h
  | succ n ih =>
    have hmono : ∀ r s x, b.run n r s = some x → b.run (n + 1) r s = some x := fun _ _ _ h => ih h
    rcases run_cases h with ⟨e, hst, h⟩ | ⟨strategy, hst, ⟨hm, h⟩ | ⟨hm, o', t, t', hd, hs, rfl⟩⟩
    · rw [run_of_error hst]
      exact Script.exec_mono hmono h
    · rw [run_of_mem hst hm]
      exact Script.exec_mono hmono h
    · exact run_of_settle hst hm (Script.exec_mono hmono hd) (settle_mono hmono hs)

/-- **A run that is allowed more comes to the same.** -/
theorem run_mono {m : Nat} (h : b.run n r s = some (o, s')) (hle : n ≤ m) :
    b.run m r s = some (o, s') := by
  induction hle with
  | refl => exact h
  | step _ ih => exact run_succ_of_run ih

end Binder

end ConfigBind
