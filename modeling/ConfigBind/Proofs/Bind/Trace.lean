import ConfigBind.Proofs.Bind.Parts

/-!
# Traces of runs

`Bracketed b held es` says that the events `es` happened with the paths `held` in flight at their
start and at their end: what is entered was not in flight, and is left again after a bracketed trace
of its own; what is refused is in flight; and a policy is asked about a path that is in flight, or
else about a type that no strategy binds.

* `Binder.run_traced`: every run of a standard binder is bracketed, and has the same paths in flight
  at its end as at its start.
-/

namespace ConfigBind

/-- Events that leave `held` in flight, entering and leaving paths in pairs. -/
inductive Bracketed (b : Binder) : (held : List String) → List Event → Prop
  | nil {held : List String} : Bracketed b held []
  | plain {held : List String} {e : Event} {es : List Event} (he : e.Plain)
      (h : Bracketed b held es) : Bracketed b held (e :: es)
  | refused {held : List String} {path : String} {es : List Event} (hm : path ∈ held)
      (h : Bracketed b held es) : Bracketed b held (.refused path :: es)
  | asked {held : List String} {policy path : String} {t : TypeRef} {e : BindError}
      {es : List Event} (hm : path ∈ held ∨ ∃ error, b.strategyFor t = .error error)
      (h : Bracketed b held es) : Bracketed b held (.asked policy path t e held.length :: es)
  | nested {held : List String} {path : String} {inner es : List Event} (hm : path ∉ held)
      (hinner : Bracketed b (path :: held) inner) (h : Bracketed b held es) :
      Bracketed b held (.entered path :: (inner ++ .left path :: es))

namespace Bracketed

variable {b : Binder} {held : List String}

theorem append {es fs : List Event} (h : Bracketed b held es) (hf : Bracketed b held fs) :
    Bracketed b held (es ++ fs) := by
  induction h with
  | nil => exact hf
  | plain he _ ih => exact .plain he (ih hf)
  | refused hm _ ih => exact .refused hm (ih hf)
  | asked hm _ ih => exact .asked hm (ih hf)
  | nested hm hinner _ _ ih =>
    rw [List.cons_append, List.append_assoc, List.cons_append]
    exact .nested hm hinner (ih hf)

/-- An event that leaves the paths in flight alone, though it may tell of them. -/
def Still (b : Binder) (held : List String) (e : Event) : Prop := Bracketed b held [e]

end Bracketed

/-- From `s` to `t` the session went through a bracketed trace. -/
structure Traced (b : Binder) (held : List String) (s t : Session) : Prop where
  inFlight : t.inFlight = held
  events : ∃ es, Bracketed b held es ∧ t.events = es.reverse ++ s.events

namespace Traced

variable {b : Binder} {held : List String} {s t u : Session} {e : Event} {path : String}

theorem refl (h : s.inFlight = held) : Traced b held s s := ⟨h, [], .nil, rfl⟩

theorem trans (h : Traced b held s t) (h' : Traced b held t u) : Traced b held s u := by
  obtain ⟨-, es, hes, hs⟩ := h
  obtain ⟨hu, fs, hfs, ht⟩ := h'
  exact ⟨hu, es ++ fs, hes.append hfs, by rw [ht, hs, List.reverse_append, List.append_assoc]⟩

theorem note (h : s.inFlight = held) (he : Bracketed.Still b held e) :
    Traced b held s (s.note e) :=
  ⟨h, [e], he, rfl⟩

theorem enter (hm : path ∉ held)
    (ht : Traced b (path :: held) (s.enter path) t) : Traced b held s (t.leave path) := by
  obtain ⟨hflight, es, hes, hevents⟩ := ht
  refine ⟨?_, .entered path :: (es ++ [.left path]), .nested hm hes .nil, ?_⟩
  · simp [Session.leave, hflight]
  · simp [Session.leave, Session.note, Session.enter, hevents]

end Traced

/-! ## Runs -/

namespace Binder

variable {b : Binder} {r : Request} {held : List String} {s t : Session}

theorem only_recovery {e : BindError} (hs : s.inFlight = held)
    (hm : r.path.render ∈ held ∨ ∃ error, b.strategyFor r.type = .error error) :
    (b.recovery r e s).Only (Bracketed.Still b held) fun _ => True := by
  have hdrop : (drop r).Only (Bracketed.Still b held) fun _ => True :=
    ⟨.plain trivial .nil, trivial⟩
  refine ⟨.plain trivial .nil, ?_, ?_⟩
  · rw [hs]
    exact .asked hm .nil
  · show Script.Only _ _ (b.verdict r _)
    cases r.policy.onFailure s.asked r.path r.type e with
    | fallback value => trivial
    | ignore => exact hdrop
    | fail e => trivial
    | rebind other t =>
      refine ⟨trivial, fun o => ?_⟩
      cases o with
      | present value => trivial
      | empty => exact hdrop
      | failed e => trivial

theorem exec_traced {α : Type} {f : Request → Bind (Outcome Value)} {P : Request → Prop}
    (hf : ∀ r s o t, f r s = some (o, t) → Traced b s.inFlight s t) {c : Script α}
    (hc : c.Only (Bracketed.Still b held) P) {a : α} (hs : s.inFlight = held)
    (h : c.exec f s = some (a, t)) : Traced b held s t := by
  refine Script.exec_rel (R := fun s t => s.inFlight = held → Traced b held s t)
    (fun s hs => .refl hs) (fun s t u hst htu hs => (hst hs).trans (htu (hst hs).inFlight))
    (fun s e he hs => .note hs he) (fun r s o t _ hr hs => hs ▸ hf r s o t hr) hc h hs

/-- **Every run of a standard binder is bracketed, and restores the paths in flight.** -/
theorem run_traced (hb : b.Standard) {n : Nat} {o : Outcome Value}
    (h : b.run n r s = some (o, t)) : Traced b s.inFlight s t := by
  induction n generalizing r s o t with
  | zero => cases h
  | succ n ih =>
    have hsub : ∀ r s o t, b.run n r s = some (o, t) → Traced b s.inFlight s t :=
      fun _ _ _ _ h => ih h
    rcases run_cases h with ⟨e, hst, h⟩ | ⟨strategy, hst, h⟩
    · exact exec_traced hsub (only_recovery rfl (.inr ⟨e, hst⟩)) rfl h
    have hselected : Traced b s.inFlight s (s.note (.selected strategy.name r.type)) :=
      .note rfl (.plain trivial .nil)
    rcases h with ⟨hm, h⟩ | ⟨hm, o', t', t'', hdelegate, hsettle, rfl⟩
    · have hrefused : Traced b s.inFlight s (refusal strategy r s) :=
        hselected.trans (.note rfl (.refused hm .nil))
      exact hrefused.trans (exec_traced hsub (only_recovery rfl (.inl hm)) rfl h)
    · -- the policy is asked before the path is left
      have hdelegated : Traced b (r.path.render :: s.inFlight) (entry strategy r s) t' :=
        exec_traced hsub ((only_delegate hb hst).mono (fun e he => .plain he .nil)
          fun _ _ => trivial) rfl hdelegate
      have hsettled : Traced b (r.path.render :: s.inFlight) t' t'' := by
        rw [settle_eq] at hsettle
        split at hsettle
        · exact exec_traced hsub (only_recovery hdelegated.inFlight (.inl List.mem_cons_self))
            hdelegated.inFlight hsettle
        · obtain ⟨-, rfl⟩ := Prod.mk.inj (Option.some.inj hsettle)
          exact .refl hdelegated.inFlight
      exact hselected.trans (.enter hm (hdelegated.trans hsettled))

end Binder

end ConfigBind
