import ConfigBind.Proofs.Bind.Recursion

/-!
# Following references

A text that is one reference leads to another path, which may hold such a text again: `Node.Leads`
is such a chain of paths.  What is bound at its start is what is bound at its end, unless the bind
comes back to a path of its own.

The two binds start with different paths in flight, and that makes no difference: with fewer paths
in flight a run comes to the same, unless it is a recursive failure (`Binder.run_of_subset`).

* `Binder.endsWith_of_leads`: a chain of references is bound to what its end is bound to.
-/

namespace ConfigBind

/-- The path that the data at a path refers to as a whole. -/
def Node.redirection? (root : Node) (p : Path) : Option Path :=
  match root.get? p with
  | some (.text value) => (Text.wholeReference? value.toList).map (Path.parseWith p.separator)
  | _ => none

/-- From a path, references lead along the paths of `via` to another one, which may hold a reference
itself. -/
inductive Node.Leads (root : Node) : Path → (via : List Path) → Path → Prop
  | refl (p : Path) : Leads root p [] p
  | step {p next q : Path} {via : List Path} (h : root.redirection? p = some next)
      (hrest : Leads root next via q) : Leads root p (p :: via) q

theorem Node.Leads.unique {root : Node} {p q q' : Path} {via via' : List Path}
    (h : root.Leads p via q) (h' : root.Leads p via' q') (hq : root.redirection? q = none)
    (hq' : root.redirection? q' = none) : q = q' := by
  induction h generalizing via' with
  | refl p =>
    cases h' with
    | refl => rfl
    | step hnext _ => cases hq.symm.trans hnext
  | step hnext _ ih =>
    cases h' with
    | refl => cases hq'.symm.trans hnext
    | step hnext' hrest' =>
      obtain rfl := Option.some.inj (hnext.symm.trans hnext')
      exact ih hrest' hq

namespace Outcome

variable {α : Type}

/-- The outcome, as it is handed on along some paths. -/
def wrapAlong (o : Outcome α) (via : List Path) (t : TypeRef) : Outcome α :=
  via.foldr (fun path o => o.wrapAt path t) o

theorem wrapAt_agrees (o : Outcome α) (path : Path) (t : TypeRef) :
    (∀ v, o.wrapAt path t = .present v ↔ o = .present v) ∧
      (o.wrapAt path t = .empty ↔ o = .empty) ∧
        ∀ e, o = .failed e ↔ o.wrapAt path t = .failed (.failed path.render t.name e) := by
  cases o <;> simp [wrapAt]

end Outcome

namespace Binder

variable {b : Binder} {n : Nat} {r : Request} {s t : Session} {o : Outcome Value}

/-- **With fewer paths in flight a run comes to the same**, if outcomes like this one come of parts
with outcomes like it only, and are never refusals, unless the same paths are in flight. -/
theorem run_of_subset_of {K : Outcome Value → Prop}
    (hwrap : ∀ {o : Outcome Value} {path : Path} {t : TypeRef}, K (o.wrapAt path t) → K o)
    (hparts : ∀ {strategy : Strategy} {r : Request}, b.strategyFor r.type = .ok strategy →
      (b.delegate strategy r).Collects
        (fun errors o => K o → ∀ o' : Outcome Value, o'.errors ⊆ errors → K o') [])
    (hb : b.Standard) (hpolicy : r.policy = .propagate) (h : b.run n r s = some (o, t)) (ho : K o)
    {s' : Session} (hsub : s'.inFlight ⊆ s.inFlight)
    (hrefused : ∀ (r : Request) (path : String), K (wrapped r (.recursive path)) →
      s.inFlight ⊆ s'.inFlight) : ∃ t', b.run n r s' = some (o, t') := by
  induction n generalizing r s o t s' with
  | zero => cases h
  | succ n ih =>
    rcases run_standing hpolicy h with ⟨e, hst, rfl, rfl⟩ | ⟨strategy, hst, h⟩
    · exact ⟨_, run_of_error_eq hpolicy hst n s'⟩
    rcases h with ⟨hm, rfl, -⟩ | ⟨hm, o', u, hdelegate, rfl, rfl⟩
    · exact ⟨_, run_of_mem_eq hpolicy hst (hrefused r _ ho hm) n⟩
    have hm' : r.path.render ∉ s'.inFlight := fun hmem => hm (hsub hmem)
    -- the sessions of the two runs differ by the paths in flight, which the parts restore
    have hnote : ∀ (u u' : Session) (e : Event), e.Plain →
        u.inFlight = r.path.render :: s.inFlight ∧ u'.inFlight = r.path.render :: s'.inFlight →
        (u.note e).inFlight = r.path.render :: s.inFlight ∧
          (u'.note e).inFlight = r.path.render :: s'.inFlight :=
      fun _ _ _ _ hu => hu
    obtain ⟨found, hlike, htransfer⟩ := (hparts hst).exec hnote (only_delegate hb hst) hdelegate
    rw [List.nil_append] at hlike
    obtain ⟨u', hdelegate', -⟩ := htransfer (b.run n) (entry strategy r s') ⟨rfl, rfl⟩ (by
      intro r' v v' o v₁ hpart hmem ⟨hv, hv'⟩ hrun
      have hbelow : v'.inFlight ⊆ v.inFlight := by
        rw [hv, hv']
        exact List.cons_subset_cons _ hsub
      have habove : ∀ (r : Request) (path : String), K (wrapped r (.recursive path)) →
          v.inFlight ⊆ v'.inFlight := by
        intro r path hK
        rw [hv, hv']
        exact List.cons_subset_cons _ (hrefused r path hK)
      obtain ⟨v₁', hrun'⟩ := ih (hpart.policy_eq.trans hpolicy) hrun
        (hlike (hwrap ho) o hmem) hbelow habove
      exact ⟨v₁', hrun', (run_traced hb hrun).inFlight.trans hv,
        (run_traced hb hrun').inFlight.trans hv'⟩)
    rw [run_of_not_mem_eq hpolicy hst hm', hdelegate']
    exact ⟨_, rfl⟩

/-- **With fewer paths in flight a run comes to the same, unless it is a recursive failure.** -/
theorem run_of_subset (hb : b.Standard) (hclosed : b.registry.Closed)
    (hpolicy : r.policy = .propagate) (h : b.run n r s = some (o, t))
    (ho : o.isRecursive = false) {s' : Session} (hsub : s'.inFlight ⊆ s.inFlight) :
    ∃ t', b.run n r s' = some (o, t') := by
  refine run_of_subset_of (K := (·.isRecursive = false)) ?_ ?_ hb hpolicy h ho hsub ?_
  · intro o path t ho
    rwa [Outcome.isRecursive_wrapAt] at ho
  · intro strategy r hst
    refine (collects_delegate hb hclosed hst).mono fun errors o hreports ho o' hmem => ?_
    exact BindError.anyRecursive_eq_false_of_subset hmem (hreports.isRecursive_eq ▸ ho)
  · intro r path ho
    rw [isRecursive_wrapped] at ho
    cases ho

theorem run_of_redirection (hb : b.Standard) (hclosed : b.registry.Closed)
    (hpolicy : r.policy = .propagate) (htype : (b.registry.get? r.type).isSome = true)
    {path : Path} (hpath : redirection? r = some path) (h : b.run n r s = some (o, t))
    (ho : o.isRecursive = false) :
    ∃ o' t', b.run n { r with path } s = some (o', t') ∧ o = o'.wrapAt r.path r.type := by
  obtain ⟨d, hd⟩ := Option.isSome_iff_exists.1 htype
  have hst : b.strategyFor r.type = .ok (Strategy.ofKind d.kind) := hb.strategyFor_eq hd
  cases n with
  | zero => cases h
  | succ n =>
    by_cases hm : r.path.render ∈ s.inFlight
    · rw [run_of_mem_eq hpolicy hst hm] at h
      obtain ⟨rfl, -⟩ := Prod.mk.inj (Option.some.inj h)
      rw [isRecursive_wrapped] at ho
      cases ho
    · rw [run_of_redirection_eq hpolicy hst hm hpath] at h
      obtain ⟨⟨o', u⟩, hrun, heq⟩ := Option.map_eq_some_iff.1 h
      obtain ⟨rfl, -⟩ := Prod.mk.inj heq
      rw [Outcome.isRecursive_wrapAt] at ho
      have hsub : s.inFlight ⊆ ((entry (Strategy.ofKind d.kind) r s).note
          (.redirected r.path.render path.render)).inFlight :=
        List.subset_cons_self r.path.render s.inFlight
      obtain ⟨t', hrun'⟩ := run_of_subset (r := { r with path }) hb hclosed hpolicy hrun ho hsub
      exact ⟨o', t', run_mono hrun' (Nat.le_succ n), rfl⟩

theorem run_of_leads (hb : b.Standard) (hclosed : b.registry.Closed) {target : Target}
    (htype : (b.registry.get? target.type).isSome = true) {root : Node} {p q : Path}
    {via : List Path} (hleads : root.Leads p via q)
    (h : b.run n ⟨p, target, root, .propagate⟩ s = some (o, t)) (ho : o.isRecursive = false) :
    ∃ o' t', b.run n ⟨q, target, root, .propagate⟩ s = some (o', t') ∧
      o = o'.wrapAlong via target.type := by
  induction hleads generalizing o t with
  | refl p => exact ⟨o, t, h, rfl⟩
  | @step p next q via hnext _ ih =>
    obtain ⟨o₁, t₁, hrun, rfl⟩ := run_of_redirection (r := ⟨p, target, root, .propagate⟩)
      hb hclosed rfl htype hnext h ho
    rw [Outcome.isRecursive_wrapAt] at ho
    obtain ⟨o', t', hrun', rfl⟩ := ih hrun ho
    exact ⟨o', t', hrun', rfl⟩

/-- **References are bound to what they refer to**, along chains of any length and whatever the
target, with a failure wrapped once more at each path, unless it is a recursive one. -/
theorem endsWith_of_leads (hb : b.Standard) (hclosed : b.registry.Closed) (root : Node) (p : Path)
    (target : Target) (htype : (b.registry.get? target.type).isSome = true) :
    (∀ run, b.EndsWith ⟨p, target, root, .propagate⟩ run →
      (∀ e, run.outcome = .failed e → e.isRecursive = false) →
      (∀ text reference, root.get? p = some (.text text) →
        Text.wholeReference? text.toList = some reference →
        ∃ run', b.EndsWith ⟨.parseWith p.separator reference, target, root, .propagate⟩ run' ∧
          (∀ v, run.outcome = .present v ↔ run'.outcome = .present v) ∧
          (run.outcome = .empty ↔ run'.outcome = .empty) ∧
          ∀ e, run'.outcome = .failed e ↔
            run.outcome = .failed (.failed p.render target.type.name e)) ∧
      ∀ via q, root.Leads p via q →
        ∃ run', b.EndsWith ⟨q, target, root, .propagate⟩ run' ∧
          run.outcome = run'.outcome.wrapAlong via target.type) ∧
    ∀ q : Path, b.registry.NamesVisible q.separator →
      (b.bind? ⟨q, target, root, .propagate⟩).isSome = true ∧
        ∀ run, b.bind? ⟨q, target, root, .propagate⟩ = some run ↔
          b.EndsWith ⟨q, target, root, .propagate⟩ run := by
  refine ⟨?_, fun q hnames => bind?_iff_endsWith (r := ⟨q, target, root, .propagate⟩) hb
    FailurePolicy.direct_propagate hnames⟩
  intro run hrun hrecursive
  have hchain : ∀ via q, root.Leads p via q →
      ∃ run', b.EndsWith ⟨q, target, root, .propagate⟩ run' ∧
        run.outcome = run'.outcome.wrapAlong via target.type := by
    intro via q hleads
    obtain ⟨n, o, t, hexec, rfl⟩ := hrun
    have ho : o.isRecursive = false := Outcome.isRecursive_eq_false_iff.2 hrecursive
    obtain ⟨o', t', hexec', heq⟩ := run_of_leads hb hclosed htype hleads hexec ho
    exact ⟨_, ⟨n, o', t', hexec', rfl⟩, heq⟩
  refine ⟨fun text reference hn href => ?_, hchain⟩
  have hnext : root.redirection? p = some (.parseWith p.separator reference) := by
    rw [Node.redirection?, hn]
    exact congrArg (Option.map _) href
  obtain ⟨run', hrun', heq⟩ := hchain [p] _ (.step hnext (.refl _))
  refine ⟨run', hrun', ?_⟩
  rw [heq]
  exact run'.outcome.wrapAt_agrees p target.type

end Binder

namespace Sample

def plainBinder (source : Node) : Binder := Binder.new ⟨[]⟩ ⟨"Tree", "Tree"⟩ source

theorem closed_plainBinder (source : Node) : (plainBinder source).registry.Closed :=
  (Registry.faithful_standard ⟨[]⟩).isClosed fun _ hd => by cases hd

theorem namesVisible_plainBinder (source : Node) : (plainBinder source).registry.NamesVisible '.' :=
  Registry.namesVisible_standard '.'

theorem strategyFor_text (source : Node) :
    (plainBinder source).strategyFor .text = .ok Strategy.scalar :=
  Binder.Standard.strategyFor_eq (b := plainBinder source) (d := ⟨.text, .scalar⟩) rfl rfl

def textAt (path : String) (source : Node) : Request :=
  ⟨.parse path, .ofType .text, source, .propagate⟩

def relay : Node :=
  .map [("a", .text "$\x7bb\x7d"), ("b", .text "$\x7bc\x7d"), ("c", .text "here")]

theorem leads_relay : relay.Leads (.parse "a") [.parse "a", .parse "b"] (.parse "c") := by
  have ha : relay.redirection? (.parse "a") = some (.parse "b") := by decide
  have hb : relay.redirection? (.parse "b") = some (.parse "c") := by decide
  exact .step ha (.step hb (.refl _))

theorem run_relay : ∃ t, (plainBinder relay).run 3 (textAt "a" relay) ⟨[], []⟩ =
    some (.present ⟨.text, .text "here"⟩, t) := by
  have hst : (plainBinder relay).strategyFor .text = .ok Strategy.scalar := strategyFor_text relay
  have ha : Binder.redirection? (textAt "a" relay) = some (.parse "b") := by decide
  have hb : Binder.redirection? (textAt "b" relay) = some (.parse "c") := by decide
  rw [Binder.run_of_redirection_eq rfl hst (by decide) ha]
  have hbelow : { textAt "a" relay with path := .parse "b" } = textAt "b" relay := rfl
  rw [hbelow, Binder.run_of_redirection_eq rfl hst (by decide) hb]
  have hend : { textAt "b" relay with path := .parse "c" } = textAt "c" relay := rfl
  rw [hend, Binder.run_of_not_mem_eq rfl hst (by decide)]
  exact ⟨_, rfl⟩

/-- The first text is bound to what the second and the last are bound to. -/
theorem relay_is_followed :
    ((plainBinder relay).Standard ∧ (plainBinder relay).registry.Closed ∧
      ((plainBinder relay).registry.get? .text).isSome = true ∧
        (plainBinder relay).registry.NamesVisible '.') ∧
    ∃ run, (plainBinder relay).bind? (textAt "a" relay) = some run ∧
      run.outcome = .present ⟨.text, .text "here"⟩ ∧
      (∃ run', (plainBinder relay).bind? (textAt "b" relay) = some run' ∧
        run'.outcome = .present ⟨.text, .text "here"⟩) ∧
      ∃ run', (plainBinder relay).bind? (textAt "c" relay) = some run' ∧
        run.outcome = run'.outcome.wrapAlong [.parse "a", .parse "b"] .text := by
  have htext : ((plainBinder relay).registry.get? .text).isSome = true := by decide
  have hnames := namesVisible_plainBinder relay
  obtain ⟨hfollows, hvisible⟩ := Binder.endsWith_of_leads (b := plainBinder relay) rfl
    (closed_plainBinder relay) relay (.parse "a") (.ofType .text) htext
  obtain ⟨t, hrun⟩ := run_relay
  have hends : (plainBinder relay).EndsWith (textAt "a" relay) _ := ⟨3, _, t, hrun, rfl⟩
  obtain ⟨hnext, hchain⟩ := hfollows _ hends (by simp)
  obtain ⟨second, hsecond, hpresent, -, -⟩ := hnext "$\x7bb\x7d" "b" rfl (by decide)
  obtain ⟨last, hlast, heq⟩ := hchain _ _ leads_relay
  refine ⟨⟨rfl, closed_plainBinder relay, htext, hnames⟩, _, ?_, rfl, ⟨second, ?_, ?_⟩,
    last, ?_, heq⟩
  · exact ((hvisible (.parse "a") hnames).2 _).2 hends
  · exact ((hvisible (.parse "b") hnames).2 _).2 hsecond
  · exact (hpresent _).1 rfl
  · exact ((hvisible (.parse "c") hnames).2 _).2 hlast

end Sample

end ConfigBind
