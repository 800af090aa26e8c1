import ConfigBind.Proofs.Bind.Redirection
import Mathlib.Data.List.Nodup

/-!
# Absent data

A bind is empty exactly where there is nothing to bind: whether it is depends on the tree and the
path, and not on the type.  `Node.Vanishes` says that the references from a path lead, without
coming back to a path, to a node that is absent or `null`.

* `Binder.vanishes_of_run`: a run that is empty has followed such references.
* `Binder.run_of_vanishes`: a run that follows such references is empty.
* `Binder.endsWith_empty_iff`: a bind is empty if and only if its path vanishes.
-/

namespace ConfigBind

namespace Node

variable {root : Node} {p q : Path} {via : List Path}

theorem resolve?_eq_none_iff :
    root.resolve? p = none ↔ root.get? p = none ∨ root.get? p = some .null := by
  rw [resolve?]
  cases hn : root.get? p with
  | none => simp
  | some n => cases n <;> simp [Option.filter, isNull, kind]

/-- References lead from the path to a node that is absent or `null`, through paths that are not
among `held`, and through none of them twice. -/
def Vanishes (root : Node) (held : List String) (p : Path) : Prop :=
  ∃ via q, root.Leads p via q ∧ ((via ++ [q]).map Path.render).Nodup ∧
    (∀ path ∈ via ++ [q], path.render ∉ held) ∧
      (root.get? q = none ∨ root.get? q = some .null)

theorem vanishes_of_absent {held : List String} (hm : p.render ∉ held)
    (hn : root.resolve? p = none) : root.Vanishes held p := by
  refine ⟨[], p, .refl p, by simp, ?_, resolve?_eq_none_iff.1 hn⟩
  intro path hpath
  obtain rfl := List.mem_singleton.1 hpath
  exact hm

theorem Vanishes.step {next : Path} {held : List String} (hm : p.render ∉ held)
    (hnext : root.redirection? p = some next) (h : root.Vanishes (p.render :: held) next) :
    root.Vanishes held p := by
  obtain ⟨via, q, hleads, hnodup, hfresh, hn⟩ := h
  refine ⟨p :: via, q, .step hnext hleads, ?_, ?_, hn⟩
  · refine List.nodup_cons.2 ⟨fun hmem => ?_, hnodup⟩
    obtain ⟨path, hpath, heq⟩ := List.mem_map.1 hmem
    exact hfresh path hpath (heq ▸ List.mem_cons_self)
  · intro path hpath
    rcases List.mem_cons.1 hpath with rfl | hpath
    · exact hm
    · exact fun hmem => hfresh path hpath (List.mem_cons_of_mem _ hmem)

theorem Vanishes.cases {held : List String} (h : root.Vanishes held p) : p.render ∉ held ∧
    (root.resolve? p = none ∨
      ∃ next, root.redirection? p = some next ∧ root.Vanishes (p.render :: held) next) := by
  obtain ⟨via, q, hleads, hnodup, hfresh, hn⟩ := h
  cases hleads with
  | refl => exact ⟨hfresh p List.mem_cons_self, .inl (resolve?_eq_none_iff.2 hn)⟩
  | @step _ next _ via hnext hrest =>
    refine ⟨hfresh p List.mem_cons_self, .inr ⟨next, hnext, via, q, hrest, ?_, ?_, hn⟩⟩
    · exact (List.nodup_cons.1 hnodup).2
    · intro path hpath hmem
      rcases List.mem_cons.1 hmem with heq | hmem
      · exact (List.nodup_cons.1 hnodup).1 (List.mem_map.2 ⟨path, hpath, heq⟩)
      · exact hfresh path (List.mem_cons_of_mem _ hpath) hmem

end Node

namespace Binder

variable {b : Binder} {n : Nat} {r : Request} {s t : Session} {o : Outcome Value}

theorem render_mem_references {root : Node} {p next : Path}
    (h : root.redirection? p = some next) : next.render ∈ references root := by
  obtain ⟨text, reference, hn, href, rfl⟩ :=
    redirection?_eq_some (r := ⟨p, .ofType .text, root, .propagate⟩) h
  exact mem_references (Node.mem_texts_of_get? hn) href

theorem vanishes_of_run_of (hdata : ∀ {strategy : Strategy} {r : Request} {node : Node},
      b.strategyFor r.type = .ok strategy → r.source.resolve? r.path = some node →
        (strategy.bind b.context r).Collects (fun _ o => o.isEmpty = false) [])
    (hb : b.Standard) (hpolicy : r.policy = .propagate) (h : b.run n r s = some (.empty, t)) :
    r.source.Vanishes s.inFlight r.path := by
  induction n generalizing r s t with
  | zero => cases h
  | succ n ih =>
    obtain ⟨strategy, u, hst, hm, hdelegate, -⟩ := run_succeeding hpolicy rfl h
    cases hpath : redirection? r with
    | some path =>
      rw [delegate_exec_of_redirection hpath] at hdelegate
      exact .step hm hpath (ih (r := { r with path }) hpolicy hdelegate)
    | none =>
      rw [delegate, hpath] at hdelegate
      cases hn : r.source.resolve? r.path with
      | none => exact Node.vanishes_of_absent hm hn
      | some node =>
        have hnote : ∀ (_ _ : Session) (e : Event), e.Plain → True → True :=
          fun _ _ _ _ _ => trivial
        obtain ⟨found, hnonempty, -⟩ := (hdata hst hn).exec
          (R := fun _ _ => True) hnote (Strategy.only_of_mem_builtin (hb.mem_builtin hst) _ _)
          hdelegate
        cases hnonempty

/-- **A run that is empty has followed references to where there is no data.** -/
theorem vanishes_of_run (hb : b.Standard) (hclosed : b.registry.Closed)
    (hpolicy : r.policy = .propagate) (h : b.run n r s = some (.empty, t)) :
    r.source.Vanishes s.inFlight r.path :=
  vanishes_of_run_of (fun hst hn => (collects_strategy hb hclosed hst hn).mono fun _ _ h => h.2)
    hb hpolicy h

/-- **Where references lead to no data, a run is empty.**  It needs no more than one level for every
reference. -/
theorem run_of_vanishes (hb : b.Standard) (hpolicy : r.policy = .propagate)
    (htype : (b.registry.get? r.type).isSome = true)
    (h : r.source.Vanishes s.inFlight r.path)
    (hn : pending (references r.source) (r.path.render :: s.inFlight) < n) :
    ∃ t, b.run n r s = some (.empty, t) := by
  obtain ⟨d, hd⟩ := Option.isSome_iff_exists.1 htype
  have hst : b.strategyFor r.type = .ok (Strategy.ofKind d.kind) := hb.strategyFor_eq hd
  induction n generalizing r s with
  | zero => omega
  | succ n ih =>
    obtain ⟨hm, hcases⟩ := h.cases
    rcases hcases with habsent | ⟨next, hnext, hrest⟩
    · have hpath : redirection? r = none := by
        unfold redirection?
        rcases Node.resolve?_eq_none_iff.1 habsent with hget | hget <;> rw [hget]
      have hdelegate : b.delegate (Strategy.ofKind d.kind) r = .done .empty := by
        rw [delegate, hpath]
        exact Strategy.bind_of_absent hd habsent
      rw [run_of_not_mem_eq hpolicy hst hm, hdelegate]
      exact ⟨_, rfl⟩
    · have hfewer := pending_cons_lt (render_mem_references hnext) hrest.cases.1
      obtain ⟨t, hrun⟩ := ih (r := { r with path := next })
        (s := (entry (Strategy.ofKind d.kind) r s).note
          (.redirected r.path.render next.render)) hpolicy htype hrest (by
            show pending (references r.source) (next.render :: r.path.render :: s.inFlight) < n
            omega) hd hst
      rw [run_of_redirection_eq hpolicy hst hm hnext, hrun]
      exact ⟨_, rfl⟩

theorem bind?_of_vanishes (hb : b.Standard) (hpolicy : r.policy = .propagate)
    (htype : (b.registry.get? r.type).isSome = true) (h : r.source.Vanishes b.inFlight r.path) :
    ∃ run, b.bind? r = some run ∧ run.outcome = .empty := by
  have hpending : pending (references r.source) (r.path.render :: b.inFlight) < b.allowance r := by
    have hcount : pending (references r.source) (r.path.render :: b.inFlight) ≤
        (references r.source).length := List.countP_le_length
    have hbound := le_nestingBound r.source
    have hallowed := nestingBound_le_allowance b r
    omega
  obtain ⟨t, hrun⟩ := run_of_vanishes (s := ⟨b.inFlight, []⟩) hb hpolicy htype h hpending
  exact ⟨_, bind?_of_run hrun (Nat.le_refl _), rfl⟩

/-- **A bind is empty if and only if there is nothing to bind.**  Whatever the type and the instance
to bind into, references from the path lead, through no path twice, to a node that is absent or
`null`.  If so the bind has a result, and it has one in any case if names are visible. -/
theorem endsWith_empty_iff (hb : b.Standard) (hclosed : b.registry.Closed)
    (hflight : b.inFlight = []) (root : Node) (p : Path) (target : Target)
    (htype : (b.registry.get? target.type).isSome = true) :
    (∀ run, b.EndsWith ⟨p, target, root, .propagate⟩ run →
      (run.outcome = .empty ↔
        ∃ via q, root.Leads p via q ∧ ((via ++ [q]).map Path.render).Nodup ∧
          (root.get? q = none ∨ root.get? q = some .null))) ∧
    (∀ via q, root.Leads p via q → ((via ++ [q]).map Path.render).Nodup →
      root.get? q = none ∨ root.get? q = some .null →
        ∃ run, b.bind? ⟨p, target, root, .propagate⟩ = some run ∧ run.outcome = .empty) ∧
    (b.registry.NamesVisible p.separator →
      (b.bind? ⟨p, target, root, .propagate⟩).isSome = true ∧
        ∀ run, b.bind? ⟨p, target, root, .propagate⟩ = some run ↔
          b.EndsWith ⟨p, target, root, .propagate⟩ run) := by
  have hbind : ∀ via q, root.Leads p via q → ((via ++ [q]).map Path.render).Nodup →
      root.get? q = none ∨ root.get? q = some .null →
        ∃ run, b.bind? ⟨p, target, root, .propagate⟩ = some run ∧ run.outcome = .empty := by
    intro via q hleads hnodup hn
    have hvanishes : root.Vanishes b.inFlight p := by
      refine ⟨via, q, hleads, hnodup, ?_, hn⟩
      rw [hflight]
      intro _ _ hmem
      cases hmem
    exact bind?_of_vanishes (r := ⟨p, target, root, .propagate⟩) hb rfl htype hvanishes
  refine ⟨fun run hrun => ⟨fun hempty => ?_, ?_⟩, hbind, fun hnames => ?_⟩
  · obtain ⟨n, o, t, hexec, rfl⟩ := hrun
    obtain rfl : o = .empty := hempty
    obtain ⟨via, q, hleads, hnodup, -, hn⟩ := vanishes_of_run hb hclosed rfl hexec
    exact ⟨via, q, hleads, hnodup, hn⟩
  · rintro ⟨via, q, hleads, hnodup, hn⟩
    obtain ⟨run', hrun', hempty⟩ := hbind via q hleads hnodup hn
    rwa [hrun.unique (endsWith_of_bind? hrun')]
  · exact bind?_iff_endsWith (r := ⟨p, target, root, .propagate⟩) hb
      FailurePolicy.direct_propagate hnames

end Binder

namespace Sample

def dangling : Node := .map [("a", .text "$\x7bb\x7d"), ("b", .text "$\x7bgone\x7d")]

theorem leads_dangling :
    dangling.Leads (.parse "a") [.parse "a", .parse "b"] (.parse "gone") := by
  have ha : dangling.redirection? (.parse "a") = some (.parse "b") := by decide
  have hb : dangling.redirection? (.parse "b") = some (.parse "gone") := by decide
  exact .step ha (.step hb (.refl _))

/-- Nothing is bound there, to a type that contains itself as well. -/
theorem dangling_is_empty :
    ((binder dangling).Standard ∧ (binder dangling).registry.Closed ∧
      (binder dangling).inFlight = [] ∧ ((binder dangling).registry.get? link).isSome = true ∧
        (binder dangling).registry.NamesVisible '.') ∧
    ∃ run, (binder dangling).bind? ⟨.parse "a", .ofType link, dangling, .propagate⟩ = some run ∧
      (binder dangling).EndsWith ⟨.parse "a", .ofType link, dangling, .propagate⟩ run ∧
        run.outcome = .empty := by
  have hnames := namesVisible_binder dangling
  obtain ⟨d, hd, -⟩ := describe?_link dangling
  have hlink : ((binder dangling).registry.get? link).isSome = true := by
    rw [hd]
    rfl
  obtain ⟨-, hempty, hvisible⟩ := Binder.endsWith_empty_iff (b := binder dangling) rfl
    (closed_binder dangling) rfl dangling (.parse "a") (.ofType link) hlink
  obtain ⟨run, hrun, hnone⟩ := hempty _ _ leads_dangling (by decide) (.inl rfl)
  exact ⟨⟨rfl, closed_binder dangling, rfl, hlink, hnames⟩, run, hrun,
    ((hvisible hnames).2 run).1 hrun, hnone⟩

end Sample

end ConfigBind
