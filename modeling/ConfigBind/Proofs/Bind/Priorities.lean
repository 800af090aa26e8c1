import ConfigBind.Proofs.Bind.Scripts
import ConfigBind.Proofs.Bind.Selection
import Mathlib.Data.List.Basic

/-!
# Priorities of strategies

A binder has its strategies in descending priority, and uses the first that supports a type.
Sorting leaves strategies of one priority in the order in which they were given
(`Strategy.filter_mergeSort`), the built-in ones behind all others.  So whether a strategy is used
can be told from the list that was given, without sorting it: no strategy in front of it that
supports the type is of its priority or a higher one, and none behind it is of a higher one
(`Strategy.split_of_find?_arrange`).

* `Binder.uses_highest_priority`: how the strategies of a binder are arranged, and which is used.
-/

namespace ConfigBind

namespace Strategy

variable {custom : List Strategy} {d : Descriptor} {strategy : Strategy}

theorem le_priority_trans (a b c : Strategy) (hab : decide (b.priority ≤ a.priority) = true)
    (hbc : decide (c.priority ≤ b.priority) = true) : decide (c.priority ≤ a.priority) = true := by
  rw [decide_eq_true_eq] at hab hbc ⊢
  exact Int.le_trans hbc hab

theorem le_priority_total (a b : Strategy) :
    (decide (b.priority ≤ a.priority) || decide (a.priority ≤ b.priority)) = true := by
  rw [Bool.or_eq_true, decide_eq_true_eq, decide_eq_true_eq]
  exact Int.le_total _ _

/-- **Sorting leaves strategies of one priority in order.** -/
theorem filter_mergeSort (strategies : List Strategy) (priority : Int) :
    (strategies.mergeSort fun a b => b.priority ≤ a.priority).filter (·.priority == priority) =
      strategies.filter (·.priority == priority) := by
  induction strategies with
  | nil => simp
  | cons first rest ih =>
    -- `first` is sorted in behind strategies of higher priority only
    obtain ⟨higher, others, hsorted, hrest, hhigher⟩ :=
      List.mergeSort_cons le_priority_trans le_priority_total first rest
    rw [hrest, List.filter_append] at ih
    rw [hsorted, List.filter_append]
    by_cases hp : first.priority = priority
    · have hnone : higher.filter (·.priority == priority) = [] := by
        rw [List.filter_eq_nil_iff]
        intro b hb heq
        have hlt : ¬ b.priority ≤ first.priority := by simpa using hhigher b hb
        have heq : b.priority = priority := by simpa using heq
        omega
      rw [hnone, List.nil_append] at ih ⊢
      rw [List.filter_cons_of_pos (by simpa using hp), List.filter_cons_of_pos (by simpa using hp),
        ih]
    · rw [List.filter_cons_of_neg (by simpa using hp), List.filter_cons_of_neg (by simpa using hp),
        ih]

theorem perm_arrange (custom : List Strategy) : (arrange custom).Perm (custom ++ builtin) :=
  List.mergeSort_perm ..

theorem pairwise_arrange (custom : List Strategy) :
    (arrange custom).Pairwise fun a b => b.priority ≤ a.priority := by
  refine (List.pairwise_mergeSort le_priority_trans le_priority_total _).imp ?_
  exact fun h => of_decide_eq_true h

theorem isSome_find?_arrange (custom : List Strategy) (d : Descriptor) :
    ((arrange custom).find? (·.supports d)).isSome = true := by
  have hmem : ofKind d.kind ∈ arrange custom :=
    (perm_arrange custom).mem_iff.2 (List.mem_append_right _ (ofKind_mem_builtin d.kind))
  rw [List.find?_isSome]
  exact ⟨_, hmem, List.find?_some (p := fun s : Strategy => s.supports d) (find?_builtin d)⟩

theorem priority_le_of_find?_arrange (h : (arrange custom).find? (·.supports d) = some strategy)
    {other : Strategy} (hmem : other ∈ custom ++ builtin) (hsupports : other.supports d = true) :
    other.priority ≤ strategy.priority := by
  obtain ⟨-, first, last, harrange, hfirst⟩ := List.find?_eq_some_iff_append.1 h
  have hsorted := pairwise_arrange custom
  rw [harrange, List.pairwise_append, List.pairwise_cons] at hsorted
  obtain ⟨-, ⟨hlast, -⟩, -⟩ := hsorted
  rw [← (perm_arrange custom).mem_iff, harrange, List.mem_append, List.mem_cons] at hmem
  rcases hmem with hmem | rfl | hmem
  · exact absurd hsupports (by simpa using hfirst other hmem)
  · exact Int.le_refl _
  · exact hlast other hmem

/-- **Where the strategy that is used stands** among the strategies as they were given: none of its
priority that supports the type stands in front of it. -/
theorem split_of_find?_arrange (h : (arrange custom).find? (·.supports d) = some strategy) :
    ∃ before after, custom ++ builtin = before ++ strategy :: after ∧
      ∀ other ∈ before, other.supports d = true → other.priority ≠ strategy.priority := by
  obtain ⟨-, first, last, harrange, hfirst⟩ := List.find?_eq_some_iff_append.1 h
  -- of the priority of the strategy, the same ones stand in front of it in both lists
  have hfilter := filter_mergeSort (custom ++ builtin) strategy.priority
  rw [← arrange, harrange, List.filter_append, List.filter_cons_of_pos (by simp), eq_comm,
    List.filter_eq_append_iff] at hfilter
  obtain ⟨head, tail, hgiven, hhead, htail⟩ := hfilter
  obtain ⟨skipped, after, rfl, hskipped, -, -⟩ := List.filter_eq_cons_iff.1 htail
  refine ⟨head ++ skipped, after, by rw [hgiven, List.append_assoc], ?_⟩
  intro other hmem hsupports heq
  rcases List.mem_append.1 hmem with hmem | hmem
  · have hkept : other ∈ first.filter (·.priority == strategy.priority) := by
      rw [← hhead]
      exact List.mem_filter.2 ⟨hmem, by simpa using heq⟩
    exact absurd hsupports (by simpa using hfirst other (List.mem_filter.1 hkept).1)
  · exact hskipped other hmem (by simpa using heq)

end Strategy

namespace Binder

variable {b : Binder} {t : TypeRef} {d : Descriptor}

theorem run_of_strategyFor {strategy : Strategy} {r : Request} {s : Session}
    (h : b.strategyFor r.type = .ok strategy) (hm : r.path.render ∉ s.inFlight)
    (hpath : redirection? r = none) (n : Nat) : b.run (n + 1) r s =
      ((strategy.bind b.context r).exec (b.run n) (entry strategy r s)).bind fun x =>
        (b.settle (b.run n) r x.1 x.2).map fun y => (y.1, y.2.leave r.path.render) := by
  rw [run_of_not_mem h hm, delegate, hpath]

/-- **A binder uses the strategy of highest priority**, and of these the one that was given first;
those that are given come before the built-in ones.  Every registered type has one, which binds
it. -/
theorem uses_highest_priority (custom : List Strategy) (hd : b.registry.get? t = some d) :
    (b.withStrategies custom).strategies.Perm (custom ++ Strategy.builtin) ∧
    (b.withStrategies custom).strategies.Pairwise (fun x y => y.priority ≤ x.priority) ∧
    ∃ before strategy after, custom ++ Strategy.builtin = before ++ strategy :: after ∧
      (b.withStrategies custom).strategyFor t = .ok strategy ∧ strategy.supports d = true ∧
      (∀ other ∈ before, other.supports d = true → other.priority < strategy.priority) ∧
      (∀ other ∈ after, other.supports d = true → other.priority ≤ strategy.priority) ∧
      ∀ (n : Nat) (r : Request) (s : Session), r.type = t → r.path.render ∉ s.inFlight →
        redirection? r = none → (b.withStrategies custom).run (n + 1) r s =
          ((strategy.bind (b.withStrategies custom).context r).exec
            ((b.withStrategies custom).run n) (entry strategy r s)).bind fun x =>
              ((b.withStrategies custom).settle ((b.withStrategies custom).run n) r x.1 x.2).map
                fun y => (y.1, y.2.leave r.path.render) := by
  obtain ⟨strategy, hfind⟩ := Option.isSome_iff_exists.1 (Strategy.isSome_find?_arrange custom d)
  obtain ⟨before, after, hgiven, hbefore⟩ := Strategy.split_of_find?_arrange hfind
  have hle : ∀ other ∈ before ++ strategy :: after, other.supports d = true →
      other.priority ≤ strategy.priority := by
    intro other hmem hsupports
    exact Strategy.priority_le_of_find?_arrange hfind (hgiven ▸ hmem) hsupports
  have hst : (b.withStrategies custom).strategyFor t = .ok strategy := by
    have hd' : (b.withStrategies custom).registry.get? t = some d := hd
    have hfind' : (b.withStrategies custom).strategies.find? (·.supports d) = some strategy := hfind
    rw [strategyFor, hd']
    dsimp only
    rw [hfind']
  refine ⟨Strategy.perm_arrange custom, Strategy.pairwise_arrange custom, before, strategy, after,
    hgiven, hst, List.find?_some (p := fun s : Strategy => s.supports d) hfind, ?_, ?_, ?_⟩
  · intro other hmem hsupports
    have hlower := hle other (List.mem_append_left _ hmem) hsupports
    have hne := hbefore other hmem hsupports
    omega
  · intro other hmem hsupports
    exact hle other (List.mem_append_right _ (List.mem_cons_of_mem _ hmem)) hsupports
  · rintro n r s rfl hm hpath
    exact run_of_strategyFor hst hm hpath n

end Binder

namespace Sample

def stamp (name : String) (priority : Int) (value : Value) : Strategy where
  name
  priority
  supports d := d.type == value.type
  bind _ _ := .done (.present value)

def stamps : List Strategy :=
  [stamp "low" 0 ⟨IntegerType.u16.ref, .int 1⟩, stamp "text" 5000 ⟨.text, .text "2"⟩,
    stamp "first" 1000 ⟨IntegerType.u16.ref, .int 3⟩,
    stamp "second" 1000 ⟨IntegerType.u16.ref, .int 4⟩]

def stampBinder : Binder := Binder.new ⟨[]⟩ ⟨"Tree", "Tree"⟩ .null

def stampRequest : Request := ⟨.parse "a", .ofType IntegerType.u16.ref, .null, .propagate⟩

/-- Of two stamps with the priority of the built-in strategy for scalars the first is used, though
one of lower priority was given before it, and one of higher priority is there for texts. -/
theorem first_stamp_is_used :
    stampBinder.registry.get? IntegerType.u16.ref = some ⟨IntegerType.u16.ref, .scalar⟩ ∧
    (stampBinder.withStrategies stamps).strategyFor IntegerType.u16.ref =
      .ok (stamp "first" 1000 ⟨IntegerType.u16.ref, .int 3⟩) ∧
    ∃ s, (stampBinder.withStrategies stamps).run 1 stampRequest ⟨[], []⟩ =
      some (.present ⟨IntegerType.u16.ref, .int 3⟩, s) := by
  have hd : stampBinder.registry.get? IntegerType.u16.ref =
      some ⟨IntegerType.u16.ref, .scalar⟩ := rfl
  obtain ⟨-, -, before, strategy, after, hgiven, hst, hsupports, hbefore, hafter, hrun⟩ :=
    Binder.uses_highest_priority stamps hd
  have hmax : ∀ s ∈ stamps ++ Strategy.builtin,
      s.supports ⟨IntegerType.u16.ref, .scalar⟩ = true → s.priority ≤ 1000 := by decide
  have hfirst : strategy = stamp "first" 1000 ⟨IntegerType.u16.ref, .int 3⟩ := by
    match before, hgiven with
    | [], hgiven =>
      obtain ⟨rfl, rfl⟩ := List.cons.inj hgiven
      exact absurd (hafter _ (.tail _ (.head _)) rfl) (by decide)
    | [_], hgiven =>
      obtain ⟨rfl, rfl⟩ := List.cons.inj (List.cons.inj hgiven).2
      cases hsupports
    | [_, _], hgiven =>
      exact (List.cons.inj (List.cons.inj (List.cons.inj hgiven).2).2).1.symm
    | _ :: _ :: other :: rest, hgiven =>
      obtain ⟨rfl, -⟩ := List.cons.inj (List.cons.inj (List.cons.inj hgiven).2).2
      have hle := hmax strategy (by rw [hgiven]; simp) hsupports
      have hlt := hbefore _ (.tail _ (.tail _ (.head _))) rfl
      exact absurd hlt (Int.not_lt.2 hle)
  subst hfirst
  refine ⟨hd, hst, ?_⟩
  rw [hrun 0 stampRequest ⟨[], []⟩ rfl (by decide) rfl]
  exact ⟨_, rfl⟩

end Sample

end ConfigBind
