import ConfigBind.Proofs.Bind.Templates
import ConfigBind.Proofs.Convert.Spelling

/-!
# Values that are followed and values that are spliced

References lead to a truth value or an integer, and this is converted as it is.  A text that refers
to it gets its digits or its word in place of the reference, and is converted then.  Both come to
the same (`Binder.values_convert_alike`).

* `Binder.outcome_of_leads`: what a path is bound to from which references lead to a scalar.
* `Binder.outcome_of_resolves`: what a text is bound to whose references are bound to given texts.
-/

namespace ConfigBind

namespace Outcome

variable {α : Type}

theorem wrapAt_eq_present_iff {o : Outcome α} {path : Path} {t : TypeRef} {v : α} :
    o.wrapAt path t = .present v ↔ o = .present v :=
  (o.wrapAt_agrees path t).1 v

theorem wrapAlong_eq_present_iff {o : Outcome α} {via : List Path} {t : TypeRef} {v : α} :
    o.wrapAlong via t = .present v ↔ o = .present v := by
  induction via with
  | nil => rfl
  | cons path via ih => exact wrapAt_eq_present_iff.trans ih

theorem isRecursive_wrapAlong {o : Outcome Value} {via : List Path} {t : TypeRef} :
    (o.wrapAlong via t).isRecursive = o.isRecursive := by
  induction via with
  | nil => rfl
  | cons path via ih => exact (isRecursive_wrapAt ..).trans ih

end Outcome

theorem Conversion.outcome_eq_present_iff {c : Conversion} {n : Node} {t : TypeRef} {v : Value} :
    c.outcome n t = .present v ↔ c.convert n t = .ok v := by
  unfold outcome
  cases c.convert n t <;> simp

theorem Strategy.exec_scalar_of_isDiscrete {f : Request → Bind (Outcome Value)} {ctx : Context}
    {r : Request} {s : Session} {n : Node} (hn : r.source.resolve? r.path = some n)
    (hdiscrete : n.IsDiscrete) :
    (scalar.bind ctx r).exec f s = some (ctx.conversion.outcome n r.type, s) := by
  have hconvert : bindScalar ctx r = ctx.convertAt r := by
    rw [bindScalar, hn]
    cases hdiscrete <;> rfl
  show (bindScalar ctx r).outcome.exec f s = _
  rw [Attempt.exec_outcome, hconvert, Context.convertAt, hn]
  dsimp only
  rw [Attempt.exec_bind_pure, Context.convert, Conversion.outcome]
  cases ctx.conversion.convert n r.type <;> rfl

namespace Binder

variable {b : Binder} {root node : Node} {p q : Path} {via : List Path} {t : TypeRef} {run : Run}
  {n : Nat} {s s' : Session} {o : Outcome Value}

/-! ## References that are followed -/

theorem run_of_isDiscrete (hb : b.Standard) {r : Request} (hpolicy : r.policy = .propagate)
    (htype : b.registry.HasScalar r.type) (hn : r.source.get? r.path = some node)
    (hnode : node.IsDiscrete) (h : b.run n r s = some (o, s')) (ho : o.isRecursive = false) :
    o = (b.conversion.outcome node r.type).wrapAt r.path r.type := by
  have hst := hb.strategyFor_scalar htype
  have hresolve : r.source.resolve? r.path = some node := by
    rw [Node.resolve?, hn]
    cases hnode <;> rfl
  have hdelegate : b.delegate Strategy.scalar r = Strategy.scalar.bind b.context r := by
    rw [delegate, redirection?, hn]
    cases hnode <;> rfl
  cases n with
  | zero => cases h
  | succ n =>
    by_cases hm : r.path.render ∈ s.inFlight
    · rw [run_of_mem_eq hpolicy hst hm] at h
      obtain ⟨rfl, -⟩ := Prod.mk.inj (Option.some.inj h)
      rw [isRecursive_wrapped] at ho
      cases ho
    · rw [run_of_not_mem_eq hpolicy hst hm, hdelegate,
        Strategy.exec_scalar_of_isDiscrete hresolve hnode] at h
      exact (Prod.mk.inj (Option.some.inj h)).1.symm

/-- **Where references lead to a truth value or an integer, that is converted.** -/
theorem outcome_of_leads (hb : b.Standard) (htype : b.registry.HasScalar t)
    (htext : b.registry.HasScalar .text) (hleads : root.Leads p via q)
    (hq : root.get? q = some node) (hnode : node.IsDiscrete) (hrun : b.bindIn? root p t = some run)
    (hrecursive : run.outcome.isRecursive = false) :
    run.outcome = ((b.conversion.outcome node t).wrapAt q t).wrapAlong via t := by
  obtain ⟨n, o, s, hexec, rfl⟩ := endsWith_of_bind? hrun
  -- the scalar types are closed under what they refer to, as the whole registry need not be
  have hscalars (p : Path) (s : Session) : b.run n ⟨p, .ofType t, root, .propagate⟩ s =
      b.scalars.run n ⟨p, .ofType t, root, .propagate⟩ s :=
    run_scalars (r := ⟨p, .ofType t, root, .propagate⟩) hb htext htype
      FailurePolicy.direct_propagate n s
  have hregistered : (b.scalars.registry.get? (Target.ofType t).type).isSome = true := by
    obtain ⟨d, hd, hscalar⟩ := htype
    exact Option.isSome_of_eq_some (Registry.get?_scalars hd hscalar)
  rw [hscalars] at hexec
  obtain ⟨o', s', hend, rfl⟩ :=
    run_of_leads (b := b.scalars) hb b.registry.closed_scalars hregistered hleads hexec hrecursive
  rw [← hscalars] at hend
  have hscalar : o'.isRecursive = false := Outcome.isRecursive_wrapAlong.symm.trans hrecursive
  have hconverted := run_of_isDiscrete (r := ⟨q, .ofType t, root, .propagate⟩) hb rfl
    htype hq hnode hend hscalar
  exact congrArg (·.wrapAlong via t) hconverted

/-! ## References that are spliced -/

/-- The references of a text at a path are bound to these texts, or to nothing, each on its own. -/
def Resolves (b : Binder) (root : Node) (p : Path) (t : Text.Template)
    (values : List (Option String)) : Prop :=
  List.Forall₂ (fun reference value => ∃ own,
    b.bindIn? root (.parseWith p.separator reference) .text = some own ∧
      own.outcome.text = .ofOption value) t.references values

end Binder

theorem Outcome.ofOption_inj {α : Type} {x y : Option α} (h : ofOption x = ofOption y) : x = y := by
  cases x <;> cases y <;> cases h <;> rfl

namespace Spliced

variable {c : Conversion} {r : Request} {t : Text.Template} {calls : List Exchange}
  {o : Outcome Value} {P : String → Option String → Prop}

theorem values_eq {references : List String} {values values' : List (Option String)}
    (hvalues : List.Forall₂ P references values)
    (hown : ∀ reference value, P reference value → ∀ x ∈ calls,
      x.request = r.reference reference → x.outcome.text = .ofOption value)
    (hrequests : calls.map (·.request) = references.map r.reference)
    (htexts : calls.map (·.outcome.text) = values'.map .ofOption) : values' = values := by
  induction hvalues generalizing calls values' with
  | nil =>
    obtain rfl := List.map_eq_nil_iff.1 hrequests
    exact List.map_eq_nil_iff.1 htexts.symm
  | cons hfirst _ ih =>
    obtain ⟨x, rest, rfl, hx, hrest⟩ := List.map_eq_cons_iff.1 hrequests
    obtain ⟨value', more, rfl, hvalue', hmore⟩ := List.map_eq_cons_iff.1 htexts.symm
    have htext := hown _ _ hfirst x List.mem_cons_self hx
    have hhead := Outcome.ofOption_inj (hvalue'.trans htext)
    have htail := ih (fun reference value h y hy => hown reference value h y (.tail _ hy)) hrest
      hmore.symm
    rw [hhead, htail]

/-- **A template whose references have these values is what it is filled to**, converted. -/
theorem outcome_eq (h : Spliced c r t calls o) {values : List (Option String)}
    (hvalues : List.Forall₂ P t.references values)
    (hown : ∀ reference value, P reference value → ∀ x ∈ calls,
      x.request = r.reference reference → x.outcome.text = .ofOption value) :
    o = c.outcome (.text (String.ofList (t.filledWith values))) r.type := by
  cases h with
  | filled hrequests htexts => rw [values_eq hvalues hown hrequests htexts]
  | rejected hreferences hrequests htexts =>
    -- the last reference that was bound has failed, but it is one of those that have a value
    have hvalue : ∀ reference ∈ t.references, ∃ value, P reference value := by
      intro reference hmem
      obtain ⟨i, hi, rfl⟩ := List.mem_iff_getElem.1 hmem
      exact ⟨_, hvalues.get hi (hvalues.length_eq ▸ hi)⟩
    obtain ⟨value, hvalue⟩ := hvalue _ (hreferences ▸ List.mem_append_right _ List.mem_cons_self)
    obtain ⟨passed, last, rfl, -, hlast⟩ := List.map_eq_append_iff.1 htexts
    obtain ⟨x, rfl, hx⟩ := List.map_eq_singleton_iff.1 hlast
    rw [List.map_append, List.map_append] at hrequests
    have hrequest := List.singleton_inj.1 (List.append_inj_right' hrequests rfl)
    have htext := hown _ _ hvalue x (List.mem_append_right _ List.mem_cons_self) hrequest
    rw [hx] at htext
    cases value <;> cases htext

end Spliced

namespace Binder

variable {b : Binder} {root node : Node} {p q : Path} {via : List Path} {t tree : TypeRef}
  {run : Run} {text : String} {values : List (Option String)}

/-- **Where the references of a text are bound to texts, that with these in place of the references
is converted.** -/
theorem outcome_of_resolves (hb : b.Standard) (htype : b.registry.HasScalar t)
    (htext : b.registry.HasScalar .text) (hn : root.get? p = some (.text text))
    (href : Text.hasReference text.toList = true)
    (hwhole : Text.wholeReference? text.toList = none)
    (hvalues : b.Resolves root p (.parse text.toList) values) (hrun : b.bindIn? root p t = some run)
    (hrecursive : run.outcome.isRecursive = false) :
    run.outcome = (b.conversion.outcome (.text (String.ofList
      ((Text.Template.parse text.toList).filledWith values))) t).wrapAt p t := by
  obtain ⟨n, calls, o, u, -, hspliced, houtcome, hown⟩ :=
    exists_spliced (r := ⟨p, .ofType t, root, .propagate⟩) hb rfl htype htext hn href hwhole hrun
      (Outcome.isRecursive_eq_false_iff.1 hrecursive)
  rw [houtcome, hspliced.outcome_eq hvalues]
  · rfl
  · rintro reference value ⟨own, hbind, hvalue⟩ x hx hrequest
    obtain ⟨own', hbind', heq⟩ := hown x hx
    rw [hrequest] at hbind'
    obtain rfl := Option.some.inj (hbind.symm.trans hbind')
    rw [← heq, hvalue]

/-- **A value that is followed and its text that is spliced are converted alike**, for truth values
and integers, converted to characters, texts, truth values and integers, and whatever blanks stand
around the text, unless it is converted to a character or a text. -/
theorem values_convert_alike
    (ht : t ∈ [TypeRef.char, .text] ++ TypeRef.bool :: IntegerType.all.map (·.ref))
    (htree : tree ≠ t) (hnode : node.IsDiscrete) {s : String} (hs : node.textual? = some s) :
    (∀ text, Conversion.Shows t s text → ∀ v, (Conversion.standard tree).convert node t = .ok v ↔
      (Conversion.standard tree).convert (.text text) t = .ok v) ∧
    ∀ b : Binder, b.Standard → b.conversion = .standard tree → b.registry.HasScalar t →
      b.registry.HasScalar .text → ∀ root p via q, root.Leads p via q → root.get? q = some node →
      (∃ run, b.bindIn? root p t = some run ∧ (run.outcome.isRecursive = false → ∀ v,
        run.outcome = .present v ↔ (Conversion.standard tree).convert node t = .ok v)) ∧
      (∃ run, b.bindIn? root p .text = some run ∧ (run.outcome.isRecursive = false →
        run.outcome = .present ⟨.text, .text s⟩)) ∧
      ∀ p' text values, root.get? p' = some (.text text) → Text.hasReference text.toList = true →
        Text.wholeReference? text.toList = none →
        b.Resolves root p' (.parse text.toList) values →
        Conversion.Shows t s
          (String.ofList ((Text.Template.parse text.toList).filledWith values)) →
        ∃ run run', b.bindIn? root p t = some run ∧ b.bindIn? root p' t = some run' ∧
          (run.outcome.isRecursive = false → run'.outcome.isRecursive = false →
            ∀ v, run.outcome = .present v ↔ run'.outcome = .present v) := by
  have hshows : ∀ text, Conversion.Shows t s text → ∀ v,
      (Conversion.standard tree).convert node t = .ok v ↔
        (Conversion.standard tree).convert (.text text) t = .ok v :=
    fun text h v => Conversion.convert_eq_ok_iff_of_shows ht htree hnode hs h
  refine ⟨hshows, fun b hb hconversion htype htext root p via q hleads hq => ?_⟩
  -- scalars ask for texts only, so their binds end whatever names the registry has
  have hends : ∀ p, ∀ t, b.registry.HasScalar t → ∃ run, b.bindIn? root p t = some run :=
    fun p t htype => Option.isSome_iff_exists.1
      (isSome_bind?_of_scalar hb htext htype FailurePolicy.direct_propagate)
  have hfollowed : ∀ {t run}, b.registry.HasScalar t → b.bindIn? root p t = some run →
      run.outcome.isRecursive = false → ∀ v,
      run.outcome = .present v ↔ (Conversion.standard tree).convert node t = .ok v := by
    intro t run htype hrun hrecursive v
    rw [outcome_of_leads hb htype htext hleads hq hnode hrun hrecursive,
      Outcome.wrapAlong_eq_present_iff, Outcome.wrapAt_eq_present_iff,
      Conversion.outcome_eq_present_iff, hconversion]
  refine ⟨?_, ?_, fun p' text values hn href hwhole hvalues hfilled => ?_⟩
  · obtain ⟨run, hrun⟩ := hends p t htype
    exact ⟨run, hrun, hfollowed htype hrun⟩
  · obtain ⟨run, hrun⟩ := hends p .text htext
    refine ⟨run, hrun, fun hrecursive => (hfollowed htext hrun hrecursive _).2 ?_⟩
    rw [Conversion.convert_textual (by simp) hs]
    rfl
  · obtain ⟨run, hrun⟩ := hends p t htype
    obtain ⟨run', hrun'⟩ := hends p' t htype
    refine ⟨run, run', hrun, hrun', fun hrecursive hrecursive' v => ?_⟩
    rw [hfollowed htype hrun hrecursive, hshows _ hfilled,
      outcome_of_resolves hb htype htext hn href hwhole hvalues hrun' hrecursive',
      Outcome.wrapAt_eq_present_iff, Conversion.outcome_eq_present_iff, hconversion]

end Binder

namespace Sample

def levels : Node :=
  .map [("level", .int 42), ("alias", .text "$\x7blevel\x7d"), ("shown", .text " $\x7blevel\x7d")]

def levelAt (path : String) : Request :=
  ⟨.parse path, .ofType IntegerType.u16.ref, levels, .propagate⟩

theorem parse_shown : Text.Template.parse " $\x7blevel\x7d".toList =
    ⟨[([' '], "level".toList)], []⟩ := by
  have hopen : Text.splitOpen? " $\x7blevel\x7d".toList =
      some ([' '], "level\x7d".toList) := by decide
  have hclose : Text.splitClose? "level\x7d".toList = some ("level".toList, []) := by decide
  have hrest : Text.Template.parse [] = ⟨[], []⟩ :=
    Text.Template.parse_of_not_hasReference (by decide)
  rw [Text.Template.parse_of_split hopen hclose, hrest]

theorem strategyFor_level : (plainBinder levels).strategyFor IntegerType.u16.ref =
    .ok Strategy.scalar :=
  Binder.Standard.strategyFor_eq (b := plainBinder levels) (d := ⟨IntegerType.u16.ref, .scalar⟩)
    rfl rfl

theorem run_alias : ∃ t, (plainBinder levels).run 2 (levelAt "alias") ⟨[], []⟩ =
    some (.present ⟨IntegerType.u16.ref, .int 42⟩, t) := by
  have halias : Binder.redirection? (levelAt "alias") = some (.parse "level") := by decide
  rw [Binder.run_of_redirection_eq rfl strategyFor_level (by decide) halias]
  have hbelow : { levelAt "alias" with path := .parse "level" } = levelAt "level" := rfl
  rw [hbelow, Binder.run_of_not_mem_eq rfl strategyFor_level (by decide)]
  exact ⟨_, rfl⟩

theorem run_level (s : Session) (h : "level" ∉ s.inFlight) :
    ∃ t, (plainBinder levels).run 1 (textAt "level" levels) s =
      some (.present ⟨.text, .text "42"⟩, t) := by
  have hm : (textAt "level" levels).path.render ∉ s.inFlight := h
  rw [Binder.run_of_not_mem_eq rfl (strategyFor_text levels) hm]
  exact ⟨_, rfl⟩

theorem run_shown : ∃ t, (plainBinder levels).run 2 (levelAt "shown") ⟨[], []⟩ =
    some (.present ⟨IntegerType.u16.ref, .int 42⟩, t) := by
  obtain ⟨u, hlevel⟩ := run_level (Binder.entry Strategy.scalar (levelAt "shown") ⟨[], []⟩)
    (by decide)
  have hn : (levelAt "shown").source.resolve? (levelAt "shown").path =
    some (.text " $\x7blevel\x7d") := rfl
  have href : Text.hasReference " $\x7blevel\x7d".toList = true := by decide
  have hdelegate : (plainBinder levels).delegate Strategy.scalar (levelAt "shown") =
      Strategy.scalar.bind (plainBinder levels).context (levelAt "shown") := by
    have hnone : Binder.redirection? (levelAt "shown") = none := by decide
    rw [Binder.delegate, hnone]
  rw [Binder.run_of_not_mem_eq rfl strategyFor_level (by decide), hdelegate]
  have hexec : (Strategy.scalar.bind (plainBinder levels).context (levelAt "shown")).exec
      ((plainBinder levels).run 1) (Binder.entry Strategy.scalar (levelAt "shown") ⟨[], []⟩) =
        some (.present ⟨IntegerType.u16.ref, .int 42⟩, u) := by
    show (Strategy.bindScalar _ (levelAt "shown")).outcome.exec _ _ = _
    rw [Strategy.bindScalar, hn]
    dsimp only
    rw [if_pos href, parse_shown, Attempt.exec_outcome]
    show Option.map _ (Script.exec _ (Script.call (textAt "level" levels) _) _) = _
    rw [Script.exec_call, hlevel]
    rfl
  rw [hexec]
  exact ⟨_, rfl⟩

/-- Following the reference and splicing its text both give the number, blank or not. -/
theorem level_is_bound_alike :
    (IntegerType.u16.ref ∈ [TypeRef.char, .text] ++ TypeRef.bool :: IntegerType.all.map (·.ref) ∧
      (⟨"Tree", "Tree"⟩ : TypeRef) ≠ IntegerType.u16.ref ∧ (Node.int 42).IsDiscrete ∧
      (Node.int 42).textual? = some "42") ∧
    (Conversion.standard ⟨"Tree", "Tree"⟩).convert (.text "42") IntegerType.u16.ref =
      .ok ⟨IntegerType.u16.ref, .int 42⟩ ∧
    ∃ run run', (plainBinder levels).bindIn? levels (.parse "alias") IntegerType.u16.ref = some run ∧
      (plainBinder levels).bindIn? levels (.parse "shown") IntegerType.u16.ref = some run' ∧
      run.outcome = .present ⟨IntegerType.u16.ref, .int 42⟩ ∧
      run'.outcome = .present ⟨IntegerType.u16.ref, .int 42⟩ := by
  have ht : IntegerType.u16.ref ∈
      [TypeRef.char, .text] ++ TypeRef.bool :: IntegerType.all.map (·.ref) := by decide
  have htree : (⟨"Tree", "Tree"⟩ : TypeRef) ≠ IntegerType.u16.ref := by decide
  have hs : (Node.int 42).textual? = some "42" := rfl
  obtain ⟨hshows, hbinds⟩ := Binder.values_convert_alike ht htree (.int 42) hs
  have hleads : levels.Leads (.parse "alias") [.parse "alias"] (.parse "level") :=
    .step (by decide) (.refl _)
  obtain ⟨-, -, hsplices⟩ := hbinds (plainBinder levels) rfl rfl ⟨_, rfl, rfl⟩ ⟨_, rfl, rfl⟩ levels
    _ _ _ hleads rfl
  have hallowed (r : Request) : 2 ≤ (plainBinder levels).allowance r :=
    Nat.le_of_succ_le (Binder.three_le_allowance _ r)
  obtain ⟨_, hlevel⟩ := run_level ⟨[], []⟩ (by simp)
  have hvalues : (plainBinder levels).Resolves levels (.parse "shown")
      (.parse " $\x7blevel\x7d".toList) [some "42"] := by
    rw [parse_shown]
    exact .cons ⟨_, Binder.bind?_of_run hlevel (Nat.le_of_succ_le (hallowed _)), rfl⟩ .nil
  have hfilled : Conversion.Shows IntegerType.u16.ref "42" (String.ofList
      ((Text.Template.parse " $\x7blevel\x7d".toList).filledWith [some "42"])) := by
    rw [parse_shown]
    have hbefore : ∀ c ∈ [' '], Text.isBlank c = true := List.all_eq_true.1 (by decide)
    have hafter : ∀ c ∈ ([] : List Char), Text.isBlank c = true := nofun
    exact .padded (by decide) hbefore hafter
  obtain ⟨run, run', hrun, hrun', halike⟩ :=
    hsplices (.parse "shown") _ _ rfl (by decide) (by decide) hvalues hfilled
  obtain ⟨_, halias⟩ := run_alias
  obtain ⟨_, hshown⟩ := run_shown
  obtain rfl := Option.some.inj (hrun.symm.trans (Binder.bind?_of_run halias (hallowed _)))
  obtain rfl := Option.some.inj (hrun'.symm.trans (Binder.bind?_of_run hshown (hallowed _)))
  exact ⟨⟨ht, htree, .int 42, hs⟩, (hshows "42" .exact _).1 rfl, _, _, hrun, hrun', rfl,
    (halike rfl rfl _).1 rfl⟩

end Sample

end ConfigBind
