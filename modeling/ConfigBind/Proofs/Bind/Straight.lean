import ConfigBind.Proofs.Bind.Nesting
import ConfigBind.Proofs.Bind.Refinement

/-!
# Binding by paths is binding nodes

Where no text of a tree holds a reference, a run finds every part by its path from the root, and
comes to what `Direct.bind` makes of the node at the path of its request.  For the path of a part is
longer than all that are in flight, so that nothing is refused, and leads to the node that the
direct bind hands on.

* `Binder.run_binds`: runs agree with direct binds.
* `Binder.bind?_of_straight`: a bind that is asked for has the result of the direct one.
-/

namespace ConfigBind

/-- No component or property has an empty name. -/
def Registry.Named (registry : Registry) : Prop :=
  ∀ d ∈ registry.types, (∀ c ∈ d.components, c.name ≠ "") ∧
    ∀ p ∈ d.writableProperties, p.bindingName ≠ ""

theorem Registry.NamesVisible.named {registry : Registry} {separator : Char}
    (h : registry.NamesVisible separator) : registry.Named :=
  fun d hd => ⟨fun c hc => ((h d hd).1 c hc).ne_empty, fun p hp => ((h d hd).2 p hp).ne_empty⟩

/-- A request that is bound by paths alone: failures stand, no text refers elsewhere, and the paths
in flight are shorter than its own. -/
structure Request.Straight (held : List String) (r : Request) : Prop where
  policy : r.policy = .propagate
  literal : r.source.Literal
  indexable : r.source.indexable = true
  tight : r.path.Tight
  render : r.path.isEmpty = true → r.path.render = ""
  longer : ∀ path ∈ held, path.length < r.path.render.length

namespace Request.Straight

variable {held : List String} {r : Request}

theorem not_mem (h : r.Straight held) : r.path.render ∉ held :=
  fun hm => Nat.lt_irrefl _ (h.longer _ hm)

theorem part (h : r.Straight held) {text : String} (hne : text ≠ "") (target : Target) :
    Request.Straight (r.path.render :: held)
      { r with path := r.path.appendText text, target := target } where
  policy := h.policy
  literal := h.literal
  indexable := h.indexable
  tight hempty := by
    rw [Path.isEmpty_appendText hne] at hempty
    cases hempty
  render hempty := by
    rw [Path.isEmpty_appendText hne] at hempty
    cases hempty
  longer path hpath := by
    have hlt := Path.length_render_lt h.render hne
    rcases List.mem_cons.1 hpath with rfl | hpath
    · exact hlt
    · exact Nat.lt_trans (h.longer path hpath) hlt

end Request.Straight

namespace Binder

variable {b : Binder} {n : Nat} {r : Request} {s : Session} {held : List String}

theorem agree_of_delegate {strategy : Strategy} {m : Direct.Result (Option Value)}
    (hst : b.strategyFor r.type = .ok strategy) (hpolicy : r.policy = .propagate)
    (hm : r.path.render ∉ s.inFlight)
    (h : Binds (r.path.render :: s.inFlight) ((b.delegate strategy r).exec (b.run n)) m) :
    Agree s.inFlight Eq ((b.run (n + 1) r s).map fun x => (x.1.toExcept, x.2)) m.run := by
  have h := h (entry strategy r s) rfl
  have hleave {t : Session} (ht : t.inFlight = r.path.render :: s.inFlight) :
      (t.leave r.path.render).inFlight = s.inFlight := by
    simp [Session.leave, ht]
  cases hx : (b.delegate strategy r).exec (b.run n) (entry strategy r s) with
  | none =>
    rw [run_of_not_mem hst hm, hx]
    rw [hx] at h
    generalize ExceptT.run m = y at h ⊢
    cases h
    exact .exhausted
  | some x =>
    obtain ⟨o, t⟩ := x
    rw [hx] at h
    generalize ExceptT.run m = y at h ⊢
    cases o with
    | present v =>
      rw [run_of_settle hst hm hx rfl]
      cases h with
      | ok hr ht => exact .ok hr (hleave ht)
    | empty =>
      rw [run_of_settle hst hm hx rfl]
      cases h with
      | ok hr ht => exact .ok hr (hleave ht)
    | failed e =>
      obtain ⟨u, hsettle, hu⟩ := recovery_of_propagate (b := b) hpolicy e (b.run n) t t
      rw [run_of_settle hst hm hx hsettle]
      cases h with
      | error he ht =>
        exact .error (e := .failed r.path.render r.type.name e) he (hleave (hu.trans ht))

theorem redirection?_of_literal (h : r.source.Literal) : redirection? r = none := by
  unfold redirection?
  split
  · rename_i text hn
    rw [Text.wholeReference?_of_not_hasReference (h.of_get? hn)]
    rfl
  · rfl

/-- **A run agrees with the direct bind of the node at its path.** -/
theorem run_binds (hb : b.Standard) (hnames : b.registry.Named) (n : Nat)
    (h : r.Straight held) : Binds held (b.run n r)
      (Direct.bind b r.path.separator n r.type r.target.take.1 (r.source.get? r.path)) := by
  induction n generalizing r held with
  | zero => exact fun s _ => .exhausted
  | succ n ih =>
    rintro s rfl
    rw [Direct.bind]
    cases hd : b.registry.get? r.type with
    | none =>
      obtain ⟨u, hrun, hu⟩ := recovery_of_propagate (b := b) h.policy
        (.unregisteredType r.type.name) (b.run n) s s
      rw [run_of_error (strategyFor_of_get?_eq_none hd), hrun]
      exact .error (e := .failed r.path.render r.type.name (.unregisteredType r.type.name)) rfl hu
    | some d =>
      refine agree_of_delegate (hb.strategyFor_eq hd) h.policy h.not_mem ?_
      rw [delegate, redirection?_of_literal h.literal]
      dsimp only
      have hresolve : (r.source.get? r.path).filter (!·.isNull) = r.source.resolve? r.path := rfl
      rw [hresolve]
      cases hn : r.source.resolve? r.path with
      | none => exact binds_of_absent hd hn
      | some m =>
        have hget := Node.get?_of_resolve? hn
        have hpart (text : String) (hne : text ≠ "") (target : Target) :=
          ih (h.part hne target)
        simp only [Path.separator_appendText] at hpart
        refine binds_ofKind h.tight h.literal hd hn ?_
        -- the path of each part leads to the node that the direct bind hands on
        constructor
        · rintro items rfl item i hi
          have hindex := Nat.lt_of_lt_of_le hi (Node.length_le_of_get? h.indexable hget)
          have hchild := h.tight.get?_element hget hindex
          have := hpart ("[" ++ toString i ++ "]") (by simp) (.ofType item)
          rw [← Path.element_eq, hchild, List.getElem?_eq_getElem hi] at this
          exact this
        · rintro nodes rfl value key - child hchild
          have hentry := Path.get?_of_atKey? hget hchild
          obtain ⟨rfl, -⟩ := Path.segments_of_atKey? hchild
          have := hpart _ (Path.keyText_ne r.path.separator key) (.ofType value)
          rw [hentry] at this
          exact this
        · intro _ c hc
          have hne := (hnames d (List.mem_of_find?_eq_some hd)).1 c hc
          have := hpart _ hne (.ofType c.type)
          rw [h.tight.get?_appendText hne, hget] at this
          exact this
        · intro _ p hp current
          have hne := (hnames d (List.mem_of_find?_eq_some hd)).2 p hp
          have := hpart _ hne ⟨p.type, current, none⟩
          rw [h.tight.get?_appendText hne, hget] at this
          cases current <;> exact this

theorem straight_of_built {p : Path} {root : Node} (hp : p.Built)
    (hne : p ≠ Path.parseWith p.separator "") (hliteral : root.Literal)
    (hindexable : root.indexable = true) (target : Target) :
    Request.Straight [] ⟨p, target, root, .propagate⟩ where
  policy := rfl
  literal := hliteral
  indexable := hindexable
  tight := hp.tight_iff.2 hne
  render := hp.render_of_isEmpty
  longer := by simp

theorem bind?_of_straight (hb : b.Standard) (hflight : b.inFlight = [])
    (hnames : b.registry.NamesVisible r.path.separator) (h : r.Straight []) :
    ∃ run, b.bind? r = some run ∧ (∀ e, run.outcome = .failed e → e.isRecursive = false) ∧
      ∀ n, nestingBound r.source ≤ n →
        (Direct.bind b r.path.separator n r.type r.target.take.1 (r.source.get? r.path)).run =
          some run.outcome.bare := by
  have hdirect : r.policy.Direct := h.policy ▸ FailurePolicy.direct_propagate
  obtain ⟨o, t, hrun⟩ := run_of_nestingBound hb hdirect hnames ⟨b.inFlight, []⟩
  have hagree (n : Nat) := (run_binds hb hnames.named n h ⟨b.inFlight, []⟩ hflight).bare
  refine ⟨⟨o, { b with inFlight := t.inFlight }, t.events.reverse⟩, ?_, ?_, fun n hn => ?_⟩
  · rw [bind?, hrun _ (nestingBound_le_allowance b r)]
    rfl
  · intro e he
    exact (hagree (nestingBound r.source)).2 e t (by rw [hrun _ (Nat.le_refl _), ← he])
  · rw [← (hagree n).1, hrun n hn]
    rfl

/-- **Binding by paths is binding nodes directly.**  Where no text holds a reference, a run comes
to what the direct bind makes of the node at the path, whatever it is allowed, and no path in flight
has any part in that.  If names are visible a bind has a result, which is the same for every tree
with that node at that path or another. -/
theorem bind_eq_direct (hb : b.Standard) (hnames : b.registry.Named) {p : Path} (hp : p.Built)
    (hne : p ≠ Path.parseWith p.separator "") {root : Node} (hliteral : root.Literal)
    (hindexable : root.indexable = true) (target : Target) :
    (∀ n s, s.inFlight = [] →
      (b.run n ⟨p, target, root, .propagate⟩ s).map (fun x => x.1.bare) =
        (Direct.bind b p.separator n target.type target.take.1 (root.get? p)).run ∧
      ∀ e t, b.run n ⟨p, target, root, .propagate⟩ s = some (.failed e, t) →
        e.isRecursive = false ∧ e.bare.code = e.rootCause.code) ∧
      (b.registry.NamesVisible p.separator → b.inFlight = [] →
        ∃ run, b.bind? ⟨p, target, root, .propagate⟩ = some run ∧
          (∀ n, nestingBound root ≤ n →
            (Direct.bind b p.separator n target.type target.take.1 (root.get? p)).run =
              some run.outcome.bare) ∧
          (∀ e, run.outcome = .failed e →
            e.isRecursive = false ∧ e.bare.code = e.rootCause.code) ∧
          ∀ (root' : Node) (p' : Path), root'.Literal → root'.indexable = true → p'.Built →
            p' ≠ Path.parseWith p'.separator "" → p'.separator = p.separator →
            root'.get? p' = root.get? p →
              ∃ run', b.bind? ⟨p', target, root', .propagate⟩ = some run' ∧
                run'.outcome.bare = run.outcome.bare) := by
  have hstraight := straight_of_built hp hne hliteral hindexable target
  constructor
  · intro n s hs
    obtain ⟨hdirect, hrecursive⟩ := (run_binds hb hnames n hstraight s hs).bare
    exact ⟨hdirect, fun e t he => ⟨hrecursive e t he, e.code_bare⟩⟩
  intro hvisible hflight
  obtain ⟨run, hrun, hrecursive, hdirect⟩ := bind?_of_straight hb hflight hvisible hstraight
  refine ⟨run, hrun, hdirect, fun e he => ⟨hrecursive e he, e.code_bare⟩, ?_⟩
  intro root' p' hliteral' hindexable' hp' hne' hseparator hnode
  obtain ⟨run', hrun', -, hdirect'⟩ := bind?_of_straight hb hflight (hseparator ▸ hvisible)
    (straight_of_built hp' hne' hliteral' hindexable' target)
  refine ⟨run', hrun', ?_⟩
  have hleft := hdirect _ (Nat.le_max_left (nestingBound root) (nestingBound root'))
  have hright := hdirect' _ (Nat.le_max_right (nestingBound root) (nestingBound root'))
  rw [hseparator, hnode] at hright
  exact Option.some.inj (hright.symm.trans hleft)

end Binder

namespace Sample

def row : Node := .map [("a", .map [("next", .map [("next", .null)])])]

/-- The links are bound by their paths as they are bound directly. -/
theorem row_bound_directly :
    ((binder row).Standard ∧ (binder row).registry.Named ∧ Path.Built (.parse "a") ∧
      Path.parse "a" ≠ Path.parseWith '.' "" ∧ row.Literal ∧ row.indexable = true) ∧
    ∃ run, (binder row).bind? ⟨.parse "a", .ofType link, row, .propagate⟩ = some run ∧
      ∀ n, Binder.nestingBound row ≤ n →
        (Direct.bind (binder row) '.' n link none (row.get? (.parse "a"))).run =
          some run.outcome.bare := by
  have hnames := namesVisible_binder row
  have hne : Path.parse "a" ≠ Path.parseWith '.' "" := by decide
  have hliteral : row.Literal := by
    simp [Node.Literal, row, Node.texts, Node.textsEntries]
  obtain ⟨-, hbind⟩ := Binder.bind_eq_direct (b := binder row) rfl hnames.named (.parse '.' "a") hne
    hliteral rfl (.ofType link)
  obtain ⟨run, hrun, hdirect, -⟩ := hbind hnames rfl
  exact ⟨⟨rfl, hnames.named, .parse '.' "a", hne, hliteral, rfl⟩, run, hrun, hdirect⟩

end Sample

end ConfigBind
