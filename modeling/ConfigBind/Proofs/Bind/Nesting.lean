import ConfigBind.Proofs.Bind.Trace
import ConfigBind.Proofs.Path.Children
import ConfigBind.Proofs.Types.Registration

/-!
# How deep binds nest

Types may contain themselves and references may lead anywhere in a tree, so neither ends a run.
What does: a part of a value lies strictly below it (`Node.levels`), and the text of a reference is
the text of a path that is in flight from then on, so that no reference is followed twice
(`Binder.pending`).  `Binder.demand` combines the two.

* `Binder.demand_part_lt`: the demand drops with every part that is asked for.
* `Binder.run_of_demand`: a run that is allowed its demand has a result.
* `Binder.run_of_nestingBound`: no run needs more than `Binder.nestingBound`.
* `Binder.bind?_iff_endsWith`: so a bind has the result that it would end with if it were allowed
  more.
-/

namespace ConfigBind

/-- The policy does not have another path bound. -/
def FailurePolicy.Direct (policy : FailurePolicy) : Prop :=
  ∀ earlier path t e other u, policy.onFailure earlier path t e ≠ .rebind other u

theorem FailurePolicy.direct_propagate : propagate.Direct := by
  intro earlier path t e other u h
  cases h

theorem FailurePolicy.direct_ignore : ignore.Direct := by
  intro earlier path t e other u h
  cases h

/-- A name that is not all separators. -/
def Visible (separator : Char) (name : String) : Prop := ∃ c ∈ name.toList, c ≠ separator

/-- The names of the components are visible, and those that data uses for properties. -/
def Descriptor.NamesVisible (d : Descriptor) (separator : Char) : Prop :=
  (∀ c ∈ d.components, Visible separator c.name) ∧
    ∀ p ∈ d.writableProperties, Visible separator p.bindingName

/-- The names in all registered types are visible. -/
def Registry.NamesVisible (r : Registry) (separator : Char) : Prop :=
  ∀ d ∈ r.types, d.NamesVisible separator

/-- The names in all types of the catalogue are visible. -/
def Catalog.NamesVisible (c : Catalog) (separator : Char) : Prop :=
  ∀ d ∈ c.descriptors, d.NamesVisible separator

theorem Registry.namesVisible_standard (separator : Char) :
    standard.NamesVisible separator := by
  intro d hd
  have hshape := shape_of_mem_standard hd
  constructor
  · intro c hc
    rw [Descriptor.components, hshape] at hc
    cases hc
  · intro p hp
    rw [Descriptor.writableProperties, Descriptor.properties, hshape] at hp
    cases hp

theorem Registry.NamesVisible.register {r : Registry} {c : Catalog} {separator : Char}
    (h : r.NamesVisible separator) (hc : c.NamesVisible separator) (t : TypeRef) :
    (r.register c t).2.NamesVisible separator :=
  fun d hd => (mem_types_register hd).elim (h d) (hc d)

theorem Visible.ne_empty {separator : Char} {name : String} (h : Visible separator name) :
    name ≠ "" := by
  rintro rfl
  obtain ⟨c, hc, -⟩ := h
  simp at hc

theorem visible_bracketed (separator : Char) (text : String) :
    Visible separator ("[" ++ text ++ "]") := by
  by_cases h : separator = '['
  · exact ⟨']', by simp [String.toList_append], by rw [h]; decide⟩
  · exact ⟨'[', by simp [String.toList_append], Ne.symm h⟩

theorem visible_keyText (separator : Char) (key : String) :
    Visible separator (Path.keyText separator key) := by
  rcases Path.keyText_cases separator key with ht | ⟨ht, hne, hplain⟩
  · rw [ht]
    exact visible_bracketed separator key
  · rw [ht]
    obtain ⟨c, hc⟩ := List.exists_mem_of_ne_nil _ (show key.toList ≠ [] by simpa using hne)
    exact ⟨c, hc, (hplain c hc).2.2⟩

/-! ## Levels -/

/-- The levels of data at a path and below.  Below a path without text a name is looked up in the
whole tree. -/
def Node.levels (root : Node) (p : Path) : Nat :=
  if p.isEmpty then root.depth + 1 else ((root.get? p).map fun n => n.depth + 1).getD 0

theorem Node.levels_le (root : Node) (p : Path) : root.levels p ≤ root.depth + 1 := by
  unfold levels
  split
  · exact Nat.le_refl _
  · cases h : root.get? p with
    | none => simp
    | some n => simpa using depth_le_of_get? h

/-- **A visible name leads down.** -/
theorem Node.levels_appendText_lt {root n : Node} {p : Path} {text : String}
    (hvisible : Visible p.separator text) (hn : root.get? p = some n) :
    root.levels (p.appendText text) < root.levels p := by
  have hne := hvisible.ne_empty
  have hmark := Path.exists_not_isBlank_mem_segments hvisible
  have hlevels : root.levels (p.appendText text) =
      ((root.get? (p.appendText text)).map fun n => n.depth + 1).getD 0 := by
    rw [levels, Path.isEmpty_appendText hne, if_neg (by decide)]
  rw [hlevels, levels]
  cases hp : p.isEmpty with
  | true =>
    rw [if_pos rfl, Path.appendText_of_isEmpty hp hne]
    cases hm : root.get? (Path.parseWith p.separator text) with
    | none => simp
    | some m =>
      have := depth_lt_of_follow? hmark hm
      simpa using this
  | false =>
    rw [if_neg (by decide), hn, get?, Path.segments_appendText_of_not_isEmpty hp hne,
      follow?_append]
    rw [get?] at hn
    rw [hn, Option.bind_some]
    cases hm : n.follow? (Path.parseWith p.separator text).segments with
    | none => simp
    | some m =>
      have := depth_lt_of_follow? hmark hm
      simpa using this

/-! ## Parts -/

namespace Part

variable {ctx : Context} {r r' : Request}

theorem source_eq (h : Part ctx r r') : r'.source = r.source := by cases h <;> rfl

theorem policy_eq (h : Part ctx r r') : r'.policy = r.policy := by cases h <;> rfl

theorem separator_eq (h : Part ctx r r') : r'.path.separator = r.path.separator := by
  cases h with
  | entry _ _ _ _ hchild =>
    obtain ⟨rfl, -⟩ := Path.segments_of_atKey? hchild
    exact Path.separator_appendText _ _
  | element => exact Path.separator_appendText _ _
  | component => exact Path.separator_appendText _ _
  | property => exact Path.separator_appendText _ _
  | reference => rfl
  | redirected => rfl

end Part

namespace Binder

variable {b : Binder} {r r' : Request} {held : List String}

theorem mem_references {root : Node} {text reference : String} (ht : text ∈ root.texts)
    (href : reference ∈ (Text.Template.parse text.toList).references) :
    reference ∈ references root :=
  List.mem_eraseDups.2 (List.mem_flatMap.2 ⟨text, ht, href⟩)

/-- A part lies below its request, or is what a reference of the tree refers to. -/
theorem levels_lt_or_refers (hnames : b.registry.NamesVisible r.path.separator)
    (h : Part b.context r r') : r.source.levels r'.path < r.source.levels r.path ∨
      (∃ n, r.source.get? r.path = some n) ∧ r'.path.render ∈ references r.source := by
  have hvisible : ∀ d, b.context.describe? r.type = some d → d.NamesVisible r.path.separator :=
    fun d hd => hnames d (List.mem_of_find?_eq_some hd)
  cases h with
  | element _ _ hn _ =>
    exact .inl (Node.levels_appendText_lt (visible_bracketed _ _) (Node.get?_of_resolve? hn))
  | entry _ _ hn _ hchild =>
    obtain ⟨rfl, -⟩ := Path.segments_of_atKey? hchild
    exact .inl (Node.levels_appendText_lt (visible_keyText _ _) (Node.get?_of_resolve? hn))
  | component hd hc hn =>
    exact .inl (Node.levels_appendText_lt ((hvisible _ hd).1 _ hc) (Node.get?_of_resolve? hn))
  | property hd hp hn =>
    exact .inl (Node.levels_appendText_lt ((hvisible _ hd).2 _ hp) (Node.get?_of_resolve? hn))
  | reference hn href =>
    exact .inr ⟨⟨_, hn⟩, mem_references (Node.mem_texts_of_get? hn) href⟩
  | redirected hn href =>
    exact .inr ⟨⟨_, hn⟩, mem_references (Node.mem_texts_of_get? hn) href⟩

/-! ## Demand -/

/-- How many of some references are not in flight. -/
def pending (references held : List String) : Nat := references.countP fun ref => ref ∉ held

theorem pending_cons_le (references held : List String) (path : String) :
    pending references (path :: held) ≤ pending references held := by
  refine List.countP_mono_left fun ref _ h => ?_
  simp only [decide_eq_true_eq, List.mem_cons, not_or] at h ⊢
  exact h.2

theorem pending_cons_lt {references held : List String} {path : String}
    (href : path ∈ references) (hm : path ∉ held) :
    pending references (path :: held) < pending references held := by
  obtain ⟨before, after, rfl⟩ := List.append_of_mem href
  have hb := pending_cons_le before held path
  have ha := pending_cons_le after held path
  simp only [pending, List.countP_append, List.countP_cons, List.mem_cons, true_or, not_true,
    decide_false, Bool.false_eq_true, if_false, hm, not_false_iff, decide_true, if_true] at *
  omega

/-- How deep the binds of a request may have to nest. -/
def demand (root : Node) (p : Path) (held : List String) : Nat :=
  if p.render ∈ held then 1
  else pending (references root) (p.render :: held) * (root.depth + 2) + root.levels p + 2

theorem demand_of_not_mem {root : Node} {p : Path} (hm : p.render ∉ held) :
    demand root p held =
      pending (references root) (p.render :: held) * (root.depth + 2) + root.levels p + 2 := by
  rw [demand, if_neg hm]

theorem one_le_demand (root : Node) (p : Path) (held : List String) : 1 ≤ demand root p held := by
  unfold demand
  split <;> omega

theorem demand_le_nestingBound (root : Node) (p : Path) (held : List String) :
    demand root p held ≤ nestingBound root := by
  have hlevels := root.levels_le p
  have hpending : pending (references root) (p.render :: held) ≤ (references root).length :=
    List.countP_le_length
  have := Nat.mul_le_mul_right (root.depth + 2) hpending
  unfold demand nestingBound
  rw [Nat.add_mul]
  split <;> omega

/-- **Every part demands less than its request.** -/
theorem demand_part_lt (hnames : b.registry.NamesVisible r.path.separator)
    (h : Part b.context r r') (hm : r.path.render ∉ held) :
    demand r'.source r'.path (r.path.render :: held) < demand r.source r.path held := by
  rw [demand_of_not_mem hm, h.source_eq]
  by_cases hm' : r'.path.render ∈ r.path.render :: held
  · -- a path in flight is refused at once
    rw [demand, if_pos hm']
    omega
  rw [demand_of_not_mem hm']
  rcases levels_lt_or_refers hnames h with hlevels | ⟨⟨n, hn⟩, href⟩
  · have := Nat.mul_le_mul_right (r.source.depth + 2)
      (pending_cons_le (references r.source) (r.path.render :: held) r'.path.render)
    omega
  · -- a reference may lead up by all levels, which the one that is no longer pending makes up for
    have hlevels := r.source.levels_le r'.path
    have := Nat.mul_le_mul_right (r.source.depth + 2) (pending_cons_lt href hm')
    rw [Nat.succ_mul] at this
    omega

/-! ## Runs -/

variable {s : Session}

theorem only_recovery_of_direct (hpolicy : r.policy.Direct) (e : BindError) (s : Session) :
    (b.recovery r e s).Only (fun _ => True) fun _ => False := by
  refine ⟨trivial, trivial, ?_⟩
  show Script.Only _ _ (b.verdict r _)
  cases h : r.policy.onFailure s.asked r.path r.type e with
  | fallback value => trivial
  | ignore => exact ⟨trivial, trivial⟩
  | fail e => trivial
  | rebind other t => exact absurd h (hpolicy _ _ _ _ _ _)

theorem recovery_of_direct (hpolicy : r.policy.Direct) (e : BindError) (s t : Session)
    (f : Request → Bind (Outcome Value)) :
    ∃ o u, (b.recovery r e s).exec f t = some (o, u) := by
  obtain ⟨o, u, h, -⟩ := Script.exec_isSome (f := f) (I := fun _ => True) (s := t)
    (fun _ _ _ => trivial) (fun _ _ h _ => h.elim) (only_recovery_of_direct hpolicy e s) trivial
  exact ⟨o, u, h⟩

/-- **A run that is allowed its demand has a result.** -/
theorem run_of_demand (hb : b.Standard) {n : Nat} (hpolicy : r.policy.Direct)
    (hnames : b.registry.NamesVisible r.path.separator)
    (hn : demand r.source r.path s.inFlight ≤ n) : ∃ o t, b.run n r s = some (o, t) := by
  induction n generalizing r s with
  | zero =>
    have := one_le_demand r.source r.path s.inFlight
    omega
  | succ n ih =>
    cases hst : b.strategyFor r.type with
    | error e =>
      rw [run_of_error hst]
      exact recovery_of_direct hpolicy e s s _
    | ok strategy =>
      by_cases hm : r.path.render ∈ s.inFlight
      · rw [run_of_mem hst hm]
        exact recovery_of_direct hpolicy _ _ _ _
      · -- every part is bound with the path of the request in flight, since binds restore it
        have hparts : ∀ r' u, Part b.context r r' → u.inFlight = r.path.render :: s.inFlight →
            ∃ o t, b.run n r' u = some (o, t) ∧ t.inFlight = r.path.render :: s.inFlight := by
          intro r' u hpart hu
          have hdemand := demand_part_lt hnames hpart hm
          rw [← hu] at hdemand
          obtain ⟨o, t, h⟩ := ih (hpart.policy_eq ▸ hpolicy) (hpart.separator_eq ▸ hnames)
            (by omega : demand r'.source r'.path u.inFlight ≤ n)
          exact ⟨o, t, h, (run_traced hb h).inFlight.trans hu⟩
        obtain ⟨o, t, hdelegate, -⟩ :=
          Script.exec_isSome (I := fun u => u.inFlight = r.path.render :: s.inFlight)
            (fun u e h => h) hparts (only_delegate hb hst) (s := entry strategy r s) rfl
        have hsettle : ∃ o' t', b.settle (b.run n) r o t = some (o', t') := by
          rw [settle_eq]
          split
          · exact recovery_of_direct hpolicy _ _ _ _
          · exact ⟨_, _, rfl⟩
        obtain ⟨o', t', hsettle⟩ := hsettle
        exact ⟨o', _, run_of_settle hst hm hdelegate hsettle⟩

theorem nestingBound_le_allowance (b : Binder) (r : Request) :
    nestingBound r.source ≤ b.allowance r := by
  unfold nestingBound allowance
  have hsteps : r.source.depth + 2 ≤ (max b.source.depth r.source.depth + 2) *
      (b.strategies.length - Strategy.builtin.length + 1) :=
    Nat.le_trans (by omega) (Nat.le_mul_of_pos_right _ (by omega))
  have hjumps : (references r.source).length + 1 ≤ (references b.source).length +
      (references r.source).length + (b.strategies.length - Strategy.builtin.length) + 1 := by
    omega
  have := Nat.mul_le_mul hjumps hsteps
  dsimp only
  omega

theorem le_nestingBound (root : Node) :
    (references root).length + root.depth + 3 ≤ nestingBound root := by
  have hmul := Nat.add_one_mul (references root).length (root.depth + 2)
  have hpos : 0 < root.depth + 2 := by omega
  have hle := Nat.le_mul_of_pos_right (references root).length hpos
  unfold nestingBound
  omega

theorem three_le_allowance (b : Binder) (r : Request) : 3 ≤ b.allowance r := by
  have hbound := le_nestingBound r.source
  have hle := nestingBound_le_allowance b r
  omega

theorem bind?_of_run {o : Outcome Value} {t : Session} {n : Nat}
    (h : b.run n r ⟨b.inFlight, []⟩ = some (o, t)) (hn : n ≤ b.allowance r) :
    b.bind? r = some ⟨o, { b with inFlight := t.inFlight }, t.events.reverse⟩ := by
  rw [bind?, run_mono h hn]
  rfl

theorem run_of_nestingBound (hb : b.Standard) (hpolicy : r.policy.Direct)
    (hnames : b.registry.NamesVisible r.path.separator) (s : Session) :
    ∃ o t, ∀ n, nestingBound r.source ≤ n → b.run n r s = some (o, t) := by
  obtain ⟨o, t, h⟩ := run_of_demand (s := s) hb hpolicy hnames (demand_le_nestingBound _ _ _)
  exact ⟨o, t, fun n hn => run_mono h hn⟩

theorem isSome_bind? (hb : b.Standard) (hpolicy : r.policy.Direct)
    (hnames : b.registry.NamesVisible r.path.separator) : (b.bind? r).isSome = true := by
  obtain ⟨o, t, h⟩ := run_of_nestingBound hb hpolicy hnames ⟨b.inFlight, []⟩
  rw [bind?_of_run (h _ (nestingBound_le_allowance b r)) (Nat.le_refl _)]
  rfl

/-- The bind of a request ends with `run`, if it may nest as deep as it has to. -/
def EndsWith (b : Binder) (r : Request) (run : Run) : Prop :=
  ∃ n o t, b.run n r ⟨b.inFlight, []⟩ = some (o, t) ∧
    run = ⟨o, { b with inFlight := t.inFlight }, t.events.reverse⟩

theorem EndsWith.unique {x y : Run} (hx : b.EndsWith r x) (hy : b.EndsWith r y) : x = y := by
  obtain ⟨n, o, t, hn, rfl⟩ := hx
  obtain ⟨m, o', t', hm, rfl⟩ := hy
  have hmax := run_mono hn (Nat.le_max_left n m)
  rw [run_mono hm (Nat.le_max_right n m)] at hmax
  obtain ⟨rfl, rfl⟩ := Prod.mk.inj (Option.some.inj hmax)
  rfl

theorem endsWith_of_bind? {run : Run} (h : b.bind? r = some run) : b.EndsWith r run := by
  obtain ⟨⟨o, t⟩, hrun, rfl⟩ := Option.map_eq_some_iff.1 h
  exact ⟨_, o, t, hrun, rfl⟩

/-- **If names are visible, a bind has the result that it ends with.** -/
theorem bind?_iff_endsWith (hb : b.Standard) (hpolicy : r.policy.Direct)
    (hnames : b.registry.NamesVisible r.path.separator) :
    (b.bind? r).isSome = true ∧ ∀ run, b.bind? r = some run ↔ b.EndsWith r run := by
  have hsome := isSome_bind? hb hpolicy hnames
  refine ⟨hsome, fun run => ⟨endsWith_of_bind?, fun hends => ?_⟩⟩
  obtain ⟨run', hrun'⟩ := Option.isSome_iff_exists.1 hsome
  rw [hrun', (endsWith_of_bind? hrun').unique hends]

/-- **Every bind ends.**  Binds of a standard binder whose names are visible nest no deeper than
`nestingBound`, and come to the same whatever more they are allowed; so a bind that is asked for has
a result. -/
theorem bind_terminates (hb : b.Standard) (r : Request) (hpolicy : r.policy.Direct)
    (hnames : b.registry.NamesVisible r.path.separator) (s : Session) :
    (∃ o t, ∀ n, nestingBound r.source ≤ n → b.run n r s = some (o, t)) ∧
      (b.bind? r).isSome = true :=
  ⟨run_of_nestingBound hb hpolicy hnames s, isSome_bind? hb hpolicy hnames⟩

end Binder

/-! ## A type that contains itself -/

namespace Sample

def link : TypeRef := ⟨"Link", "Link"⟩

def catalog : Catalog where
  descriptors := [⟨link, .record [⟨"next", link⟩] do
    return .object [("next", ← Construction.takeOr "next" link .none)]⟩]

def binder (source : Node) : Binder := (Binder.new catalog ⟨"Tree", "Tree"⟩ source).register link

theorem namesVisible_catalog : catalog.NamesVisible '.' := by
  intro d hd
  obtain rfl := List.mem_singleton.1 hd
  refine ⟨fun c hc => ?_, fun p hp => by cases hp⟩
  obtain rfl := List.mem_singleton.1 hc
  exact ⟨'n', by decide, by decide⟩

theorem namesVisible_binder (source : Node) : (binder source).registry.NamesVisible '.' :=
  (Registry.namesVisible_standard '.').register namesVisible_catalog link

def loop : Node := .map [("a", .map [("next", .text "$\x7ba\x7d")])]

def request : Request := ⟨.parse "a", .ofType link, loop, .propagate⟩

/-- A type that contains itself is bound to data that refers to itself, and the bind ends. -/
theorem bind_loop_terminates :
    ((binder loop).Standard ∧ request.policy.Direct ∧
      (binder loop).registry.NamesVisible request.path.separator) ∧
    (∃ o t, ∀ n, Binder.nestingBound loop ≤ n →
      (binder loop).run n request ⟨[], []⟩ = some (o, t)) ∧
      ((binder loop).bind? request).isSome = true :=
  ⟨⟨rfl, FailurePolicy.direct_propagate, namesVisible_binder loop⟩,
    Binder.bind_terminates (b := binder loop) rfl request FailurePolicy.direct_propagate
      (namesVisible_binder loop) ⟨[], []⟩⟩

end Sample

end ConfigBind
