import ConfigBind.Proofs.Bind.Absence
import ConfigBind.Proofs.Bind.Calls

/-!
# Binding into an instance

Without data at a path, a bind into an instance gives the instance back untouched.  That there is
data is decided at the path itself, while the bind follows references, so the two disagree where the
text at the path refers to nothing: then the bind is empty and the instance is lost.

* `Binder.bindInto?_of_absent`: without data the instance is the outcome, and nothing happens.
* `Binder.bindInto?_eq`: with data, binding into an instance is a bind as any other.
* `Binder.bindInto?_empty_iff`: the instance is lost exactly where a reference leads to nothing.
-/

namespace ConfigBind

/-! ## Dangling references -/

namespace Node

variable {root : Node} {p : Path}

/-- The text at the path is a reference, and what it refers to vanishes without coming back. -/
def Dangles (root : Node) (p : Path) : Prop :=
  ∃ next, root.redirection? p = some next ∧ root.Vanishes [p.render] next

theorem resolve?_of_redirection? {next : Path} (h : root.redirection? p = some next) :
    ∃ text, root.resolve? p = some (.text text) := by
  unfold redirection? at h
  split at h
  · rename_i text hn
    refine ⟨text, ?_⟩
    rw [resolve?, hn]
    rfl
  · cases h

theorem contains_of_dangles (h : root.Dangles p) : root.contains p = true := by
  obtain ⟨next, hnext, -⟩ := h
  obtain ⟨text, htext⟩ := resolve?_of_redirection? hnext
  rw [contains, htext]
  rfl

/-- A path vanishes if there is no data at it, or a reference that dangles. -/
theorem vanishes_iff : root.Vanishes [] p ↔ root.contains p = false ∨ root.Dangles p := by
  constructor
  · intro h
    obtain ⟨-, habsent | hdangles⟩ := h.cases
    · left
      rw [contains, habsent]
      rfl
    · exact .inr hdangles
  · rintro (habsent | ⟨next, hnext, hrest⟩)
    · apply vanishes_of_absent
      · simp
      · rw [contains] at habsent
        simpa using habsent
    · exact .step (by simp) hnext hrest

end Node

/-! ## Binds into instances -/

theorem Outcome.cast_eq_empty_iff {o : Outcome Value} {t : TypeRef} :
    o.cast t = .empty ↔ o = .empty := by
  cases o with
  | present value =>
    rw [cast, bind]
    by_cases htype : value.type = t <;> simp [htype]
  | empty => simp [cast, bind]
  | failed e => simp [cast, bind]

namespace Binder

variable {b : Binder} {p : Path} {x : Value}

/-- The request to bind a path of the binder's tree into an instance. -/
def intoRequest (b : Binder) (p : Path) (x : Value) : Request :=
  ⟨p, (Target.ofType x.type).withInstance x, b.source, b.policy⟩

/-- **Without data the instance is the outcome**, and nothing happens. -/
theorem bindInto?_of_absent (h : b.source.contains p = false) :
    b.bindInto? p x = some ⟨.present x, b.register x.type, []⟩ := by
  have hcontains : (b.register x.type).source.contains p = false := h
  unfold bindInto?
  dsimp only
  rw [if_neg (by simp [hcontains])]

theorem bindInto?_eq (h : b.source.contains p = true) :
    b.bindInto? p x = ((b.register x.type).bind? (b.intoRequest p x)).map fun run =>
      { run with outcome := run.outcome.cast x.type } := by
  have hcontains : (b.register x.type).source.contains p = true := h
  unfold bindInto?
  dsimp only
  rw [if_pos hcontains]
  rfl

theorem exists_cast_empty_iff (bound : Option Run) (t : TypeRef) :
    (∃ run, (bound.map fun run => { run with outcome := run.outcome.cast t }) = some run ∧
      run.outcome = .empty) ↔ ∃ run, bound = some run ∧ run.outcome = .empty := by
  cases bound with
  | none => simp
  | some run => simp [Outcome.cast_eq_empty_iff]

theorem bind?_empty_iff (hb : b.Standard) (hclosed : b.registry.Closed)
    (hflight : b.inFlight = []) {r : Request} (hpolicy : r.policy = .propagate)
    (htype : (b.registry.get? r.type).isSome = true) :
    (∃ run, b.bind? r = some run ∧ run.outcome = .empty) ↔ r.source.Vanishes [] r.path := by
  constructor
  · rintro ⟨run, hrun, hempty⟩
    obtain ⟨n, o, t, hexec, rfl⟩ := endsWith_of_bind? hrun
    obtain rfl : o = .empty := hempty
    have hvanishes := vanishes_of_run hb hclosed hpolicy hexec
    rwa [hflight] at hvanishes
  · intro h
    exact bind?_of_vanishes hb hpolicy htype (hflight ▸ h)

/-- **Binding into an instance loses it exactly where a reference dangles.**  Where the bind of a
type is empty there is no data at the path, or a reference that dangles.  Without data the instance
is the outcome; a dangling reference is data, so the bind is as empty as it is without an instance.
If names are visible all these binds have results. -/
theorem bindInto?_empty_iff (hb : b.Standard) (hflight : b.inFlight = [])
    (hpolicy : b.policy = .propagate) (p : Path) (x : Value)
    (hclosed : (b.register x.type).registry.Closed)
    (htype : ((b.register x.type).registry.get? x.type).isSome = true) :
    ((∃ run, b.bindPath? p x.type = some run ∧ run.outcome = .empty) ↔
        b.source.contains p = false ∨ b.source.Dangles p) ∧
      (b.source.contains p = false →
        b.bindInto? p x = some ⟨.present x, b.register x.type, []⟩) ∧
      ((∃ run, b.bindInto? p x = some run ∧ run.outcome = .empty) ↔ b.source.Dangles p) ∧
      (b.NamesVisible p.separator →
        (b.bindPath? p x.type).isSome = true ∧ (b.bindInto? p x).isSome = true) := by
  have hdirect : b.policy.Direct := hpolicy ▸ FailurePolicy.direct_propagate
  have hstandard : (b.register x.type).Standard := hb
  refine ⟨?_, bindInto?_of_absent, ?_, fun hnames => ⟨?_, ?_⟩⟩
  · rw [← Node.vanishes_iff, ← bind?_empty_iff (b := b.register x.type)
      (r := ⟨p, .ofType x.type, b.source, b.policy⟩) hstandard hclosed hflight hpolicy htype]
    exact exists_cast_empty_iff _ _
  · cases hdata : b.source.contains p with
    | false =>
      rw [bindInto?_of_absent hdata]
      constructor
      · rintro ⟨run, hrun, hempty⟩
        rw [← Option.some.inj hrun] at hempty
        cases hempty
      · intro hdangles
        rw [Node.contains_of_dangles hdangles] at hdata
        cases hdata
    | true =>
      have hvanishes : b.source.Vanishes [] p ↔ b.source.Dangles p := by
        rw [Node.vanishes_iff, hdata]
        simp
      rw [bindInto?_eq hdata, exists_cast_empty_iff, ← hvanishes]
      exact bind?_empty_iff (r := b.intoRequest p x) hstandard hclosed hflight hpolicy htype
  · exact isSome_bindWith? hb hdirect hnames
  · show (b.perform? (.into p x)).isSome = true
    exact isSome_perform? hb hdirect hnames

end Binder

namespace Sample

def kept : Value := ⟨.text, .text "kept"⟩

theorem dangles_dangling : dangling.Dangles (.parse "a") := by
  have ha : dangling.redirection? (.parse "a") = some (.parse "b") := by decide
  have hb : dangling.redirection? (.parse "b") = some (.parse "gone") := by decide
  refine ⟨.parse "b", ha, .step (by decide) hb (Node.vanishes_of_absent (by decide) rfl)⟩

/-- The instance is lost at a text that refers to a text that refers to nothing. -/
theorem dangling_instance_is_lost :
    (∃ run, (plainBinder dangling).bindPath? (.parse "a") .text = some run ∧
      run.outcome = .empty) ∧
    ∃ run, (plainBinder dangling).bindInto? (.parse "a") kept = some run ∧
      run.outcome = .empty ∧ run.outcome ≠ .present kept := by
  have hvanishes : dangling.Vanishes [] (.parse "a") :=
    Node.vanishes_iff.2 (.inr dangles_dangling)
  have hempty (target : Target) (htext : target.type = .text) :
      ∃ run, (plainBinder dangling).bind? ⟨.parse "a", target, dangling, .propagate⟩ = some run ∧
        run.outcome = .empty := by
    refine (Binder.bind?_empty_iff (b := plainBinder dangling) rfl (closed_plainBinder dangling)
      rfl rfl ?_).2 hvanishes
    show ((plainBinder dangling).registry.get? target.type).isSome = true
    rw [htext]
    decide
  constructor
  · exact (Binder.exists_cast_empty_iff _ _).2 (hempty (.ofType .text) rfl)
  · obtain ⟨run, hrun, hnone⟩ := (Binder.exists_cast_empty_iff _ .text).2
      (hempty ((Target.ofType .text).withInstance kept) rfl)
    refine ⟨run, ?_, hnone, ?_⟩
    · rw [Binder.bindInto?_eq (b := plainBinder dangling) rfl]
      exact hrun
    · rw [hnone]
      simp

theorem kept_unless_dangling :
    ((plainBinder dangling).Standard ∧ (plainBinder dangling).inFlight = [] ∧
      (plainBinder dangling).policy = .propagate ∧
      ((plainBinder dangling).register kept.type).registry.Closed ∧
      (((plainBinder dangling).register kept.type).registry.get? kept.type).isSome = true) ∧
    (plainBinder dangling).bindInto? (.parse "gone") kept =
      some ⟨.present kept, plainBinder dangling, []⟩ ∧
    ∃ run, (plainBinder dangling).bindInto? (.parse "a") kept = some run ∧
      run.outcome = .empty := by
  have hclosed := closed_plainBinder dangling
  have htype : ((plainBinder dangling).registry.get? .text).isSome = true := by decide
  obtain ⟨-, hkept, -⟩ := Binder.bindInto?_empty_iff (b := plainBinder dangling) rfl rfl rfl
    (.parse "gone") kept hclosed htype
  obtain ⟨-, -, hlost, -⟩ := Binder.bindInto?_empty_iff (b := plainBinder dangling) rfl rfl rfl
    (.parse "a") kept hclosed htype
  exact ⟨⟨rfl, rfl, rfl, hclosed, htype⟩, hkept rfl, hlost.2 dangles_dangling⟩

end Sample

end ConfigBind
