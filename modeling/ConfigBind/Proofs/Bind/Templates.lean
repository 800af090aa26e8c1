import ConfigBind.Proofs.Bind.Histories
import ConfigBind.Proofs.Bind.Members
import ConfigBind.Proofs.Text.Decomposition

/-!
# Binding templates

A text with references in it is bound to a scalar by binding the references to texts, from left to
right, and converting the text that they are put into.  The references are bound with the path of
the text in flight, and further paths below them, which makes no difference unless the bind is a
recursive failure: `Binder.run_of_subset`, on the scalar types alone (`Binder.scalars`), which a
bind of a scalar never leaves.

* `Strategy.performs_scalar`: what the strategy for scalars makes of the binds of the references.
* `Binder.templates_are_spliced`: the references come to what they are bound to on their own.
-/

namespace ConfigBind

/-! ## Texts -/

/-- The text that the bind of a text came to. -/
def Outcome.text (o : Outcome Value) : Outcome String :=
  (o.cast .text).bind fun v =>
    match v.datum with
    | .text text => .present text
    | _ => .failed (.build (.typeMismatch TypeRef.text.name))

theorem Outcome.text_present_of_ne {v : Value} (h : v.type ≠ .text) :
    (present v).text = .failed (.build (.typeMismatch TypeRef.text.name)) := by
  have hcast : (present v).cast .text = .failed (.build (.typeMismatch TypeRef.text.name)) :=
    if_neg h
  rw [text, hcast]
  rfl

theorem Outcome.text_present {v : Value} (h : v.type = .text) : (present v).text =
    match v.datum with
    | .text text => .present text
    | _ => .failed (.build (.typeMismatch TypeRef.text.name)) := by
  have hcast : (present v).cast .text = .present v := if_pos h
  rw [text, hcast]
  rfl

@[simp] theorem Outcome.isRecursive_text (o : Outcome Value) :
    o.text.isRecursive = o.isRecursive := by
  cases o with
  | present v =>
    by_cases h : v.type = .text
    · rw [text_present h]
      cases v.datum <;> rfl
    · rw [text_present_of_ne h]
      rfl
  | _ => rfl

def Request.reference (r : Request) (reference : String) : Request :=
  r.below (Path.parseWith r.path.separator reference) .text

/-- What converting a node to a type comes to. -/
def Conversion.outcome (c : Conversion) (n : Node) (t : TypeRef) : Outcome Value :=
  match c.convert n t with
  | .ok value => .present value
  | .error e => .failed (.conversion e)

/-- What the bind of a template comes to by the binds of its references, which are asked for from
left to right: the text that is filled with their values is converted; or else one of them, the last
that is asked for, has failed, and so does the whole. -/
inductive Spliced (c : Conversion) (r : Request) (t : Text.Template) :
    List Exchange → Outcome Value → Prop
  | filled {calls : List Exchange} {values : List (Option String)}
      (hrequests : calls.map (·.request) = t.references.map r.reference)
      (hvalues : calls.map (·.outcome.text) = values.map .ofOption) :
      Spliced c r t calls (c.outcome (.text (String.ofList (t.filledWith values))) r.type)
  | rejected {calls : List Exchange} {before after : List String} {reference : String}
      {values : List (Option String)} {e : BindError}
      (hreferences : t.references = before ++ reference :: after)
      (hrequests : calls.map (·.request) = (before ++ [reference]).map r.reference)
      (hvalues : calls.map (·.outcome.text) = values.map .ofOption ++ [.failed e]) :
      Spliced c r t calls (.failed e)

theorem Spliced.isRecursive_of_mem {c : Conversion} {r : Request} {t : Text.Template}
    {calls : List Exchange} {o : Outcome Value} (h : Spliced c r t calls o)
    (ho : o.isRecursive = false) {x : Exchange} (hx : x ∈ calls) :
    x.outcome.isRecursive = false := by
  have hvalue : ∀ value : Option String, (Outcome.ofOption value).isRecursive = false := by
    rintro (_ | value) <;> rfl
  have htext : x.outcome.text ∈ calls.map (·.outcome.text) := List.mem_map_of_mem hx
  rw [← Outcome.isRecursive_text]
  cases h with
  | filled _ hvalues =>
    rw [hvalues] at htext
    obtain ⟨value, -, heq⟩ := List.mem_map.1 htext
    rw [← heq]
    exact hvalue value
  | rejected _ _ hvalues =>
    rw [hvalues] at htext
    rcases List.mem_append.1 htext with hmem | hmem
    · obtain ⟨value, -, heq⟩ := List.mem_map.1 hmem
      rw [← heq]
      exact hvalue value
    · rw [List.mem_singleton.1 hmem, Outcome.isRecursive_failed]
      rwa [Outcome.isRecursive_failed] at ho

theorem Spliced.exists_reference {c : Conversion} {r : Request} {t : Text.Template}
    {calls : List Exchange} {o : Outcome Value} (h : Spliced c r t calls o) {x : Exchange}
    (hx : x ∈ calls) : ∃ reference, x.request = r.reference reference := by
  have hrequest : x.request ∈ calls.map (·.request) := List.mem_map_of_mem hx
  cases h with
  | filled hrequests _ =>
    rw [hrequests] at hrequest
    obtain ⟨reference, -, heq⟩ := List.mem_map.1 hrequest
    exact ⟨reference, heq.symm⟩
  | rejected _ hrequests _ =>
    rw [hrequests] at hrequest
    obtain ⟨reference, -, heq⟩ := List.mem_map.1 hrequest
    exact ⟨reference, heq.symm⟩

/-! ## The strategy -/

namespace Strategy

open Attempt Text

variable {f : Request → Bind (Outcome Value)} {ctx : Context} {r : Request} {s t : Session}
  {calls : List Exchange}

theorem performs_resolveReference {reference : String} {y : Except BindError (Option String)}
    (h : Performs f (resolveReference ctx r reference) s calls y t) :
    ∃ o u, calls = [⟨r.reference reference, s, o, u⟩] ∧ y = o.text.toExcept := by
  rw [resolveReference] at h
  obtain ⟨o, u, rest, rfl, hrest⟩ := performs_bind_bind h
  refine ⟨o, u, ?_⟩
  cases o with
  | empty =>
    obtain ⟨rfl, rfl⟩ := performs_pure hrest
    exact ⟨rfl, rfl⟩
  | failed e =>
    obtain ⟨rfl, rfl⟩ := performs_throw hrest
    exact ⟨rfl, rfl⟩
  | present v =>
    by_cases htype : v.type = .text
    · have hcast : (Outcome.present v).cast .text = .present v := if_pos htype
      rw [hcast] at hrest
      rw [Outcome.text_present htype]
      dsimp only [Outcome.toExcept] at hrest
      cases hdatum : v.datum <;> rw [hdatum] at hrest
      case text =>
        obtain ⟨rfl, rfl⟩ := performs_pure hrest
        exact ⟨rfl, rfl⟩
      all_goals
        obtain ⟨rfl, rfl⟩ := performs_throw hrest
        exact ⟨rfl, rfl⟩
    · have hcast : (Outcome.present v).cast .text =
          .failed (.build (.typeMismatch TypeRef.text.name)) := if_neg htype
      rw [hcast] at hrest
      rw [Outcome.text_present_of_ne htype]
      obtain ⟨rfl, rfl⟩ := performs_throw hrest
      exact ⟨rfl, rfl⟩

/-- **The references of a template are bound from left to right**, up to the first that fails. -/
theorem performs_fillPieces {tail : List Char} {pieces : List (List Char × List Char)}
    {y : Except BindError (List Char)}
    (h : Performs f (Template.fillPieces (resolveReference ctx r) tail pieces) s calls y t) :
    (∃ values : List (Option String),
      calls.map (·.request) = (Template.mk pieces tail).references.map r.reference ∧
      calls.map (·.outcome.text) = values.map .ofOption ∧
      y = .ok ((Template.mk pieces tail).filledWith values)) ∨
    ∃ before reference after, ∃ values : List (Option String), ∃ e,
      (Template.mk pieces tail).references = before ++ reference :: after ∧
      calls.map (·.request) = (before ++ [reference]).map r.reference ∧
      calls.map (·.outcome.text) = values.map .ofOption ++ [.failed e] ∧ y = .error e := by
  induction pieces generalizing s t calls y with
  | nil =>
    obtain ⟨rfl, rfl⟩ := performs_pure h
    exact .inl ⟨[], rfl, rfl, rfl⟩
  | cons piece pieces ih =>
    obtain ⟨literal, name⟩ := piece
    rw [Template.fillPieces] at h
    obtain ⟨first, rest, z, u, rfl, hfirst, hrest⟩ := performs_bind h
    obtain ⟨o, w, rfl, rfl⟩ := performs_resolveReference hfirst
    rw [Template.references_cons]
    -- the first reference is bound and the others go on, or it fails and ends the calls
    rcases hrest with ⟨value, hvalue, hrest⟩ | ⟨e, he, rfl, rfl, -⟩
    · have htext : o.text = .ofOption value := by
        rw [← o.text.ofExcept_toExcept, hvalue]
        rfl
      obtain ⟨more, last, z, v, rfl, hmore, hlast⟩ := performs_bind hrest
      rcases ih hmore with ⟨values, hrequests, hvalues, rfl⟩ |
        ⟨before, reference, after, values, e, hsplit, hrequests, hvalues, rfl⟩
      · obtain ⟨filled, hfilled, hlast⟩ | ⟨e, he, -⟩ := hlast
        · obtain rfl := Except.ok.inj hfilled
          obtain ⟨rfl, rfl⟩ := performs_pure hlast
          refine .inl ⟨value :: values, ?_, ?_, ?_⟩
          · rw [List.append_nil]
            exact congrArg (_ :: ·) hrequests
          · rw [List.append_nil, List.map_cons, ← htext]
            exact congrArg (o.text :: ·) hvalues
          · rw [Template.filledWith_cons]
        · cases he
      · obtain ⟨filled, hfilled, -⟩ | ⟨e', he', rfl, rfl, -⟩ := hlast
        · cases hfilled
        · obtain rfl := Except.error.inj he'
          refine .inr ⟨String.ofList (trim name) :: before, reference, after, value :: values, e,
            ?_, ?_, ?_, rfl⟩
          · rw [hsplit]
            rfl
          · rw [List.append_nil]
            exact congrArg (_ :: ·) hrequests
          · rw [List.append_nil, List.map_cons, ← htext]
            exact congrArg (o.text :: ·) hvalues
    · have htext : o.text = .failed e := by
        rw [← o.text.ofExcept_toExcept, he]
        rfl
      exact .inr ⟨[], _, _, [], e, rfl, rfl, congrArg (fun x => [x]) htext, rfl⟩

/-- **A text with references is spliced together from their binds.** -/
theorem performs_scalar {text : String} (hn : r.source.resolve? r.path = some (.text text))
    (href : hasReference text.toList = true) {o : Outcome Value}
    (h : (scalar.bind ctx r).Performs f s calls o t) :
    Spliced ctx.conversion r (.parse text.toList) calls o := by
  obtain ⟨y, hy, rfl⟩ := performs_outcome h
  rw [bindScalar, hn] at hy
  dsimp only at hy
  rw [if_pos href] at hy
  obtain ⟨first, rest, z, u, rfl, hfirst, hrest⟩ := performs_bind hy
  rcases performs_fillPieces hfirst with ⟨values, hrequests, hvalues, rfl⟩ |
    ⟨before, reference, after, values, e, hsplit, hrequests, hvalues, rfl⟩
  · obtain ⟨filled, hfilled, hrest⟩ | ⟨e, he, -⟩ := hrest
    · obtain rfl := Except.ok.inj hfilled
      have houtcome : rest = [] ∧ Outcome.ofExcept y = ctx.conversion.outcome
          (.text (String.ofList ((Template.parse text.toList).filledWith values))) r.type := by
        rw [Context.convert] at hrest
        unfold Conversion.outcome
        cases hconvert : ctx.conversion.convert
            (.text (String.ofList ((Template.parse text.toList).filledWith values))) r.type with
        | ok v =>
          rw [hconvert] at hrest
          obtain ⟨rfl, rfl⟩ := performs_pure hrest
          exact ⟨rfl, rfl⟩
        | error e =>
          rw [hconvert] at hrest
          obtain ⟨rfl, rfl⟩ := performs_throw hrest
          exact ⟨rfl, rfl⟩
      obtain ⟨rfl, houtcome⟩ := houtcome
      rw [houtcome, List.append_nil]
      exact .filled hrequests hvalues
    · cases he
  · obtain ⟨filled, hfilled, -⟩ | ⟨e', he', rfl, rfl, -⟩ := hrest
    · cases hfilled
    · obtain rfl := Except.error.inj he'
      rw [List.append_nil]
      exact .rejected hsplit hrequests hvalues

end Strategy

/-! ## The scalar types alone -/

/-- The type is registered as a scalar. -/
def Registry.HasScalar (r : Registry) (t : TypeRef) : Prop :=
  ∃ d, r.get? t = some d ∧ d.kind = .scalar

theorem Descriptor.shape_of_scalar {d : Descriptor} (h : d.kind = .scalar) : d.shape = .scalar := by
  unfold kind at h
  cases hshape : d.shape <;> rw [hshape] at h <;> first | rfl | cases h

/-- The registry with its scalar types only. -/
def Registry.scalars (r : Registry) : Registry :=
  { r with types := r.types.filter (·.kind == .scalar) }

namespace Registry

variable {r : Registry} {t : TypeRef} {d : Descriptor}

theorem kind_of_get?_scalars (h : r.scalars.get? t = some d) : d.kind = .scalar :=
  eq_of_beq (List.mem_filter.1 (List.mem_of_find?_eq_some h)).2

theorem get?_scalars (h : r.get? t = some d) (hd : d.kind = .scalar) :
    r.scalars.get? t = some d := by
  obtain ⟨htype, before, after, htypes, hbefore⟩ := List.find?_eq_some_iff_append.1 h
  refine List.find?_eq_some_iff_append.2 ⟨htype, before.filter (·.kind == .scalar),
    after.filter (·.kind == .scalar), ?_, fun x hx => hbefore x (List.mem_filter.1 hx).1⟩
  simp [scalars, htypes, List.filter_append, hd]

theorem closed_scalars (r : Registry) : r.scalars.Closed := by
  intro t d hd u hu
  rw [Descriptor.dependencies, Descriptor.shape_of_scalar (kind_of_get?_scalars hd)] at hu
  cases hu

theorem namesVisible_scalars (r : Registry) (separator : Char) :
    r.scalars.NamesVisible separator := by
  intro d hd
  have hshape := Descriptor.shape_of_scalar (eq_of_beq (List.mem_filter.1 hd).2)
  constructor
  · intro c hc
    rw [Descriptor.components, hshape] at hc
    cases hc
  · intro p hp
    rw [Descriptor.writableProperties, Descriptor.properties, hshape] at hp
    cases hp

end Registry

namespace Binder

variable {b : Binder} {r : Request} {n : Nat} {s t : Session} {o : Outcome Value}

def scalars (b : Binder) : Binder := { b with registry := b.registry.scalars }

theorem Standard.strategyFor_scalar (hb : b.Standard) {t : TypeRef}
    (h : b.registry.HasScalar t) : b.strategyFor t = .ok Strategy.scalar := by
  obtain ⟨d, hd, hscalar⟩ := h
  rw [hb.strategyFor_eq hd, hscalar]
  rfl

theorem alike_scalars (b : Binder) :
    b.context.Alike b.registry.HasScalar b.scalars.context where
  describe := by
    rintro t ⟨d, hd, hscalar⟩
    exact hd.trans (Registry.get?_scalars hd hscalar).symm
  conversion := rfl
  mode := rfl
  closed := by
    rintro t d ⟨d', hd', hscalar⟩ hd u hu
    obtain rfl := Option.some.inj (hd'.symm.trans hd)
    rw [Descriptor.dependencies, Descriptor.shape_of_scalar hscalar] at hu
    cases hu

/-- **A bind of a scalar type makes use of no other types.** -/
theorem run_scalars (hb : b.Standard) (htext : b.registry.HasScalar .text)
    (hr : b.registry.HasScalar r.type) (hpolicy : r.policy.Direct) (n : Nat) (s : Session) :
    b.run n r s = b.scalars.run n r s := by
  have hscalars : b.scalars.Standard := hb
  exact run_of_alike hb hscalars b.alike_scalars htext n hr hpolicy s

theorem isSome_bind?_of_scalar (hb : b.Standard) (htext : b.registry.HasScalar .text)
    (hr : b.registry.HasScalar r.type) (hpolicy : r.policy.Direct) : (b.bind? r).isSome = true := by
  obtain ⟨o, t, h⟩ := run_of_nestingBound (b := b.scalars) hb hpolicy
    (b.registry.namesVisible_scalars _) ⟨b.inFlight, []⟩
  have h := h _ le_rfl
  rw [← run_scalars hb htext hr hpolicy] at h
  rw [bind?_of_run h (nestingBound_le_allowance b r)]
  rfl

/-- **On its own a bind of a scalar type comes to the same as with further paths in flight**, unless
it is a recursive failure. -/
theorem bind?_of_run_scalar (hb : b.Standard) (htext : b.registry.HasScalar .text)
    (hr : b.registry.HasScalar r.type) (hpolicy : r.policy = .propagate)
    (h : b.run n r s = some (o, t)) (ho : o.isRecursive = false) (hs : b.inFlight ⊆ s.inFlight) :
    ∃ run, b.bind? r = some run ∧ run.outcome = o := by
  have hdirect : r.policy.Direct := hpolicy ▸ FailurePolicy.direct_propagate
  rw [run_scalars hb htext hr hdirect] at h
  have hsub : (Session.mk b.inFlight []).inFlight ⊆ s.inFlight := hs
  obtain ⟨t', hown⟩ := run_of_subset (b := b.scalars) hb b.registry.closed_scalars hpolicy h ho hsub
  rw [← run_scalars hb htext hr hdirect] at hown
  obtain ⟨run, hrun⟩ := Option.isSome_iff_exists.1 (isSome_bind?_of_scalar hb htext hr hdirect)
  have hends : b.EndsWith r ⟨o, { b with inFlight := t'.inFlight }, t'.events.reverse⟩ :=
    ⟨n, o, t', hown, rfl⟩
  exact ⟨run, hrun, by rw [(endsWith_of_bind? hrun).unique hends]⟩

theorem exists_spliced (hb : b.Standard) (hpolicy : r.policy = .propagate)
    (htype : b.registry.HasScalar r.type) (htext : b.registry.HasScalar .text) {text : String}
    (hn : r.source.get? r.path = some (.text text))
    (href : Text.hasReference text.toList = true)
    (hwhole : Text.wholeReference? text.toList = none) {run : Run} (hrun : b.bind? r = some run)
    (hrecursive : ∀ e, run.outcome = .failed e → e.isRecursive = false) :
    ∃ n calls o u, (Strategy.scalar.bind b.context r).Performs (b.run n)
        (entry Strategy.scalar r ⟨b.inFlight, []⟩) calls o u ∧
      Spliced b.conversion r (.parse text.toList) calls o ∧
      run.outcome = o.wrapAt r.path r.type ∧
      ∀ x ∈ calls, ∃ own, b.bind? x.request = some own ∧ own.outcome = x.outcome := by
  obtain ⟨m, o, t, hexec, rfl⟩ := endsWith_of_bind? hrun
  have ho : o.isRecursive = false := Outcome.isRecursive_eq_false_iff.2 hrecursive
  have hst := hb.strategyFor_scalar htype
  have hdelegate : b.delegate Strategy.scalar r = Strategy.scalar.bind b.context r := by
    rw [delegate, redirection?, hn]
    dsimp only
    rw [hwhole]
    rfl
  have hresolve : r.source.resolve? r.path = some (.text text) := by
    rw [Node.resolve?, hn]
    rfl
  cases m with
  | zero => cases hexec
  | succ n =>
    rcases run_standing hpolicy hexec with ⟨e, hnone, -⟩ | ⟨strategy, hstrategy, h⟩
    · rw [hst] at hnone
      cases hnone
    obtain rfl := Except.ok.inj (hst.symm.trans hstrategy)
    rcases h with ⟨-, rfl, -⟩ | ⟨-, o', u, hscript, rfl, rfl⟩
    · rw [isRecursive_wrapped] at ho
      cases ho
    rw [Outcome.isRecursive_wrapAt] at ho
    rw [hdelegate] at hscript
    obtain ⟨calls, hcalls⟩ := Script.exec_iff_performs.1 hscript
    have hspliced := Strategy.performs_scalar hresolve href hcalls
    refine ⟨n, calls, o', u, hcalls, hspliced, rfl, fun x hx => ?_⟩
    -- the path of the text is in flight whenever a reference is bound
    have hflight : x.before.inFlight = r.path.render :: b.inFlight :=
      hcalls.before_of (I := fun s => s.inFlight = r.path.render :: b.inFlight)
        (fun _ _ hs => hs) (fun _ _ _ _ hr hs => (run_traced hb hr).inFlight.trans hs) rfl x hx
    obtain ⟨reference, hreference⟩ := hspliced.exists_reference hx
    refine bind?_of_run_scalar hb htext ?_ ?_ (hcalls.bound hx) (hspliced.isRecursive_of_mem ho hx)
      (hflight ▸ List.subset_cons_self _ _)
    · rw [hreference]
      exact htext
    · rw [hreference]
      exact hpolicy

/-- **Templates are spliced together from what their references are bound to on their own.**  These
are bound from left to right, and the first failure is that of the whole; without one the text with
their values in place is converted. -/
theorem templates_are_spliced (hb : b.Standard) (hpolicy : r.policy = .propagate)
    (htype : b.registry.HasScalar r.type) (htext : b.registry.HasScalar .text) {text : String}
    (hn : r.source.get? r.path = some (.text text))
    (href : Text.hasReference text.toList = true)
    (hwhole : Text.wholeReference? text.toList = none) :
    (b.bind? r).isSome = true ∧
    (∀ reference, (b.bind? (r.reference reference)).isSome = true) ∧
    ∀ run, b.bind? r = some run → (∀ e, run.outcome = .failed e → e.isRecursive = false) →
      ∃ n calls o u, (Strategy.scalar.bind b.context r).Performs (b.run n)
          (entry Strategy.scalar r ⟨b.inFlight, []⟩) calls o u ∧
        Spliced b.conversion r (.parse text.toList) calls o ∧
        run.outcome = o.wrapAt r.path r.type ∧
        ∀ x ∈ calls, ∃ own, b.bind? x.request = some own ∧ own.outcome = x.outcome := by
  have hdirect : r.policy.Direct := hpolicy ▸ FailurePolicy.direct_propagate
  refine ⟨isSome_bind?_of_scalar hb htext htype hdirect,
    fun reference => isSome_bind?_of_scalar hb htext htext hdirect, fun run hrun hrecursive => ?_⟩
  exact exists_spliced hb hpolicy htype htext hn href hwhole hrun hrecursive

end Binder

namespace Sample

/-- The number is the digit that its reference is bound to, with another digit behind it. -/
theorem number_is_spliced :
    ((knowing .standard).Standard ∧ number.policy = .propagate ∧
      (knowing .standard).registry.HasScalar number.type ∧
      (knowing .standard).registry.HasScalar .text ∧
      number.source.get? number.path = some (.text "$\x7bb\x7d1") ∧
      Text.hasReference "$\x7bb\x7d1".toList = true ∧
      Text.wholeReference? "$\x7bb\x7d1".toList = none) ∧
    ∃ run calls o, (knowing .standard).bind? number = some run ∧
      run.outcome = .present ⟨IntegerType.u16.ref, .int 81⟩ ∧
      Spliced (knowing .standard).conversion number ⟨[([], ['b'])], ['1']⟩ calls o ∧
      ∀ x ∈ calls, ∃ own, (knowing .standard).bind? x.request = some own ∧
        own.outcome = x.outcome := by
  have htype : (knowing .standard).registry.HasScalar number.type := ⟨_, rfl, rfl⟩
  have htext : (knowing .standard).registry.HasScalar .text := ⟨_, rfl, rfl⟩
  have hn : number.source.get? number.path = some (.text "$\x7bb\x7d1") := rfl
  have href : Text.hasReference "$\x7bb\x7d1".toList = true := by decide
  have hwhole : Text.wholeReference? "$\x7bb\x7d1".toList = none := by decide
  obtain ⟨hsome, -, hspliced⟩ := Binder.templates_are_spliced (b := knowing .standard)
    (r := number) rfl rfl htype htext hn href hwhole
  obtain ⟨run, hrun⟩ := Option.isSome_iff_exists.1 hsome
  have hnumber : ∃ t, (knowing .standard).run 2 number ⟨[], []⟩ =
      some (.present ⟨IntegerType.u16.ref, .int 81⟩, t) := run_number_present rfl rfl
  obtain ⟨t, hnumber⟩ := hnumber
  have houtcome : run.outcome = .present ⟨IntegerType.u16.ref, .int 81⟩ := by
    have hends : (knowing .standard).EndsWith number _ := ⟨2, _, t, hnumber, rfl⟩
    rw [(Binder.endsWith_of_bind? hrun).unique hends]
  obtain ⟨n, calls, o, u, -, hcalls, -, hown⟩ := hspliced run hrun (by simp [houtcome])
  rw [parse_spliced] at hcalls
  exact ⟨⟨rfl, rfl, htype, htext, hn, href, hwhole⟩, run, calls, o, hrun, houtcome, hcalls, hown⟩

end Sample

end ConfigBind
