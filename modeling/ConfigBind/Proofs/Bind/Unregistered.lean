import ConfigBind.Proofs.Bind.Histories
import ConfigBind.Proofs.Bind.Members

/-!
# Members of unregistered types

A descriptor may be registered without the types of the members of its type.  A record has such a
member bound like any other, so that it fails at its own path.  A bean asks for each property
whether its type is a leaf before it has it bound, and ends there if the type is not registered:
the policy learns of the failure at the path of the bean only, the properties behind it are not
bound, and the errors of those before it are lost.

* `Strategy.performs_bindProperties_of_unknown`: where going through properties ends.
* `Binder.unregistered_members`: what becomes of members of unregistered types.
* `Sample.lock_is_not_bound`: a record leaves such a member out that a bean fails for.
-/

namespace ConfigBind

namespace Strategy

open Attempt

variable {f : Request → Bind (Outcome Value)} {ctx : Context} {r : Request} {s t : Session}
  {calls : List Exchange} {before after : List Property} {p : Property}

theorem bindProperties_append (xs ys : List Property) (target : Value) (errors : List BindError) :
    bindProperties ctx r (xs ++ ys) target errors =
      bindProperties ctx r xs target errors >>= fun x => bindProperties ctx r ys x.1 x.2 := by
  induction xs generalizing target errors with
  | nil => rfl
  | cons p rest ih =>
    rw [List.cons_append, bindProperties, bindProperties, bind_assoc]
    congr 1
    funext leaf
    split
    · rw [bind_assoc]
      simp only [ih]
    · dsimp only
      rw [bind_assoc]
      congr 1
      funext o
      cases o with
      | present v =>
        dsimp only
        cases p.set target v <;> exact ih _ _
      | empty =>
        dsimp only
        rw [bind_assoc]
        simp only [ih]
      | failed e => exact ih _ _

/-- **The first property of an unknown type ends going through properties**, whatever became of
those before it. -/
theorem performs_bindProperties_of_unknown (hmode : ctx.mode = .deep)
    (hknown : ∀ q ∈ before, (ctx.describe? q.type).isSome = true)
    (hp : ctx.describe? p.type = none) {target : Value} {errors : List BindError}
    {x : Except BindError (Value × List BindError)}
    (h : Performs f (bindProperties ctx r (before ++ p :: after) target errors) s calls x t) :
    List.Forall₂ (fun q y => ∃ current, y.request = r.property q current) before calls ∧
      x = .error (.unregisteredType p.type.name) := by
  rw [bindProperties_append] at h
  obtain ⟨first, rest, y, u, rfl, hfirst, hrest⟩ := performs_bind h
  obtain ⟨hrequests, found, rfl, -⟩ := performs_bindProperties hmode hknown hfirst
  obtain ⟨v, -, hrest⟩ | ⟨e, he, -⟩ := hrest
  · rw [bindProperties, isLeaf_eq_throw hp] at hrest
    obtain ⟨rfl, rfl⟩ := performs_throw hrest
    rw [List.append_nil]
    exact ⟨hrequests, rfl⟩
  · cases he

/-- What the bind of a bean comes to that has a property of an unknown type: those before it have
been bound, and the bean fails as if its own type were not registered. -/
structure BeanStopped (r : Request) (before : List Property) (p : Property) (calls : List Exchange)
    (o : Outcome Value) : Prop where
  requests : List.Forall₂ (fun q x => ∃ current, x.request = r.property q current) before calls
  failed : o = .failed (.unregisteredType p.type.name)

theorem performs_bean_of_unknown {d : Descriptor} {entries : List (String × Node)}
    {o : Outcome Value} (hmode : ctx.mode = .deep) (hd : ctx.describe? r.type = some d)
    (hkind : d.kind = .bean) (hn : r.source.resolve? r.path = some (.map entries)) {start : Value}
    (hstart : StartsFrom d r start) (hproperties : d.writableProperties = before ++ p :: after)
    (hknown : ∀ q ∈ before, (ctx.describe? q.type).isSome = true)
    (hp : ctx.describe? p.type = none) (h : (bean.bind ctx r).Performs f s calls o t) :
    BeanStopped r before p calls o := by
  obtain ⟨z, u, hperforms, hfailed, -⟩ := performs_properties hd hkind hn hstart h
  rw [hproperties] at hperforms
  obtain ⟨hrequests, rfl⟩ := performs_bindProperties_of_unknown hmode hknown hp hperforms
  exact ⟨hrequests, hfailed _ rfl⟩

end Strategy

/-! ## Runs -/

namespace Binder

open Strategy

variable {b : Binder} {n : Nat} {r : Request} {s t : Session} {o : Outcome Value}

/-- A failure was put to the policy of its request, which decided on the outcome. -/
def Decided (b : Binder) (n : Nat) (e : BindError) (x : Exchange) : Prop :=
  (b.recovery x.request e x.before).exec (b.run n) x.before = some (x.outcome, x.after) ∧
    Event.asked x.request.policy.name x.request.path.render x.request.type e
      x.before.inFlight.length ∈ x.after.events

theorem asked_of_recovery (hb : b.Standard) {e : BindError}
    (h : (b.recovery r e s).exec (b.run n) s = some (o, t)) :
    Event.asked r.policy.name r.path.render r.type e s.inFlight.length ∈ t.events := by
  have hall : (b.recovery r e s).Only (fun _ => True) fun _ => True :=
    Script.Only.mono (only_recovery_of_within (A := fun _ => True) (fun _ _ _ _ _ _ _ => trivial)
      e s) (fun _ _ => trivial) fun _ _ => trivial
  have hsub : (s.report r e).events ⊆ t.events :=
    Script.exec_rel (R := fun s t => s.events ⊆ t.events) (fun _ => List.Subset.refl _)
      (fun _ _ _ => List.Subset.trans) (fun s e _ => List.subset_cons_self e s.events)
      (fun _ _ _ _ _ hr => events_subset_of_run hb hr) hall.2.2 h
  exact hsub List.mem_cons_self

theorem decided_of_unregistered (hb : b.Standard) {x : Exchange}
    (hx : b.registry.get? x.request.type = none)
    (h : b.run n x.request x.before = some (x.outcome, x.after)) :
    ∃ m, n = m + 1 ∧ b.Decided m (.unregisteredType x.request.type.name) x := by
  cases n with
  | zero => cases h
  | succ m =>
    rw [run_of_error (strategyFor_of_get?_eq_none hx)] at h
    exact ⟨m, rfl, h, asked_of_recovery hb h⟩

/-- **A bean ends at a property of an unregistered type, which a record goes past.**  A record has
all its components bound, and exactly their errors; a bean has the properties bound that come before
the first one of an unregistered type, and fails with the error about that type. -/
theorem unregistered_members (hb : b.Standard) (hdeep : b.mode = .deep) {d : Descriptor}
    (hd : b.registry.get? r.type = some d) {entries : List (String × Node)}
    (hn : r.source.resolve? r.path = some (.map entries)) (hm : r.path.render ∉ s.inFlight) :
    (∀ n o t, b.run (n + 1) r s = some (o, t) → ∃ calls o' u u',
      ((ofKind d.kind).bind b.context r).Performs (b.run n) (entry (ofKind d.kind) r s)
          calls o' u ∧
        (∀ x ∈ calls, b.registry.get? x.request.type = none →
          ∃ m, n = m + 1 ∧ b.Decided m (.unregisteredType x.request.type.name) x) ∧
        (∀ components construct, d.shape = .record components construct →
          RecordBound r d components calls o') ∧
        (∀ properties factory start, d.shape = .bean properties factory → StartsFrom d r start →
          ((∀ p ∈ d.writableProperties, (b.registry.get? p.type).isSome = true) →
            BeanBound r d start calls o') ∧
          ∀ before p after, d.writableProperties = before ++ p :: after →
            (∀ q ∈ before, (b.registry.get? q.type).isSome = true) →
              b.registry.get? p.type = none → BeanStopped r before p calls o') ∧
        b.settle (b.run n) r o' u = some (o, u') ∧ t = u'.leave r.path.render ∧
        (r.policy = .propagate → o = o'.wrapAt r.path r.type)) ∧
    (r.policy.Direct → b.registry.NamesVisible r.path.separator →
      ∃ o t, ∀ n, nestingBound r.source ≤ n → b.run n r s = some (o, t)) := by
  have hst : b.strategyFor r.type = .ok (ofKind d.kind) := hb.strategyFor_eq hd
  refine ⟨fun n o t hrun => ?_, fun hpolicy hnames => run_of_nestingBound hb hpolicy hnames s⟩
  rcases run_cases hrun with ⟨e, hnone, -⟩ | ⟨strategy, hstrategy, ⟨hmem, -⟩ | ⟨-, hbound⟩⟩
  · rw [hst] at hnone
    cases hnone
  · exact absurd hmem hm
  -- a map holds no reference, so the strategy for the kind performs the bind
  obtain rfl := Except.ok.inj (hst.symm.trans hstrategy)
  obtain ⟨o', u, u', hdelegate, hsettle, rfl⟩ := hbound
  rw [delegate_of_map _ hn] at hdelegate
  obtain ⟨calls, hcalls⟩ := Script.exec_iff_performs.1 hdelegate
  refine ⟨calls, o', u, u', hcalls, fun x hx hnone =>
    decided_of_unregistered hb hnone (hcalls.bound hx), ?_, ?_, hsettle, rfl, ?_⟩
  · intro components construct hshape
    rw [Descriptor.kind, hshape] at hcalls
    exact performs_record hdeep hd hshape hn hcalls
  · intro properties factory start hshape hstart
    have hkind : d.kind = .bean := by rw [Descriptor.kind, hshape]; rfl
    rw [hkind] at hcalls
    refine ⟨fun hknown => performs_bean hdeep hd hkind hn hknown hstart hcalls, ?_⟩
    intro before p after hproperties hknown hp
    exact performs_bean_of_unknown hdeep hd hkind hn hstart hproperties hknown hp hcalls
  · intro hpolicy
    rw [settle_exec_eq hpolicy] at hsettle
    exact (Prod.mk.inj (Option.some.inj hsettle)).1.symm

end Binder

namespace Sample

def door : TypeRef := ⟨"Door", "Door"⟩

def lock : TypeRef := ⟨"Lock", "Lock"⟩

def nameField : Field := ⟨"name", "name", .text, false, .text "", true⟩

def openField : Field := ⟨"open", "open", .bool, false, .bool false, true⟩

def doorDescriptor : Descriptor := .ofRecord door [nameField, openField] .ok

def lockDescriptor : Descriptor :=
  .ofBean lock [nameField, openField] [] (some (.ofFields [nameField, openField]))

def front : Node := .map [("a", .map [("name", .text "front"), ("open", .bool true)])]

def textless : Binder :=
  { Binder.new ⟨[]⟩ ⟨"Tree", "Tree"⟩ front with
    registry := ((Registry.empty.insert doorDescriptor).insert lockDescriptor).insert
      ⟨.bool, .scalar⟩
    strategies := Strategy.builtin }

theorem standard_textless : textless.Standard := Strategy.arrange_nil.symm

def frontRequest (t : TypeRef) (policy : FailurePolicy) : Request :=
  ⟨.parse "a", .ofType t, front, policy⟩

theorem run_door : ∃ t, textless.run 2 (frontRequest door .ignore) ⟨[], []⟩ =
      some (.present ⟨door, .object [("name", .text ""), ("open", .bool true)]⟩, t) ∧
    t.asked = [.asked "ignore" "a.name" .text (.unregisteredType TypeRef.text.name) 1] :=
  ⟨_, rfl, rfl⟩

theorem run_lock : ∃ t, textless.run 1 (frontRequest lock .ignore) ⟨[], []⟩ = some (.empty, t) ∧
    t.asked = [.asked "ignore" "a" lock (.unregisteredType TypeRef.text.name) 1] :=
  ⟨_, rfl, rfl⟩

/-- The components of the door are bound, and the lock ends at its first property. -/
theorem lock_ends_at_its_name :
    (textless.Standard ∧ textless.mode = .deep ∧
      textless.registry.get? door = some doorDescriptor ∧
      textless.registry.get? lock = some lockDescriptor ∧ textless.registry.get? .text = none) ∧
    (∃ o t calls o', textless.run 2 (frontRequest door .ignore) ⟨[], []⟩ = some (o, t) ∧
      Strategy.RecordBound (frontRequest door .ignore) doorDescriptor
        [nameField.component, openField.component] calls o' ∧
      ∀ x ∈ calls, textless.registry.get? x.request.type = none →
        textless.Decided 0 (.unregisteredType x.request.type.name) x) ∧
    ∃ o t calls o', textless.run 1 (frontRequest lock .ignore) ⟨[], []⟩ = some (o, t) ∧
      Strategy.BeanStopped (frontRequest lock .ignore) [] (nameField.property lock) calls o' := by
  have hdoor : textless.registry.get? door = some doorDescriptor := rfl
  have hlock : textless.registry.get? lock = some lockDescriptor := rfl
  refine ⟨⟨standard_textless, rfl, hdoor, hlock, rfl⟩, ?_, ?_⟩
  · obtain ⟨t, hrun, -⟩ := run_door
    obtain ⟨hmembers, -⟩ := Binder.unregistered_members (r := frontRequest door .ignore)
      (s := ⟨[], []⟩) standard_textless rfl hdoor rfl (by decide)
    obtain ⟨calls, o', -, -, -, hdecided, hrecord, -⟩ := hmembers 1 _ t hrun
    refine ⟨_, t, calls, o', hrun, hrecord _ _ rfl, fun x hx hnone => ?_⟩
    obtain ⟨m, hm, hx⟩ := hdecided x hx hnone
    obtain rfl : m = 0 := by omega
    exact hx
  · obtain ⟨t, hrun, -⟩ := run_lock
    obtain ⟨hmembers, -⟩ := Binder.unregistered_members (r := frontRequest lock .ignore)
      (s := ⟨[], []⟩) standard_textless rfl hlock rfl (by decide)
    obtain ⟨calls, o', -, -, -, -, -, hbean, -⟩ := hmembers 0 _ t hrun
    exact ⟨_, t, calls, o', hrun,
      (hbean _ _ _ rfl (.inr ⟨rfl, rfl⟩)).2 [] _ [openField.property lock] rfl nofun rfl⟩

theorem bind?_front {t : TypeRef} {n : Nat} {o : Outcome Value} {u : Session}
    (h : textless.run n (frontRequest t .ignore) ⟨[], []⟩ = some (o, u)) (hn : n ≤ 3) :
    ∃ run, textless.bind? (frontRequest t .ignore) = some run ∧ run.outcome = o ∧
      run.events = u.events.reverse := by
  have hbound := Binder.le_nestingBound front
  have hle := Binder.nestingBound_le_allowance textless (frontRequest t .ignore)
  have hsource : (frontRequest t .ignore).source = front := rfl
  rw [hsource] at hle
  exact ⟨_, Binder.bind?_of_run h (by omega), rfl, rfl⟩

/-- If failures are ignored, a door is bound without the name that cannot be bound.  A lock of the
same fields is not bound, and the policy is not asked at the path of the name. -/
theorem lock_is_not_bound :
    (∃ run, textless.bind? (frontRequest door .ignore) = some run ∧
      run.outcome = .present ⟨door, .object [("name", .text ""), ("open", .bool true)]⟩ ∧
      Event.asked "ignore" "a.name" .text (.unregisteredType TypeRef.text.name) 1 ∈ run.events) ∧
    ∃ run, textless.bind? (frontRequest lock .ignore) = some run ∧ run.outcome = .empty ∧
      run.outcome ≠ .present ⟨lock, .object [("name", .text ""), ("open", .bool true)]⟩ ∧
      ∀ policy t e k, Event.asked policy "a.name" t e k ∉ run.events := by
  constructor
  · obtain ⟨t, hrun, hasked⟩ := run_door
    obtain ⟨run, hbind, ho, hevents⟩ := bind?_front hrun (by omega)
    have hmem : Event.asked "ignore" "a.name" .text (.unregisteredType TypeRef.text.name) 1 ∈
        t.asked := by
      rw [hasked]
      exact List.mem_singleton_self _
    refine ⟨run, hbind, ho, ?_⟩
    rw [hevents, List.mem_reverse]
    exact (List.mem_filter.1 hmem).1
  · obtain ⟨t, hrun, hasked⟩ := run_lock
    obtain ⟨run, hbind, ho, hevents⟩ := bind?_front hrun (by omega)
    refine ⟨run, hbind, ho, by simp [ho], fun policy u e k hmem => ?_⟩
    rw [hevents, List.mem_reverse] at hmem
    have hmem : Event.asked policy "a.name" u e k ∈ t.asked := List.mem_filter.2 ⟨hmem, rfl⟩
    rw [hasked, List.mem_singleton] at hmem
    simp at hmem

end Sample

end ConfigBind
