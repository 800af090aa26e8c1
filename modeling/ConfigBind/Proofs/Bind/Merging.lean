import ConfigBind.Proofs.Bind.Successes
import ConfigBind.Proofs.Types.Joining

/-!
# Binding into a value

Binding into a value and binding afresh bind the same parts.  Unless it is a bean that is bound at a
map, what is bound into a value is the value joined with what is bound afresh (`Datum.Joined`): the
items and entries of lists, sets and maps go on top of the old ones, and anything else takes the
place of the old value.

* `Strategy.joined_of_exec`: what a strategy makes of a value.
* `Binder.joined_of_run`: the same of a run, along references.
-/

namespace ConfigBind

/-- The request for a fresh value, whatever it was to be bound into. -/
def Request.fresh (r : Request) : Request := { r with target := .ofType r.type }

/-! ## Attempts -/

namespace Attempt

variable {α : Type} {f : Request → Bind (Outcome Value)} {s t : Session} {old v : Value}
  {kind : TypeKind}

/-- Whatever value the attempt gives, the other one gives a value in the same way, and the first is
the old value joined with it. -/
def Joins (old : Value) (kind : TypeKind) (a fresh : Attempt (Option Value)) : Prop :=
  ∀ f s t v, exec f a s = some (.ok (some v), t) →
    ∃ new, exec f fresh s = some (.ok (some new), t) ∧ old.datum.Joined new.datum kind v.datum

theorem joins_throw (e : BindError) (fresh : Attempt (Option Value)) :
    Joins old kind (throw e) fresh := nofun

theorem joins_none (fresh : Attempt (Option Value)) : Joins old kind (pure none) fresh := nofun

theorem joins_bind {a : Attempt α} {k k' : α → Attempt (Option Value)}
    (h : ∀ x, Joins old kind (k x) (k' x)) : Joins old kind (a >>= k) (a >>= k') := by
  intro f s t v hv
  rw [exec_bind, Option.bind_eq_some_iff] at hv
  obtain ⟨⟨e | x, u⟩, ha, hk⟩ := hv
  · cases hk
  · rw [exec_bind_of_ok ha]
    exact h x f u t v hk

theorem joins_ofBuild {built built' : Except BuildError Value}
    (h : ∀ v, built = .ok v → ∃ new, built' = .ok new ∧ old.datum.Joined new.datum kind v.datum) :
    Joins old kind (Attempt.ofBuild built >>= fun v => pure (some v))
      (Attempt.ofBuild built' >>= fun v => pure (some v)) := by
  intro f s t v hv
  cases built with
  | error e => cases hv
  | ok w =>
    cases hv
    obtain ⟨new, rfl, hjoined⟩ := h v rfl
    exact ⟨new, rfl, hjoined⟩

theorem Joins.outcome {a fresh : Attempt (Option Value)} (h : Joins old kind a fresh)
    (hv : a.outcome.exec f s = some (.present v, t)) :
    ∃ new, fresh.outcome.exec f s = some (.present new, t) ∧
      old.datum.Joined new.datum kind v.datum := by
  rw [exec_outcome] at hv ⊢
  obtain ⟨⟨e | _ | w, u⟩, hexec, heq⟩ := Option.map_eq_some_iff.1 hv
  · cases heq
  · cases heq
  · obtain ⟨hpresent, rfl⟩ := Prod.mk.inj heq
    obtain rfl := Outcome.present.inj hpresent
    obtain ⟨new, hnew, hjoined⟩ := h f s u w hexec
    exact ⟨new, by rw [hnew]; rfl, hjoined⟩

end Attempt

/-! ## Parts -/

section

variable {ctx : Context} {r : Request}

theorem Context.bindElementsFrom_fresh {item : TypeRef} {onEmpty : Path → Attempt Unit}
    (count i : Nat) : ctx.bindElementsFrom r.fresh item onEmpty count i =
      ctx.bindElementsFrom r item onEmpty count i := by
  induction count generalizing i with
  | zero => rfl
  | succ count ih =>
    simp only [bindElementsFrom, ih]
    rfl

theorem Context.bindElements_fresh {item : TypeRef} {onEmpty : Path → Attempt Unit} :
    ctx.bindElements r.fresh item onEmpty = ctx.bindElements r item onEmpty := by
  simp only [bindElements, bindElementsFrom_fresh]
  rfl

namespace Strategy

open Attempt

theorem bindEntries_fresh {value : TypeRef} (keys : List String) :
    bindEntries ctx r.fresh value keys = bindEntries ctx r value keys := by
  induction keys with
  | nil => rfl
  | cons key rest ih =>
    simp only [bindEntries, ih]
    rfl

theorem bindComponents_fresh {components : List Component} (values : Components)
    (errors : List BindError) : bindComponents ctx r.fresh components values errors =
      bindComponents ctx r components values errors := by
  induction components generalizing values errors with
  | nil => rfl
  | cons c rest ih =>
    simp only [bindComponents, ih]
    rfl

/-! ## Values -/

variable {d : Descriptor} {old : Value}

theorem joins_collect {a : Attempt (Option (List Value))} : Joins old d.kind
    (do
      match ← a with
      | none => return none
      | some items => return some (← Attempt.ofBuild (d.collect (some old) items)))
    (do
      match ← a with
      | none => return none
      | some items => return some (← Attempt.ofBuild (d.collect none items))) := by
  refine joins_bind fun x => ?_
  cases x with
  | none => exact joins_none _
  | some items => exact joins_ofBuild fun v hv => Descriptor.joined_of_collect hv

theorem joins_bindList {item : TypeRef} (hd : ctx.describe? r.type = some d)
    (hshape : d.shape = .list item) (hold : r.target.take.1 = some old) :
    Joins old .list (bindList ctx r) (bindList ctx r.fresh) := by
  have hkind : d.kind = .list := by rw [Descriptor.kind, hshape]; rfl
  have hfresh : ctx.describe? r.fresh.type = some d := hd
  rw [bindList, descriptor_eq hd, pure_bind, hshape, bindList, descriptor_eq hfresh, pure_bind,
    hshape]
  dsimp only
  rw [Context.bindElements_fresh, hold, ← hkind]
  exact joins_collect

theorem joins_bindSet {item : TypeRef} (hd : ctx.describe? r.type = some d)
    (hshape : d.shape = .set item) (hold : r.target.take.1 = some old) :
    Joins old .set (bindSet ctx r) (bindSet ctx r.fresh) := by
  have hkind : d.kind = .set := by rw [Descriptor.kind, hshape]; rfl
  have hfresh : ctx.describe? r.fresh.type = some d := hd
  rw [bindSet, descriptor_eq hd, pure_bind, hshape, bindSet, descriptor_eq hfresh, pure_bind,
    hshape]
  dsimp only
  rw [Context.bindElements_fresh, hold, ← hkind]
  exact joins_collect

theorem joins_bindMap {value : TypeRef} (hd : ctx.describe? r.type = some d)
    (hshape : d.shape = .map value) (hold : r.target.take.1 = some old) :
    Joins old .map (bindMap ctx r) (bindMap ctx r.fresh) := by
  have hkind : d.kind = .map := by rw [Descriptor.kind, hshape]; rfl
  have hfresh : ctx.describe? r.fresh.type = some d := hd
  rw [bindMap, descriptor_eq hd, pure_bind, hshape, bindMap, descriptor_eq hfresh, pure_bind,
    hshape]
  dsimp only [Request.fresh]
  cases r.source.resolve? r.path with
  | none => exact joins_none _
  | some n =>
    dsimp only
    cases n.entries? with
    | none => exact joins_throw _ _
    | some nodes =>
      dsimp only
      have hentries : bindEntries ctx r.fresh value (nodes.map (·.1)) =
          bindEntries ctx r value (nodes.map (·.1)) := bindEntries_fresh _
      rw [Request.fresh] at hentries
      rw [hold, hentries, ← hkind]
      exact joins_bind fun entries => joins_ofBuild fun v hv =>
        Descriptor.joined_of_collectEntries hv

theorem bind_fresh (hd : ctx.describe? r.type = some d)
    (hother : d.kind = .bean → ∀ entries, r.source.resolve? r.path ≠ some (.map entries))
    (hlist : d.kind ≠ .list) (hset : d.kind ≠ .set) (hmap : d.kind ≠ .map) :
    (ofKind d.kind).bind ctx r.fresh = (ofKind d.kind).bind ctx r := by
  have hfresh : ctx.describe? r.fresh.type = some d := hd
  cases hkind : d.kind with
  | scalar => rfl
  | object =>
    show (bindBean ctx r.fresh).outcome = (bindBean ctx r).outcome
    rw [bindBean, bindBean, descriptor_eq hd, descriptor_eq hfresh, pure_bind, pure_bind, hkind]
    rfl
  | record =>
    show (bindRecord ctx r.fresh).outcome = (bindRecord ctx r).outcome
    simp only [bindRecord, bindComponents_fresh]
    rfl
  | array =>
    show (bindArray ctx r.fresh).outcome = (bindArray ctx r).outcome
    simp only [bindArray, Context.bindElements_fresh]
    rfl
  | bean =>
    show (bindBean ctx r.fresh).outcome = (bindBean ctx r).outcome
    rw [bindBean, bindBean, descriptor_eq hd, descriptor_eq hfresh, pure_bind, pure_bind, hkind]
    dsimp only [Request.fresh]
    cases hn : r.source.resolve? r.path with
    | none => rfl
    | some n =>
      have hnomap : ¬ n.isMap = true := fun h => by
        obtain ⟨entries, rfl⟩ := Node.eq_map_of_isMap h
        exact hother hkind entries hn
      dsimp only
      rw [if_neg hnomap, if_neg hnomap]
      rfl
  | list => exact absurd hkind hlist
  | set => exact absurd hkind hset
  | map => exact absurd hkind hmap

/-- **What is bound into a value is the value joined with what is bound afresh**, unless it is a
bean at a map. -/
theorem joined_of_exec {f : Request → Bind (Outcome Value)} {s t : Session} {v : Value}
    (hd : ctx.describe? r.type = some d)
    (hother : d.kind = .bean → ∀ entries, r.source.resolve? r.path ≠ some (.map entries))
    (hold : r.target.take.1 = some old)
    (h : ((ofKind d.kind).bind ctx r).exec f s = some (.present v, t)) :
    ∃ new, ((ofKind d.kind).bind ctx r.fresh).exec f s = some (.present new, t) ∧
      old.datum.Joined new.datum d.kind v.datum := by
  cases hshape : d.shape
  case list =>
    rw [Descriptor.kind, hshape] at h ⊢
    exact (joins_bindList hd hshape hold).outcome h
  case set =>
    rw [Descriptor.kind, hshape] at h ⊢
    exact (joins_bindSet hd hshape hold).outcome h
  case map =>
    rw [Descriptor.kind, hshape] at h ⊢
    exact (joins_bindMap hd hshape hold).outcome h
  all_goals
    refine ⟨v, ?_, ?_⟩
    · rwa [bind_fresh hd hother] <;> simp [Descriptor.kind, hshape, Shape.kind]
    · rw [Descriptor.kind, hshape]
      rfl

end Strategy

end

/-! ## Runs -/

namespace Binder

variable {b : Binder} {n : Nat} {r : Request} {s t : Session} {d : Descriptor} {old v : Value}

/-- **A run into a value comes to the value joined with what a fresh run comes to**, unless it is a
bean and references lead to a map. -/
theorem joined_of_run (hb : b.Standard) (hpolicy : r.policy = .propagate)
    (hd : b.registry.get? r.type = some d)
    (hother : d.kind = .bean → ∀ via q entries, r.source.Leads r.path via q →
      r.source.resolve? q ≠ some (.map entries))
    (hold : r.target.take.1 = some old) (h : b.run n r s = some (.present v, t)) :
    ∃ new, b.run n r.fresh s = some (.present new, t) ∧
      old.datum.Joined new.datum d.kind v.datum := by
  induction n generalizing r s t with
  | zero => cases h
  | succ n ih =>
    obtain ⟨strategy, u, hst, hm, hdelegate, rfl⟩ := run_succeeding hpolicy rfl h
    obtain rfl := Except.ok.inj (hst.symm.trans (hb.strategyFor_eq hd))
    have hjoined : ∃ new, (b.delegate (Strategy.ofKind d.kind) r.fresh).exec (b.run n)
        (entry (Strategy.ofKind d.kind) r s) = some (.present new, u) ∧
          old.datum.Joined new.datum d.kind v.datum := by
      cases hpath : redirection? r with
      | some path =>
        have hfresh : redirection? r.fresh = some path := hpath
        rw [delegate_exec_of_redirection hpath] at hdelegate
        rw [delegate_exec_of_redirection hfresh]
        exact ih (r := { r with path }) hpolicy hd
          (fun hkind via q entries hleads => hother hkind _ q entries (.step hpath hleads)) hold
          hdelegate
      | none =>
        have hfresh : redirection? r.fresh = none := hpath
        rw [delegate, hpath] at hdelegate
        rw [delegate, hfresh]
        exact Strategy.joined_of_exec hd
          (fun hkind entries => hother hkind [] r.path entries (.refl _)) hold hdelegate
    obtain ⟨new, hnew, hjoined⟩ := hjoined
    exact ⟨new, run_of_settle (r := r.fresh) hst hm hnew rfl, hjoined⟩

end Binder

end ConfigBind
