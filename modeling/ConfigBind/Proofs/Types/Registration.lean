import ConfigBind.Types.Registry
import Mathlib.Data.List.Basic

/-!
# Registering types

A type has one descriptor in all registries of use: that of `Registry.standard`, or else the one it
gives of itself (`Catalog.known?`).  A registry that `Holds` such descriptors only, and with a type
all that it depends on, goes on to do so as types are registered.  It is `Faithful` if the standard
types are among them, as they are in the standard registry, and `Closed` if the catalogue is: then
all that its types depend on is registered.

* `Holds.get?_register`: a type that was registered is known.
* `Holds.get?_of_reaches`: what a known type leads to is known, so that such registries agree about
  all of it.
* `Faithful.isClosed`: a faithful registry of a closed catalogue is closed.
-/

namespace ConfigBind

/-- The descriptor that a type is registered with. -/
def Catalog.known? (c : Catalog) (t : TypeRef) : Option Descriptor :=
  (Registry.standard.get? t).or (c.describe? t)

theorem Catalog.type_of_describe? {c : Catalog} {t : TypeRef} {d : Descriptor}
    (h : c.describe? t = some d) : d.type = t := by
  simpa using List.find?_some h

theorem Registry.type_of_get? {r : Registry} {t : TypeRef} {d : Descriptor}
    (h : r.get? t = some d) : d.type = t := by
  simpa using List.find?_some h

namespace Registry

variable {c : Catalog} {r : Registry} {d : Descriptor} {t u : TypeRef} {pending : List TypeRef}

/-! ## Adding a type -/

theorem types_add (r : Registry) (d : Descriptor) : (r.add d).types = r.types ++ [d] := rfl

theorem contains_eq_isSome (r : Registry) (t : TypeRef) : r.contains t = (r.get? t).isSome := by
  rw [Bool.eq_iff_iff, get?, List.find?_isSome, contains, List.any_eq_true]

theorem get?_add (r : Registry) (d : Descriptor) (t : TypeRef) :
    (r.add d).get? t = (r.get? t).or (if d.type = t then some d else none) := by
  rw [get?, types_add, List.find?_append, List.find?_singleton]
  simp [get?]

theorem get?_add_of_get? (h : r.get? t = some d) (e : Descriptor) : (r.add e).get? t = some d := by
  rw [get?_add, h, Option.some_or]

theorem mem_types_insert {e : Descriptor} (h : e ∈ (r.insert d).types) : e ∈ r.types ∨ e = d := by
  unfold insert at h
  split at h
  · obtain ⟨old, hold, rfl⟩ := List.mem_map.1 h
    split
    · exact .inr rfl
    · exact .inl hold
  · rw [types_add] at h
    simpa using h

theorem shape_of_mem_standard (h : d ∈ standard.types) : d.shape = .scalar := by
  have hfold : ∀ (ts : List TypeRef) (r : Registry), (∀ e ∈ r.types, e.shape = .scalar) →
      ∀ e ∈ (ts.foldl (fun r t => r.insert ⟨t, .scalar⟩) r).types, e.shape = .scalar := by
    intro ts
    induction ts with
    | nil => exact fun r hr => hr
    | cons t ts ih =>
      refine fun r hr => ih _ fun e he => ?_
      rcases mem_types_insert he with he | rfl
      · exact hr e he
      · rfl
  exact hfold primitives empty (by simp [empty]) d h

theorem dependencies_of_standard (h : standard.get? t = some d) : d.dependencies = [] := by
  rw [Descriptor.dependencies, shape_of_mem_standard (List.mem_of_find?_eq_some h)]
  rfl

theorem known?_of_standard (h : standard.get? t = some d) : c.known? t = some d := by
  rw [Catalog.known?, h, Option.some_or]

/-! ## Walking what types depend on -/

theorem enroll_nil (c : Catalog) (r : Registry) : r.enroll c [] = r := by
  rw [enroll]

theorem enroll_cons_of_none (hd : c.describe? t = none) (pending : List TypeRef) :
    r.enroll c (t :: pending) = r.enroll c pending := by
  rw [enroll]
  split
  · rfl
  · rename_i d he
    rw [hd] at he
    cases he

theorem enroll_cons_of_contains (h : r.contains t = true) (pending : List TypeRef) :
    r.enroll c (t :: pending) = r.enroll c pending := by
  rw [enroll]
  split
  · rfl
  · rename_i d hd
    have htype : d.type = t := Catalog.type_of_describe? hd
    rw [dif_pos (htype ▸ h)]

theorem enroll_cons_of_new (hd : c.describe? t = some d) (hnew : r.contains t = false)
    (pending : List TypeRef) :
    r.enroll c (t :: pending) = (r.add d).enroll c (d.dependencies ++ pending) := by
  have htype : d.type = t := Catalog.type_of_describe? hd
  rw [enroll]
  split
  · rename_i he
    rw [hd] at he
    cases he
  · rename_i e he
    obtain rfl : d = e := Option.some.inj (hd.symm.trans he)
    rw [dif_neg (by rw [htype, hnew]; simp)]

/-! ## What a registry holds -/

/-- The registry holds types with the descriptors they are registered with, and what they depend on
too, or else that is pending.  A type that is not there gives its descriptor of itself. -/
structure Holds (c : Catalog) (r : Registry) (pending : List TypeRef) : Prop where
  known : ∀ t d, r.get? t = some d → c.known? t = some d
  described : ∀ t, r.get? t = none → c.known? t = c.describe? t
  closed : ∀ t d, r.get? t = some d → ∀ u ∈ d.dependencies, (c.known? u).isSome = true →
    (r.get? u).isSome = true ∨ u ∈ pending

namespace Holds

theorem add (h : Holds c r (t :: pending)) (hd : c.describe? t = some d)
    (hnew : r.contains d.type = false) : Holds c (r.add d) (d.dependencies ++ pending) := by
  have htype : d.type = t := Catalog.type_of_describe? hd
  have hnone : r.get? t = none := by
    rw [contains_eq_isSome, htype] at hnew
    simpa using hnew
  have hknown : c.known? t = some d := (h.described t hnone).trans hd
  have hcases {u : TypeRef} {e : Descriptor} (he : (r.add d).get? u = some e) :
      r.get? u = some e ∨ u = t ∧ e = d := by
    rw [get?_add, Option.or_eq_some_iff] at he
    rcases he with he | ⟨-, he⟩
    · exact .inl he
    · split at he
      · rename_i hu
        exact .inr ⟨hu.symm.trans htype, (Option.some.inj he).symm⟩
      · cases he
  have hkeep {u : TypeRef} (hu : (r.get? u).isSome = true) :
      ((r.add d).get? u).isSome = true := by
    obtain ⟨e, he⟩ := Option.isSome_iff_exists.1 hu
    rw [get?_add_of_get? he]
    rfl
  refine ⟨fun u e he => ?_, fun u hu => ?_, ?_⟩
  · rcases hcases he with he | ⟨rfl, rfl⟩
    · exact h.known u e he
    · exact hknown
  · rw [get?_add, Option.or_eq_none_iff] at hu
    exact h.described u hu.1
  · intro u e he v hv hsome
    rcases hcases he with he | ⟨rfl, rfl⟩
    · rcases h.closed u e he v hv hsome with hv | hv
      · exact .inl (hkeep hv)
      · rcases List.mem_cons.1 hv with rfl | hv
        · refine .inl ?_
          rw [get?_add, hnone, Option.none_or, if_pos htype]
          rfl
        · exact .inr (List.mem_append_right _ hv)
    · -- what the new type depends on is pending from now on
      exact .inr (List.mem_append_left _ hv)

theorem drop (h : Holds c r (t :: pending))
    (ht : (c.known? t).isSome = true → (r.get? t).isSome = true) : Holds c r pending where
  known := h.known
  described := h.described
  closed u d hd v hv hsome := by
    rcases h.closed u d hd v hv hsome with hv | hv
    · exact .inl hv
    · rcases List.mem_cons.1 hv with rfl | hv
      · exact .inl (ht hsome)
      · exact .inr hv

theorem isSome_of_describe?_eq_none (h : Holds c r pending) (hnone : c.describe? t = none)
    (hsome : (c.known? t).isSome = true) : (r.get? t).isSome = true := by
  cases hget : r.get? t with
  | some d => rfl
  | none =>
    rw [h.described t hget, hnone] at hsome
    cases hsome

theorem enroll (h : Holds c r pending) : Holds c (r.enroll c pending) [] := by
  fun_induction Registry.enroll c r pending with
  | case1 r => exact h
  | case2 r t rest hnone ih => exact ih (h.drop (h.isSome_of_describe?_eq_none hnone))
  | case3 r t rest d hd hold ih =>
    have htype : d.type = t := Catalog.type_of_describe? hd
    rw [contains_eq_isSome, htype] at hold
    exact ih (h.drop fun _ => hold)
  | case4 r t rest d hd hnew ih => exact ih (h.add hd (by simpa using hnew))

end Holds

theorem get?_enroll (h : r.get? t = some d) : (r.enroll c pending).get? t = some d := by
  fun_induction enroll c r pending with
  | case1 => exact h
  | case2 r u rest hnone ih => exact ih h
  | case3 r u rest e he hold ih => exact ih h
  | case4 r u rest e he hnew ih => exact ih (get?_add_of_get? h e)

theorem mem_types_enroll (h : d ∈ (r.enroll c pending).types) :
    d ∈ r.types ∨ d ∈ c.descriptors := by
  fun_induction enroll c r pending with
  | case1 => exact .inl h
  | case2 r u rest hnone ih => exact ih h
  | case3 r u rest e he hold ih => exact ih h
  | case4 r u rest e he hnew ih =>
    rcases ih h with h | h
    · rw [types_add, List.mem_append, List.mem_singleton] at h
      rcases h with h | rfl
      · exact .inl h
      · exact .inr (List.mem_of_find?_eq_some he)
    · exact .inr h

/-! ## Registering -/

theorem register_cases (c : Catalog) (r : Registry) (t : TypeRef) :
    c.describe? t = none ∧ (r.register c t).2 = r ∨
      ∃ d, c.describe? t = some d ∧ d.type = t ∧
        (r.contains t = true ∧ (r.register c t).2 = r ∨
          r.contains t = false ∧ (r.register c t).2 = (r.add d).enroll c d.dependencies) := by
  unfold register registerDescriptor
  cases hd : c.describe? t with
  | none => exact .inl ⟨rfl, rfl⟩
  | some d =>
    have htype : d.type = t := Catalog.type_of_describe? hd
    refine .inr ⟨d, rfl, htype, ?_⟩
    dsimp only
    rw [htype]
    cases hold : r.contains t with
    | true => exact .inl ⟨rfl, rfl⟩
    | false => exact .inr ⟨rfl, rfl⟩

theorem mem_types_register (h : d ∈ (r.register c t).2.types) :
    d ∈ r.types ∨ d ∈ c.descriptors := by
  rcases register_cases c r t with ⟨-, hr⟩ | ⟨e, he, -, ⟨-, hr⟩ | ⟨-, hr⟩⟩
  · rw [hr] at h
    exact .inl h
  · rw [hr] at h
    exact .inl h
  · rw [hr] at h
    rcases mem_types_enroll h with h | h
    · rw [types_add, List.mem_append, List.mem_singleton] at h
      rcases h with h | rfl
      · exact .inl h
      · exact .inr (List.mem_of_find?_eq_some he)
    · exact .inr h

namespace Holds

theorem register (h : Holds c r []) (t : TypeRef) : Holds c (r.register c t).2 [] := by
  rcases register_cases c r t with ⟨-, hr⟩ | ⟨d, hd, htype, ⟨-, hr⟩ | ⟨hnew, hr⟩⟩
  · rwa [hr]
  · rwa [hr]
  · have hpending : Holds c r [t] :=
      ⟨h.known, h.described, fun u d hd v hv hsome =>
        .inl ((h.closed u d hd v hv hsome).resolve_right (by simp))⟩
    have hadd := hpending.add hd (htype ▸ hnew)
    rw [List.append_nil] at hadd
    rw [hr]
    exact hadd.enroll

/-- **A type that was registered is known.** -/
theorem get?_register (h : Holds c r []) (t : TypeRef) :
    (r.register c t).2.get? t = c.known? t := by
  cases hget : (r.register c t).2.get? t with
  | some d => exact ((h.register t).known t d hget).symm
  | none =>
    rw [(h.register t).described t hget]
    rcases register_cases c r t with ⟨hd, -⟩ | ⟨d, hd, htype, ⟨hold, hr⟩ | ⟨-, hr⟩⟩
    · exact hd.symm
    · rw [hr] at hget
      rw [contains_eq_isSome, hget] at hold
      cases hold
    · have hadded : ((r.add d).enroll c d.dependencies).get? t ≠ none := by
        cases hold : r.get? t with
        | some e => rw [get?_enroll (get?_add_of_get? hold d)]; simp
        | none =>
          have hnew : (r.add d).get? t = some d := by
            rw [get?_add, hold, Option.none_or, if_pos htype]
          rw [get?_enroll hnew]
          simp
      rw [hr] at hget
      exact absurd hget hadded

end Holds

theorem get?_register_of_get? (h : r.get? t = some d) (u : TypeRef) :
    (r.register c u).2.get? t = some d := by
  rcases register_cases c r u with ⟨-, hr⟩ | ⟨e, -, -, ⟨-, hr⟩ | ⟨-, hr⟩⟩ <;> rw [hr]
  · exact h
  · exact h
  · exact get?_enroll (get?_add_of_get? h e)

/-! ## What a type leads to -/

/-- `u` is `t` or one of the types that its descriptor leads to. -/
inductive Reaches (c : Catalog) (t : TypeRef) : TypeRef → Prop
  | refl : Reaches c t t
  | step {u v : TypeRef} {d : Descriptor} (h : Reaches c t u) (hd : c.known? u = some d)
      (hv : v ∈ d.dependencies) : Reaches c t v

/-- **What a known type leads to is known.** -/
theorem Holds.get?_of_reaches (h : Holds c r []) (ht : r.get? t = c.known? t)
    (hu : Reaches c t u) : r.get? u = c.known? u := by
  induction hu with
  | refl => exact ht
  | @step u v d _ hd hv ih =>
    cases hget : r.get? v with
    | some e => exact (h.known v e hget).symm
    | none =>
      cases hknown : c.known? v with
      | none => rfl
      | some e =>
        rcases h.closed u d (ih.trans hd) v hv (by rw [hknown]; rfl) with hsome | hmem
        · rw [hget] at hsome
          cases hsome
        · cases hmem

/-! ## Faithful registries -/

/-- The registry holds types with the descriptors they are registered with, the standard ones among
them, and what they depend on too, or else that is pending. -/
structure Faithful (c : Catalog) (r : Registry) (pending : List TypeRef) : Prop where
  known : ∀ t d, r.get? t = some d → c.known? t = some d
  standard : ∀ t d, standard.get? t = some d → r.get? t = some d
  closed : ∀ t d, r.get? t = some d → ∀ u ∈ d.dependencies, (c.known? u).isSome = true →
    (r.get? u).isSome = true ∨ u ∈ pending

theorem faithful_standard (c : Catalog) : Faithful c standard [] where
  known _ _ h := known?_of_standard h
  standard _ _ h := h
  closed t d h u hu := by
    rw [dependencies_of_standard h] at hu
    cases hu

namespace Faithful

theorem holds (h : Faithful c r pending) : Holds c r pending where
  known := h.known
  described t hnone := by
    rw [Catalog.known?]
    cases hs : Registry.standard.get? t with
    | none => rfl
    | some d =>
      rw [h.standard t d hs] at hnone
      cases hnone
  closed := h.closed

theorem register (h : Faithful c r []) (t : TypeRef) : Faithful c (r.register c t).2 [] where
  known := (h.holds.register t).known
  standard u d hd := get?_register_of_get? (h.standard u d hd) t
  closed := (h.holds.register t).closed

theorem get?_register (h : Faithful c r []) (t : TypeRef) :
    (r.register c t).2.get? t = c.known? t :=
  h.holds.get?_register t

end Faithful

end Registry

/-! ## Closed registries -/

/-- What the types of the catalogue depend on has a descriptor. -/
def Catalog.Closed (c : Catalog) : Prop :=
  ∀ d ∈ c.descriptors, ∀ u ∈ d.dependencies, (c.known? u).isSome = true

namespace Registry

/-- Everything that a registered type depends on is registered too. -/
def Closed (r : Registry) : Prop :=
  ∀ t d, r.get? t = some d → ∀ u ∈ d.dependencies, (r.get? u).isSome = true

/-- **A faithful registry of a closed catalogue is closed.** -/
theorem Faithful.isClosed (h : Faithful c r []) (hc : c.Closed) : r.Closed := by
  intro t d hd u hu
  have hknown : (c.known? u).isSome = true := by
    rcases Option.or_eq_some_iff.1 (h.known t d hd) with hstandard | ⟨-, hdescribe⟩
    · rw [dependencies_of_standard hstandard] at hu
      cases hu
    · exact hc d (List.mem_of_find?_eq_some hdescribe) u hu
  rcases h.closed t d hd u hu hknown with hsome | hmem
  · exact hsome
  · cases hmem

end Registry

/-! ## Registering one type after the other -/

/-- The catalogue describes the standard types as the standard registry does. -/
def Catalog.DescribesStandard (c : Catalog) : Prop :=
  ∀ t d, Registry.standard.get? t = some d → c.describe? t = some d

theorem Catalog.DescribesStandard.known?_eq {c : Catalog} (hc : c.DescribesStandard)
    (t : TypeRef) : c.known? t = c.describe? t := by
  rw [known?]
  cases hs : Registry.standard.get? t with
  | none => rfl
  | some d => exact (hc t d hs).symm

namespace Registry

variable {c : Catalog} {r : Registry}

/-- The registry was made from the empty or the standard one by registering types. -/
inductive Recorded (c : Catalog) : Registry → Prop
  | empty : Recorded c .empty
  | standard : Recorded c .standard
  | register {r : Registry} (h : Recorded c r) (t : TypeRef) : Recorded c (r.register c t).2

/-- **Whatever types were registered, the registry holds what they lead to.** -/
theorem Recorded.holds (hc : c.DescribesStandard) (h : Recorded c r) : Holds c r [] := by
  induction h with
  | empty => exact ⟨nofun, fun t _ => hc.known?_eq t, nofun⟩
  | standard => exact (faithful_standard c).holds
  | register _ t ih => exact ih.register t

end Registry

end ConfigBind
