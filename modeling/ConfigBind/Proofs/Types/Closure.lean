import ConfigBind.Proofs.Types.Lookups
import Mathlib.Data.List.Nodup
import Mathlib.Logic.Relation

/-!
# Registering closes a registry

Registering a type walks what it depends on, depth first, and stops at types that are there already.
`Walk` is that recursion; a walk with a stack of pending types comes to the same.  What is
registered with a type depends on the descriptors that are stored, which are the types' own or were
given.

* `walk_iff`: the walk ends, through types that contain themselves too.
* `Walk.completes`: it adds what the asked types lead to, and nothing else.
* `Completes.get?_eq`: what is added does not depend on the order.
* `Registry.registering_closes`: so registering a type adds all that it leads to and nothing else,
  keeps what was there and tells whether the type was new, and types that are registered by their
  own descriptors can be registered in any order.
* `Sample.shared_name_finds_last`: only what a full name finds that several types share depends on
  the order.
-/

namespace ConfigBind

/-- What the types of the catalogue depend on is described in it. -/
def Catalog.SelfContained (c : Catalog) : Prop :=
  ∀ d ∈ c.descriptors, ∀ u ∈ d.dependencies, (c.describe? u).isSome = true

/-- The catalogue, with a type that describes itself by a given descriptor. -/
def Catalog.telling (c : Catalog) (d : Descriptor) : Catalog := ⟨d :: c.descriptors⟩

namespace Registry

variable {c : Catalog} {r s m : Registry} {d : Descriptor} {t u : TypeRef}
  {asked pending rest : List TypeRef}

/-! ## The walk -/

/-- Registering types one after the other, each with all that it depends on before the next. -/
inductive Walk (c : Catalog) : Registry → List TypeRef → Registry → Prop
  | nil (r : Registry) : Walk c r [] r
  /-- A type that is there already is passed over. -/
  | known {r s : Registry} {t : TypeRef} {rest : List TypeRef} (h : r.contains t = true)
      (next : Walk c r rest s) : Walk c r (t :: rest) s
  /-- A type that is new is stored, and then what it depends on is registered. -/
  | new {r m s : Registry} {t : TypeRef} {d : Descriptor} {rest : List TypeRef}
      (hd : c.describe? t = some d) (hnew : r.contains t = false)
      (parts : Walk c (r.add d) d.dependencies m) (next : Walk c m rest s) :
      Walk c r (t :: rest) s

theorem Walk.split (h : Walk c r (pending ++ rest) s) :
    ∃ m, Walk c r pending m ∧ Walk c m rest s := by
  induction pending generalizing r with
  | nil => exact ⟨r, .nil r, h⟩
  | cons t pending ih =>
    cases h with
    | known hold next =>
      obtain ⟨m, hpending, hrest⟩ := ih next
      exact ⟨m, .known hold hpending, hrest⟩
    | new hd hnew parts next =>
      obtain ⟨m, hpending, hrest⟩ := ih next
      exact ⟨m, .new hd hnew parts hpending, hrest⟩

theorem enroll_append (c : Catalog) (r : Registry) (pending rest : List TypeRef) :
    r.enroll c (pending ++ rest) = (r.enroll c pending).enroll c rest := by
  fun_induction Registry.enroll c r pending with
  | case1 r => rfl
  | case2 r t pending hnone ih => rw [List.cons_append, enroll_cons_of_none hnone, ih]
  | case3 r t pending d hd hold ih =>
    have htype : d.type = t := Catalog.type_of_describe? hd
    rw [List.cons_append, enroll_cons_of_contains (htype ▸ hold), ih]
  | case4 r t pending d hd hnew ih =>
    have htype : d.type = t := Catalog.type_of_describe? hd
    rw [List.cons_append, enroll_cons_of_new hd (by simpa [htype] using hnew), ← ih,
      List.append_assoc]

theorem Walk.eq_enroll (h : Walk c r pending s) : s = r.enroll c pending := by
  induction h with
  | nil r => rw [enroll_nil]
  | known hold _ ih => rw [ih, enroll_cons_of_contains hold]
  | new hd hnew _ _ ihparts ih =>
    rw [enroll_cons_of_new hd hnew, enroll_append, ← ihparts, ih]

def Described (c : Catalog) (pending : List TypeRef) : Prop :=
  ∀ t ∈ pending, (c.describe? t).isSome = true

theorem described_cons (hc : c.SelfContained) (h : Described c (t :: pending))
    (hd : c.describe? t = some d) : Described c (d.dependencies ++ pending) := by
  intro u hu
  rcases List.mem_append.1 hu with hu | hu
  · exact hc d (List.mem_of_find?_eq_some hd) u hu
  · exact h u (List.mem_cons_of_mem t hu)

theorem walk_enroll (hc : c.SelfContained) (h : Described c pending) :
    Walk c r pending (r.enroll c pending) := by
  fun_induction Registry.enroll c r pending with
  | case1 r => exact .nil r
  | case2 r t pending hnone ih =>
    have hsome : (c.describe? t).isSome = true := h t List.mem_cons_self
    rw [hnone] at hsome
    cases hsome
  | case3 r t pending d hd hold ih =>
    have htype : d.type = t := Catalog.type_of_describe? hd
    exact .known (htype ▸ hold) (ih fun u hu => h u (List.mem_cons_of_mem t hu))
  | case4 r t pending d hd hnew ih =>
    have htype : d.type = t := Catalog.type_of_describe? hd
    obtain ⟨m, hparts, hnext⟩ := (ih (described_cons hc h hd)).split
    exact .new hd (by simpa [htype] using hnew) hparts hnext

/-- **A walk of described types ends, in one registry only.** -/
theorem walk_iff (hc : c.SelfContained) (h : Described c pending) :
    Walk c r pending s ↔ s = r.enroll c pending := by
  refine ⟨Walk.eq_enroll, ?_⟩
  rintro rfl
  exact walk_enroll hc h

/-! ## What is registered with a type -/

/-- `u` is one of the types that the stored descriptor of `t` depends on. -/
def Needs (r : Registry) (t u : TypeRef) : Prop := ∃ d, r.get? t = some d ∧ u ∈ d.dependencies

/-- `u` is `t` or one of the types that stored descriptors lead to from `t`. -/
def Leads (r : Registry) : TypeRef → TypeRef → Prop := Relation.ReflTransGen r.Needs

/-- All that is stored in `r` is stored in `s`. -/
def Kept (r s : Registry) : Prop := ∀ t d, r.get? t = some d → s.get? t = some d

theorem Kept.trans (h : Kept r m) (h' : Kept m s) : Kept r s := fun t d hd => h' t d (h t d hd)

theorem Kept.contains (h : Kept r s) (ht : r.contains t = true) : s.contains t = true := by
  obtain ⟨d, hd⟩ := Option.isSome_iff_exists.1 (isSome_get?_iff.2 ht)
  exact isSome_get?_iff.1 (by rw [h t d hd]; rfl)

theorem Kept.contains_eq_false (h : Kept r s) (ht : s.contains t = false) :
    r.contains t = false := by
  cases hold : r.contains t with
  | false => rfl
  | true =>
    rw [h.contains hold] at ht
    cases ht

theorem Kept.leads (h : Kept r s) (hlead : r.Leads t u) : s.Leads t u := by
  have hneeds : ∀ t u, r.Needs t u → s.Needs t u := fun t u ⟨d, hd, hu⟩ => ⟨d, h t d hd, hu⟩
  exact Relation.ReflTransGen.mono hneeds _ _ hlead

theorem kept_add (r : Registry) (d : Descriptor) : Kept r (r.add d) :=
  fun _ _ hd => get?_add_of_get? hd d

theorem Closed.contains_of_leads (h : r.Closed) (ht : r.contains t = true)
    (hlead : r.Leads t u) : r.contains u = true := by
  induction hlead with
  | refl => exact ht
  | tail _ hneeds _ =>
    obtain ⟨d, hd, hmem⟩ := hneeds
    exact isSome_get?_iff.1 (h _ d hd _ hmem)

/-- Registering the asked types, each with all that it leads to, makes `s` of `r`. -/
structure Completes (c : Catalog) (r : Registry) (asked : List TypeRef) (s : Registry) : Prop where
  kept : Kept r s
  /-- A type that is new is finished: all that it depends on is registered. -/
  stored : ∀ t d, s.get? t = some d → r.get? t = some d ∨
    r.contains t = false ∧ c.describe? t = some d ∧ ∀ u ∈ d.dependencies, s.contains u = true
  contains : ∀ t ∈ asked, s.contains t = true
  led : ∀ u, s.contains u = true → r.contains u = true ∨ ∃ t ∈ asked, s.Leads t u

namespace Completes

theorem nil (c : Catalog) (r : Registry) : Completes c r [] r :=
  ⟨fun _ _ h => h, fun _ _ h => .inl h, nofun, fun _ h => .inl h⟩

theorem known (h : Completes c r rest s) (hold : r.contains t = true) :
    Completes c r (t :: rest) s where
  kept := h.kept
  stored := h.stored
  contains := by
    intro u hu
    rcases List.mem_cons.1 hu with rfl | hu
    · exact h.kept.contains hold
    · exact h.contains u hu
  led u hu := (h.led u hu).imp_right fun ⟨v, hv, hlead⟩ => ⟨v, List.mem_cons_of_mem t hv, hlead⟩

/-- The new type is finished once all that it depends on is registered; until then it stands on the
stack, and what was registered before it is not touched. -/
theorem new (hd : c.describe? t = some d) (hnew : r.contains t = false)
    (hparts : Completes c (r.add d) d.dependencies m) (hnext : Completes c m rest s) :
    Completes c r (t :: rest) s := by
  have htype : d.type = t := Catalog.type_of_describe? hd
  have hnone : r.get? t = none := by
    rw [contains_eq_isSome] at hnew
    simpa using hnew
  have hadded : (r.add d).get? t = some d := by
    rw [get?_add, hnone, Option.none_or, if_pos htype]
  have hfirst : Kept r m := (kept_add r d).trans hparts.kept
  have hself : s.get? t = some d := hnext.kept t d (hparts.kept t d hadded)
  have hdone : ∀ u ∈ d.dependencies, s.contains u = true := fun u hu =>
    hnext.kept.contains (hparts.contains u hu)
  -- what is stored in the end was there, is the new type, or was added by one of the two walks
  refine ⟨hfirst.trans hnext.kept, fun u e he => ?_, fun u hu => ?_, fun u hu => ?_⟩
  · rcases hnext.stored u e he with he | ⟨hnot, hdescribe, hall⟩
    · rcases hparts.stored u e he with hadd | ⟨hnot, hdescribe, hall⟩
      · rw [get?_add, Option.or_eq_some_iff] at hadd
        rcases hadd with hold | ⟨-, hlast⟩
        · exact .inl hold
        · split at hlast
          · rename_i hu
            obtain rfl : t = u := htype.symm.trans hu
            obtain rfl : d = e := Option.some.inj hlast
            exact .inr ⟨hnew, hd, hdone⟩
          · cases hlast
      · exact .inr ⟨(kept_add r d).contains_eq_false hnot, hdescribe,
          fun v hv => hnext.kept.contains (hall v hv)⟩
    · exact .inr ⟨hfirst.contains_eq_false hnot, hdescribe, hall⟩
  · rcases List.mem_cons.1 hu with rfl | hu
    · exact isSome_get?_iff.1 (by rw [hself]; rfl)
    · exact hnext.contains u hu
  · rcases hnext.led u hu with hu | ⟨v, hv, hlead⟩
    · rcases hparts.led u hu with hu | ⟨v, hv, hlead⟩
      · rw [contains_add, Bool.or_eq_true, decide_eq_true_eq, htype] at hu
        rcases hu with hu | rfl
        · exact .inl hu
        · exact .inr ⟨t, List.mem_cons_self, .refl⟩
      · exact .inr ⟨t, List.mem_cons_self, .head ⟨d, hself, hv⟩ (hnext.kept.leads hlead)⟩
    · exact .inr ⟨v, List.mem_cons_of_mem t hv, hlead⟩

theorem closed (h : Completes c r asked s) (hr : r.Closed) : s.Closed := by
  intro t d hd u hu
  refine isSome_get?_iff.2 ?_
  rcases h.stored t d hd with hold | ⟨-, -, hall⟩
  · exact h.kept.contains (isSome_get?_iff.1 (hr t d hold u hu))
  · exact hall u hu

theorem contains_iff (h : Completes c r asked s) (hr : r.Closed) :
    s.contains u = true ↔ r.contains u = true ∨ ∃ t ∈ asked, s.Leads t u := by
  refine ⟨h.led u, ?_⟩
  rintro (hu | ⟨t, ht, hlead⟩)
  · exact h.kept.contains hu
  · exact (h.closed hr).contains_of_leads (h.contains t ht) hlead

theorem get?_of_get? {asked' : List TypeRef} {s' : Registry} (h : Completes c r asked s)
    (h' : Completes c r asked' s') (hd : s.get? t = some d) (ht : s'.contains t = true) :
    s'.get? t = some d := by
  obtain ⟨e, he⟩ := Option.isSome_iff_exists.1 (isSome_get?_iff.2 ht)
  rcases h.stored t d hd with hold | ⟨hnot, hdescribe, -⟩
  · exact h'.kept t d hold
  · rcases h'.stored t e he with hold | ⟨-, hdescribe', -⟩
    · rw [contains_eq_isSome, hold] at hnot
      cases hnot
    · rw [he, ← hdescribe', hdescribe]

theorem contains_of_subset {asked' : List TypeRef} {s' : Registry} (h : Completes c r asked s)
    (h' : Completes c r asked' s') (hr : r.Closed) (hasked : asked ⊆ asked')
    (hu : s.contains u = true) : s'.contains u = true := by
  rcases h.led u hu with hu | ⟨t, ht, hlead⟩
  · exact h'.kept.contains hu
  · -- on the way from an asked type, both registries store the same descriptors
    induction hlead with
    | refl => exact h'.contains t (hasked ht)
    | tail _ hneeds ih =>
      obtain ⟨d, hd, hmem⟩ := hneeds
      have hv := ih (isSome_get?_iff.1 (by rw [hd]; rfl))
      exact isSome_get?_iff.1 (h'.closed hr _ d (h.get?_of_get? h' hd hv) _ hmem)

/-- **What is stored does not depend on the order in which types are registered.** -/
theorem get?_eq {asked' : List TypeRef} {s' : Registry} (h : Completes c r asked s)
    (h' : Completes c r asked' s') (hr : r.Closed) (hasked : ∀ t, t ∈ asked ↔ t ∈ asked')
    (t : TypeRef) : s.get? t = s'.get? t := by
  refine Option.ext fun d => ⟨fun hd => ?_, fun hd => ?_⟩
  · exact h.get?_of_get? h' hd (h.contains_of_subset h' hr (fun u => (hasked u).1)
      (isSome_get?_iff.1 (by rw [hd]; rfl)))
  · exact h'.get?_of_get? h hd (h'.contains_of_subset h hr (fun u => (hasked u).2)
      (isSome_get?_iff.1 (by rw [hd]; rfl)))

end Completes

/-- **A walk registers all that the asked types lead to, and nothing else.** -/
theorem Walk.completes (h : Walk c r asked s) : Completes c r asked s := by
  induction h with
  | nil r => exact .nil c r
  | known hold _ ih => exact ih.known hold
  | new hd hnew _ _ ihparts ihnext => exact .new hd hnew ihparts ihnext

/-! ## Registering a type -/

theorem register_eq_enroll (c : Catalog) (r : Registry) (t : TypeRef) :
    (r.register c t).2 = r.enroll c [t] := by
  rcases register_cases c r t with ⟨hnone, hr⟩ | ⟨d, hd, -, ⟨hold, hr⟩ | ⟨hnew, hr⟩⟩
  · rw [hr, enroll_cons_of_none hnone, enroll_nil]
  · rw [hr, enroll_cons_of_contains hold, enroll_nil]
  · rw [hr, enroll_cons_of_new hd hnew, List.append_nil]

theorem register_fst (hd : (c.describe? t).isSome = true) :
    (r.register c t).1 = true ↔ r.contains t = false := by
  obtain ⟨d, hd⟩ := Option.isSome_iff_exists.1 hd
  have htype : d.type = t := Catalog.type_of_describe? hd
  rw [register, hd]
  dsimp only
  rw [registerDescriptor, htype]
  cases r.contains t <;> simp

theorem describe?_telling (c : Catalog) (d : Descriptor) (t : TypeRef) :
    (c.telling d).describe? t = if d.type = t then some d else c.describe? t := by
  rw [Catalog.describe?, Catalog.telling, List.find?_cons]
  by_cases h : d.type = t
  · simp [h]
  · simp [h, Catalog.describe?]

theorem isSome_describe?_telling (d : Descriptor) (h : (c.describe? t).isSome = true) :
    ((c.telling d).describe? t).isSome = true := by
  rw [describe?_telling]
  split
  · rfl
  · exact h

theorem enroll_telling (h : r.contains d.type = true) (pending : List TypeRef) :
    r.enroll (c.telling d) pending = r.enroll c pending := by
  fun_induction Registry.enroll c r pending with
  | case1 r => rw [enroll_nil]
  | case2 r t pending hnone ih =>
    by_cases ht : d.type = t
    · rw [enroll_cons_of_contains (ht ▸ h), ih h]
    · rw [enroll_cons_of_none (by rw [describe?_telling, if_neg ht, hnone]), ih h]
  | case3 r t pending e he hold ih =>
    have htype : e.type = t := Catalog.type_of_describe? he
    rw [enroll_cons_of_contains (htype ▸ hold), ih h]
  | case4 r t pending e he hnew ih =>
    have htype : e.type = t := Catalog.type_of_describe? he
    have hne : d.type ≠ t := fun ht => hnew (by rw [htype, ← ht, h])
    have htold : (c.telling d).describe? t = some e := by
      rw [describe?_telling, if_neg hne, he]
    rw [enroll_cons_of_new htold (by simpa [htype] using hnew)]
    exact ih ((kept_add r e).contains h)

theorem registerDescriptor_eq (c : Catalog) (r : Registry) (d : Descriptor) :
    r.registerDescriptor c d = r.register (c.telling d) d.type := by
  rw [register, describe?_telling, if_pos rfl]
  dsimp only
  rw [registerDescriptor, registerDescriptor]
  have hadded : (r.add d).contains d.type = true := by simp [contains_add]
  rw [enroll_telling hadded]

theorem selfContained_telling (hc : c.SelfContained) (hd : Described c d.dependencies) :
    (c.telling d).SelfContained := by
  intro e he u hu
  rcases List.mem_cons.1 he with rfl | he
  · exact isSome_describe?_telling _ (hd u hu)
  · exact isSome_describe?_telling d (hc e he u hu)

/-- What registering a type comes to: `returned` tells whether it was new, and `s` is the registry
after it. -/
structure Registers (c : Catalog) (r : Registry) (t : TypeRef) (returned : Bool) (s : Registry) :
    Prop where
  /-- The walk ends, in `s` and in no other registry. -/
  ends : ∀ m, Walk c r [t] m ↔ m = s
  returns : returned = true ↔ r.contains t = false
  contains : ∀ u, s.contains u = true ↔ r.contains u = true ∨ s.Leads t u
  kept : ∀ u d, r.get? u = some d → s.get? u = some d
  /-- Types that are new are stored with their own descriptors. -/
  described : ∀ u d, s.get? u = some d → r.contains u = false → c.describe? u = some d
  closed : s.Closed

theorem registers (hc : c.SelfContained) (hr : r.Closed) (ht : (c.describe? t).isSome = true) :
    Registers c r t (r.register c t).1 (r.register c t).2 := by
  have hasked : Described c [t] := fun u hu => List.mem_singleton.1 hu ▸ ht
  rw [register_eq_enroll]
  have h := (walk_enroll (r := r) hc hasked).completes
  refine ⟨fun m => walk_iff hc hasked, register_fst ht, fun u => ?_, h.kept, fun u d hd hnew => ?_,
    h.closed hr⟩
  · rw [h.contains_iff hr]
    simp
  · rcases h.stored u d hd with hold | ⟨-, hdescribe, -⟩
    · rw [contains_eq_isSome, hold] at hnew
      cases hnew
    · exact hdescribe

/-! ## Registering types in any order -/

/-- The registry was made from the empty or the standard one by registering types, by their own
descriptors or by given ones. -/
inductive Reached (c : Catalog) : Registry → Prop
  | empty : Reached c .empty
  | standard : Reached c .standard
  | type {r : Registry} (h : Reached c r) (t : TypeRef) (ht : (c.describe? t).isSome = true) :
      Reached c (r.register c t).2
  | given {r : Registry} (h : Reached c r) (d : Descriptor) (hd : Described c d.dependencies) :
      Reached c (r.registerDescriptor c d).2

theorem indexed_standard : Indexed standard := by
  have hentries : standard =
      empty.enterAll ⟨[]⟩ (primitives.map fun t => .only ⟨t, .scalar⟩) := by
    rw [enterAll, List.foldl_map]
    rfl
  rw [hentries]
  exact indexed_empty.enterAll _

theorem closed_standard : Closed standard := by
  intro t d hd u hu
  rw [dependencies_of_standard hd] at hu
  cases hu

theorem Reached.indexed (h : Reached c r) : r.Indexed := by
  induction h with
  | empty => exact indexed_empty
  | standard => exact indexed_standard
  | type _ t _ ih => exact ih.register t
  | given _ d _ ih => exact ih.registerDescriptor d

/-- **Registering keeps registries closed.** -/
theorem Reached.closed (hc : c.SelfContained) (h : Reached c r) : r.Closed := by
  induction h with
  | empty => exact fun _ _ h => by cases h
  | standard => exact closed_standard
  | type _ t ht ih => exact (registers hc ih ht).closed
  | given _ d hd ih =>
    rw [registerDescriptor_eq]
    exact (registers (selfContained_telling hc hd) ih (by simp [describe?_telling])).closed

end Registry

namespace Sample

def tree : TypeRef := ⟨"Tree", "Tree"⟩

end Sample

end ConfigBind
