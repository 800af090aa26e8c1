import ConfigBind.Types.Container
import Mathlib.Data.List.Basic

/-!
# Typed values

A `Typing` tells what data is data of a type.  `Value.Of` says that a value has a type, and data of
it; `Descriptor.Sound` that what a type is given to work with is well typed: its constructor, its
factory and its accessors make data of their types out of such data, and so do the containers.

That values are of the expected type is checked wherever one is unpacked.  These checks succeed on
values of the type (`Descriptor.builds_collect`, `Descriptor.collectEntries_of_forall`).
-/

namespace ConfigBind

/-- What data is data of a type. -/
abbrev Typing := TypeRef → Datum → Prop

/-- The value has the type, and data of it. -/
structure Value.Of (Γ : Typing) (t : TypeRef) (v : Value) : Prop where
  type_eq : v.type = t
  datum : Γ t v.datum

def Components.Of (Γ : Typing) (components : List Component) (c : Components) : Prop :=
  ∀ e ∈ c.values, ∃ component ∈ components, component.name = e.1 ∧ e.2.Of Γ component.type

/-- What a type is given to work with makes data of the types it says. -/
structure Descriptor.Sound (Γ : Typing) (d : Descriptor) : Prop where
  collect : ∀ into items v, (∀ old, into = some old → old.Of Γ d.type) →
    (∀ item, d.item? = some item → ∀ x ∈ items, x.Of Γ item) →
      d.collect into items = .ok v → Γ d.type v.datum
  entries : ∀ into entries v, (∀ old, into = some old → old.Of Γ d.type) →
    (∀ item, d.item? = some item → ∀ e ∈ entries, e.2.Of Γ item) →
      d.collectEntries into entries = .ok v → Γ d.type v.datum
  construct : ∀ components v, components.Of Γ d.components →
    d.construct components = .ok v → Γ d.type v.datum
  factory : ∀ v, d.instantiate = .ok v → Γ d.type v.datum
  getter : ∀ p ∈ d.properties, ∀ target v, target.Of Γ d.type →
    p.get? target = some v → Γ p.type v.datum
  setter : ∀ p ∈ d.properties, ∀ target value v, target.Of Γ d.type → value.Of Γ p.type →
    p.set target value = .ok v → Γ d.type v.datum

/-! ## Components -/

theorem Entries.mem_insert {α : Type} {key : String} {value : α} {entries : List (String × α)}
    {e : String × α} (h : e ∈ insert key value entries) : e = (key, value) ∨ e ∈ entries := by
  induction entries with
  | nil => exact .inl (List.mem_singleton.1 h)
  | cons first rest ih =>
    obtain ⟨k, v⟩ := first
    rw [insert] at h
    split at h
    · exact List.mem_cons.1 h
    · split at h
      · rcases List.mem_cons.1 h with h | h
        · exact .inl h
        · exact .inr (List.mem_cons_of_mem _ h)
      · rcases List.mem_cons.1 h with rfl | h
        · exact .inr List.mem_cons_self
        · rcases ih h with h | h
          · exact .inl h
          · exact .inr (List.mem_cons_of_mem _ h)

namespace Components

variable {Γ : Typing} {components : List Component} {values : Components}

theorem of_empty (owner : String) : (empty owner).Of Γ components := by
  intro e he
  cases he

theorem Of.insert (h : values.Of Γ components) {c : Component} (hc : c ∈ components) {v : Value}
    (hv : v.Of Γ c.type) : (values.insert c.name v).Of Γ components := by
  intro e he
  rcases Entries.mem_insert he with rfl | he
  · exact ⟨c, hc, rfl, hv⟩
  · exact h e he

end Components

theorem Property.type_of_set {p : Property} {target value v : Value}
    (h : p.set target value = .ok v) : v.type = target.type := by
  unfold set at h
  split at h
  · cases h
  · cases hold : target.as p.owner with
    | error e =>
      rw [hold] at h
      cases h
    | ok old =>
      cases hnew : value.as p.type with
      | error e =>
        rw [hold, hnew] at h
        cases h
      | ok new =>
        rw [hold, hnew] at h
        exact (Except.ok.inj h) ▸ rfl

/-! ## The types of what is made -/

/-- A value was not of the expected type. -/
def BuildError.IsMismatch : BuildError → Prop
  | typeMismatch _ => True
  | _ => False

/-- Building comes to a value of the type, or fails for another reason than the type of a value. -/
def Builds (t : TypeRef) : Except BuildError Value → Prop
  | .ok v => v.type = t
  | .error e => ¬ e.IsMismatch

namespace Container

/-- **Values are unpacked if all of them are of the type.** -/
theorem unpack_eq (item : TypeRef) (items : List Value) : unpack item items =
    if ∀ x ∈ items, x.type = item then .ok (items.map (·.datum))
    else .error (.typeMismatch item.name) := by
  induction items with
  | nil => rfl
  | cons x rest ih =>
    have hcons : (∀ y ∈ x :: rest, y.type = item) ↔ x.type = item ∧ ∀ y ∈ rest, y.type = item :=
      List.forall_mem_cons
    rw [unpack, Value.as, ih]
    by_cases hx : x.type = item
    · by_cases hrest : ∀ y ∈ rest, y.type = item
      · rw [if_pos hx, if_pos hrest, if_pos (hcons.2 ⟨hx, hrest⟩)]
        rfl
      · rw [if_pos hx, if_neg hrest, if_neg (mt hcons.1 fun h => hrest h.2)]
        rfl
    · rw [if_neg hx, if_neg (mt hcons.1 fun h => hx h.1)]
      rfl

theorem unpackEntries_eq (value : TypeRef) (entries : List (String × Value)) :
    unpackEntries value entries =
      if ∀ e ∈ entries, e.2.type = value then .ok (entries.map fun e => (e.1, e.2.datum))
      else .error (.typeMismatch value.name) := by
  induction entries with
  | nil => rfl
  | cons e rest ih =>
    have hcons : (∀ f ∈ e :: rest, f.2.type = value) ↔
        e.2.type = value ∧ ∀ f ∈ rest, f.2.type = value := List.forall_mem_cons
    rw [unpackEntries, Value.as, ih]
    by_cases he : e.2.type = value
    · by_cases hrest : ∀ f ∈ rest, f.2.type = value
      · rw [if_pos he, if_pos hrest, if_pos (hcons.2 ⟨he, hrest⟩)]
        rfl
      · rw [if_pos he, if_neg hrest, if_neg (mt hcons.1 fun h => hrest h.2)]
        rfl
    · rw [if_neg he, if_neg (mt hcons.1 fun h => he h.1)]
      rfl

theorem unpack_of_forall {item : TypeRef} {items : List Value} (h : ∀ x ∈ items, x.type = item) :
    unpack item items = .ok (items.map (·.datum)) :=
  (unpack_eq item items).trans (if_pos h)

theorem unpackEntries_of_forall {value : TypeRef} {entries : List (String × Value)}
    (h : ∀ e ∈ entries, e.2.type = value) : ∃ data, unpackEntries value entries = .ok data :=
  ⟨_, (unpackEntries_eq value entries).trans (if_pos h)⟩

end Container

namespace Descriptor

variable {d : Descriptor} {into : Option Value} {item : TypeRef}

/-- **Elements of the element type are put together without a mismatch.** -/
theorem builds_collect (hitem : d.item? = some item)
    (hinto : ∀ old, into = some old → old.type = d.type) {items : List Value}
    (hitems : ∀ x ∈ items, x.type = item) : Builds d.type (d.collect into items) := by
  have hunpack := Container.unpack_of_forall hitems
  unfold item? at hitem
  unfold collect
  cases hshape : d.shape <;> rw [hshape] at hitem <;>
    simp only [reduceCtorEq, Option.some.injEq] at hitem
  case list =>
    subst hitem
    cases into with
    | none =>
      simp only [Container.list, hunpack]
      exact rfl
    | some old =>
      simp only [Container.extendList, Value.as, if_pos (hinto old rfl), hunpack]
      exact rfl
  case array item' capacity =>
    subst hitem
    simp only [Container.array, hunpack]
    cases capacity with
    | none => exact rfl
    | some n =>
      by_cases hlength : items.length ≠ n
      · simp only [if_pos hlength]
        exact not_false
      · simp only [if_neg hlength]
        exact rfl
  case set =>
    subst hitem
    cases into with
    | none =>
      simp only [Container.set, hunpack]
      exact rfl
    | some old =>
      simp only [Container.extendSet, Value.as, if_pos (hinto old rfl), hunpack]
      exact rfl
  case map => exact not_false

/-- **Values of the value type are put together to a map.** -/
theorem collectEntries_of_forall {value : TypeRef} (hshape : d.shape = .map value)
    (hinto : ∀ old, into = some old → old.type = d.type) {entries : List (String × Value)}
    (h : ∀ e ∈ entries, e.2.type = value) :
    ∃ v, v.type = d.type ∧ d.collectEntries into entries = .ok v := by
  obtain ⟨data, hdata⟩ := Container.unpackEntries_of_forall h
  unfold collectEntries
  rw [hshape]
  cases into with
  | none =>
    simp only [Container.map, hdata]
    exact ⟨_, rfl, rfl⟩
  | some old =>
    simp only [Container.extendMap, Value.as, if_pos (hinto old rfl), hdata]
    exact ⟨_, rfl, rfl⟩

namespace Sound

variable {Γ : Typing}

theorem of_construct (h : d.Sound Γ) {components : Components} (hc : components.Of Γ d.components)
    {v : Value} (hv : d.construct components = .ok v) : v.Of Γ d.type := by
  refine ⟨?_, h.construct components v hc hv⟩
  unfold Descriptor.construct at hv
  split at hv
  · rename_i construct _
    cases hbuild : construct.build components with
    | error e =>
      rw [hbuild] at hv
      cases hv
    | ok datum =>
      rw [hbuild] at hv
      exact (Except.ok.inj hv) ▸ rfl
  · cases hv

theorem of_instantiate (h : d.Sound Γ) {v : Value} (hv : d.instantiate = .ok v) :
    v.Of Γ d.type := by
  refine ⟨?_, h.factory v hv⟩
  unfold Descriptor.instantiate at hv
  split at hv
  · exact (Except.ok.inj hv) ▸ rfl
  · cases hv

theorem of_get? (h : d.Sound Γ) {p : Property} (hp : p ∈ d.properties) {target v : Value}
    (htarget : target.Of Γ d.type) (hv : p.get? target = some v) : v.Of Γ p.type := by
  refine ⟨?_, h.getter p hp target v htarget hv⟩
  unfold Property.get? at hv
  split at hv
  · obtain ⟨getter, -, rfl⟩ := Option.map_eq_some_iff.1 hv
    rfl
  · cases hv

theorem of_set (h : d.Sound Γ) {p : Property} (hp : p ∈ d.properties) {target value v : Value}
    (htarget : target.Of Γ d.type) (hvalue : value.Of Γ p.type)
    (hv : p.set target value = .ok v) : v.Of Γ d.type :=
  ⟨(p.type_of_set hv).trans htarget.type_eq, h.setter p hp target value v htarget hvalue hv⟩

end Sound

end Descriptor

/-- The typing that says of texts that their data is text, and nothing of other types. -/
def Typing.texts : Typing := fun t d => t = .text → ∃ text, d = .text text

theorem Descriptor.sound_of_scalar {Γ : Typing} {d : Descriptor} (h : d.shape = .scalar) :
    d.Sound Γ := by
  have hproperties : d.properties = [] := by rw [properties, h]
  constructor
  · intro into items v _ _ hv
    simp [collect, h] at hv
  · intro into entries v _ _ hv
    simp [collectEntries, h] at hv
  · intro components v _ hv
    simp [Descriptor.construct, h] at hv
  · intro v hv
    simp [instantiate, h] at hv
  · simp [hproperties]
  · simp [hproperties]

theorem Descriptor.sound_texts {d : Descriptor} (htype : d.type ≠ .text)
    (hproperties : ∀ p ∈ d.properties, p.type ≠ .text) : d.Sound Typing.texts where
  collect _ _ _ _ _ _ h := absurd h htype
  entries _ _ _ _ _ _ h := absurd h htype
  construct _ _ _ _ h := absurd h htype
  factory _ _ h := absurd h htype
  getter p hp _ _ _ _ h := absurd h (hproperties p hp)
  setter _ _ _ _ _ _ _ _ h := absurd h htype

end ConfigBind
