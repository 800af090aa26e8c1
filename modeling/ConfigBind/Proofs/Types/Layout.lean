import ConfigBind.Proofs.Types.Typing
import ConfigBind.Types.Fields
import Mathlib.Data.List.Nodup

/-!
# Fields of beans

A `Layout` says what the data of a bean consists of: fields that can be read, one of which belongs
to each property.  The accessors of a bean type are lawful for a layout if a setter puts its value
in the field of its property and leaves the others alone, if a getter reads the field of its
property, and if no two properties share one.

* `Layout.Lawful.get?_eq`: what a property reads depends on its own field alone.
* `Descriptor.lawful_ofBean`: the bean types that are given by their fields are lawful.
-/

namespace ConfigBind

/-- What the data of a bean consists of. -/
structure Layout where
  Field : Type
  read : Field → Datum → Datum
  /-- The field of a property. -/
  own : Property → Field

/-- The accessors of the writable properties of a type keep to the fields of their properties. -/
structure Layout.Lawful (L : Layout) (Γ : Typing) (d : Descriptor) : Prop where
  distinct : (d.writableProperties.map L.own).Nodup
  set : ∀ p ∈ d.writableProperties, ∀ target value target', target.Of Γ d.type →
    value.Of Γ p.type → p.set target value = .ok target' →
      L.read (L.own p) target'.datum = value.datum
  frame : ∀ p ∈ d.writableProperties, ∀ target value target', target.Of Γ d.type →
    value.Of Γ p.type → p.set target value = .ok target' →
      ∀ field ≠ L.own p, L.read field target'.datum = L.read field target.datum
  get : ∀ p ∈ d.writableProperties, ∀ target v, target.Of Γ d.type → p.get? target = some v →
    v.datum = L.read (L.own p) target.datum

theorem Layout.Lawful.get?_eq {L : Layout} {Γ : Typing} {d : Descriptor} (h : L.Lawful Γ d)
    {p : Property} (hp : p ∈ d.writableProperties) {target target' : Value}
    (htarget : target.Of Γ d.type) (htarget' : target'.Of Γ d.type)
    (hread : L.read (L.own p) target'.datum = L.read (L.own p) target.datum) :
    p.get? target' = p.get? target := by
  have htype : target'.type = target.type := htarget'.type_eq.trans htarget.type_eq.symm
  unfold Property.get?
  rw [htype]
  by_cases howner : target.type = p.owner
  · rw [if_pos howner, if_pos howner]
    cases hgetter : p.getter with
    | none => rfl
    | some getter =>
      have hget (v : Value) (hv : v.Of Γ d.type) (hvowner : v.type = p.owner) :
          getter v.datum = L.read (L.own p) v.datum := by
        refine h.get p hp v ⟨p.type, getter v.datum⟩ hv ?_
        rw [Property.get?, if_pos hvowner, hgetter]
        rfl
      rw [Option.map_some, Option.map_some, hget target htarget howner,
        hget target' htarget' (htype.trans howner), hread]
  · rw [if_neg howner, if_neg howner]

/-! ## Beans of fields -/

theorem Property.datum_of_set {p : Property} {target value v : Value}
    (h : p.set target value = .ok v) :
    ∃ setter, p.setter = some setter ∧ v.datum = setter target.datum value.datum := by
  unfold set Value.as at h
  split at h
  · cases h
  · rename_i setter hsetter
    refine ⟨setter, hsetter, ?_⟩
    by_cases htarget : target.type = p.owner
    · by_cases hvalue : value.type = p.type
      · rw [if_pos htarget, if_pos hvalue] at h
        rw [← Except.ok.inj h]
      · rw [if_pos htarget, if_neg hvalue] at h
        cases h
    · rw [if_neg htarget] at h
      cases h

theorem Property.datum_of_get? {p : Property} {target v : Value} (h : p.get? target = some v) :
    ∃ getter, p.getter = some getter ∧ v.datum = getter target.datum := by
  unfold get? at h
  split at h
  · obtain ⟨getter, hgetter, rfl⟩ := Option.map_eq_some_iff.1 h
    exact ⟨getter, hgetter, rfl⟩
  · cases h

/-- The data is an object that has exactly the fields of these labels. -/
def Datum.Has (labels : List String) (d : Datum) : Prop :=
  ∃ fields, d = .object fields ∧ fields.map (·.1) = labels

namespace Datum

variable {labels : List String} {d : Datum} {name : String}

theorem Has.setField (h : d.Has labels) (name : String) (value : Datum) :
    (d.setField name value).Has labels := by
  obtain ⟨fields, rfl, hlabels⟩ := h
  refine ⟨_, rfl, ?_⟩
  rw [← hlabels, List.map_map]
  rfl

theorem field?_setField_of_ne {other : String} (hne : other ≠ name) (d value : Datum) :
    (d.setField name value).field? other = d.field? other := by
  cases d with
  | object fields =>
    show (fields.map fun e => (e.1, if e.1 = name then value else e.2)).lookup other =
      fields.lookup other
    induction fields with
    | nil => rfl
    | cons e rest ih =>
      obtain ⟨n, v⟩ := e
      rw [List.map_cons, List.lookup_cons, List.lookup_cons, ih]
      by_cases h : n = name
      · have hother : (other == n) = false := by simpa [h] using hne
        rw [hother]
      · rw [if_neg h]
  | _ => rfl

theorem Has.field?_setField (h : d.Has labels) (hname : name ∈ labels) (value : Datum) :
    (d.setField name value).field? name = some value := by
  obtain ⟨fields, rfl, rfl⟩ := h
  show (fields.map fun e => (e.1, if e.1 = name then value else e.2)).lookup name = some value
  induction fields with
  | nil => cases hname
  | cons e rest ih =>
    obtain ⟨n, v⟩ := e
    rw [List.map_cons, List.lookup_cons]
    by_cases hn : name = n
    · simp [hn]
    · have hrest : name ∈ rest.map (·.1) := by simpa [hn] using hname
      have hne : (name == n) = false := by simpa using hn
      rw [hne]
      exact ih hrest

end Datum

/-- Objects by the labels of their fields; the field of a property is the one of its name. -/
def Layout.labelled : Layout where
  Field := String
  read name d := (d.field? name).getD .none
  own p := p.name

section

variable {Γ : Typing} {t : TypeRef} {fields : List Field} {factory : Option Datum}

theorem Descriptor.properties_ofBean :
    (ofBean t fields [] factory).properties = fields.map (Field.property t) :=
  List.append_nil _

theorem Descriptor.writableProperties_ofBean :
    (ofBean t fields [] factory).writableProperties = fields.map (Field.property t) := by
  rw [writableProperties, properties_ofBean]
  refine List.filter_eq_self.2 fun p hp => ?_
  obtain ⟨f, -, rfl⟩ := List.mem_map.1 hp
  rfl

theorem Field.datum_of_set {f : Field} {target value v : Value}
    (h : (f.property t).set target value = .ok v) :
    v.datum = target.datum.setField f.label value.datum := by
  obtain ⟨setter, hsetter, hv⟩ := Property.datum_of_set h
  obtain rfl := Option.some.inj hsetter
  exact hv

theorem Field.datum_of_get? {f : Field} {target v : Value}
    (h : (f.property t).get? target = some v) :
    v.datum = (target.datum.field? f.label).getD .none := by
  obtain ⟨getter, hgetter, hv⟩ := Property.datum_of_get? h
  dsimp only [Field.property] at hgetter
  split at hgetter
  · obtain rfl := Option.some.inj hgetter
    exact hv
  · cases hgetter

/-- **The bean types that are given by fields of different labels are lawful.** -/
theorem Descriptor.lawful_ofBean (hlabels : (fields.map (·.label)).Nodup)
    (hdata : ∀ d, Γ t d → d.Has (fields.map (·.label))) :
    Layout.labelled.Lawful Γ (ofBean t fields [] factory) := by
  have hfield {p : Property} (hp : p ∈ (ofBean t fields [] factory).writableProperties) :
      ∃ f ∈ fields, f.property t = p := by
    rw [writableProperties_ofBean] at hp
    exact List.mem_map.1 hp
  refine ⟨?_, ?_, ?_, ?_⟩
  · rw [writableProperties_ofBean, List.map_map]
    exact hlabels
  · intro p hp target value target' htarget _ hset
    obtain ⟨f, hf, rfl⟩ := hfield hp
    rw [Field.datum_of_set hset]
    have hread := (hdata _ htarget.datum).field?_setField (List.mem_map_of_mem hf) value.datum
    exact congrArg (·.getD .none) hread
  · intro p hp target value target' _ _ hset field hne
    obtain ⟨f, -, rfl⟩ := hfield hp
    rw [Field.datum_of_set hset]
    exact congrArg (·.getD .none) (Datum.field?_setField_of_ne hne target.datum value.datum)
  · intro p hp target v _ hget
    obtain ⟨f, -, rfl⟩ := hfield hp
    exact Field.datum_of_get? hget

theorem Descriptor.sound_ofBean (hdata : ∀ d, Γ t d ↔ d.Has (fields.map (·.label)) ∧
      ∀ f ∈ fields, Γ f.type ((d.field? f.label).getD .none))
    (hlabels : (fields.map (·.label)).Nodup)
    (hfactory : ∀ d, factory = some d → Γ t d) : (ofBean t fields [] factory).Sound Γ where
  collect into items v _ _ hv := by cases into <;> cases hv
  entries into entries v _ _ hv := by cases into <;> cases hv
  construct _ _ _ hv := by cases hv
  factory v hv := by
    cases factory with
    | none => cases hv
    | some datum =>
      obtain rfl := Except.ok.inj hv
      exact hfactory datum rfl
  getter p hp target v htarget hv := by
    obtain ⟨f, hf, rfl⟩ := List.mem_map.1 (properties_ofBean ▸ hp)
    rw [Field.datum_of_get? hv]
    exact ((hdata _).1 htarget.datum).2 f hf
  setter p hp target value v htarget hvalue hv := by
    obtain ⟨f, hf, rfl⟩ := List.mem_map.1 (properties_ofBean ▸ hp)
    obtain ⟨hhas, hfields⟩ := (hdata _).1 htarget.datum
    rw [Field.datum_of_set hv]
    refine (hdata _).2 ⟨hhas.setField _ _, fun g hg => ?_⟩
    by_cases hlabel : g.label = f.label
    · obtain rfl := List.inj_on_of_nodup_map hlabels hg hf hlabel
      rw [hhas.field?_setField (List.mem_map_of_mem hg)]
      exact hvalue.datum
    · rw [Datum.field?_setField_of_ne hlabel]
      exact hfields g hg

end

end ConfigBind
