import ConfigBind.Bind.Outcome
import Mathlib.Tactic.ByContra

/-!
# Recursive errors

`BindError.isRecursive` looks for a path that was being bound already through the wrappers of
failures and the failures of members, and through nothing else: `isRecursive_iff` says so by
`BindError.Recurs`, which is a path in the tree of the error.
-/

namespace ConfigBind

namespace BindError

/-- The tree of the error has a path down to a recursive error, through failures below a path and
failures of members. -/
inductive Recurs : BindError → Prop
  | recursive {path : String} : Recurs (recursive path)
  | failed {path target : String} {cause : BindError} (h : Recurs cause) :
      Recurs (failed path target cause)
  | members {type : String} {errors : List BindError} {e : BindError} (he : e ∈ errors)
      (h : Recurs e) : Recurs (members type errors)

theorem anyRecursive_append (xs ys : List BindError) :
    anyRecursive (xs ++ ys) = (anyRecursive xs || anyRecursive ys) := by
  induction xs with
  | nil => rfl
  | cons e rest ih => rw [List.cons_append, anyRecursive, anyRecursive, ih, Bool.or_assoc]

theorem anyRecursive_of_mem {e : BindError} {errors : List BindError} (he : e ∈ errors)
    (h : e.isRecursive = true) : anyRecursive errors = true := by
  obtain ⟨before, after, rfl⟩ := List.append_of_mem he
  rw [anyRecursive_append, anyRecursive, h, Bool.true_or, Bool.or_true]

theorem anyRecursive_eq_false_of_subset {xs ys : List BindError} (hsub : xs ⊆ ys)
    (h : anyRecursive ys = false) : anyRecursive xs = false := by
  induction xs with
  | nil => rfl
  | cons e rest ih =>
    have he : e.isRecursive = false := by
      by_contra hrecursive
      have hany := anyRecursive_of_mem (hsub List.mem_cons_self) (by simpa using hrecursive)
      rw [h] at hany
      cases hany
    rw [anyRecursive, he, ih fun x hx => hsub (List.mem_cons_of_mem _ hx)]
    rfl

mutual

theorem recurs_of_isRecursive : (e : BindError) → e.isRecursive = true → e.Recurs
  | recursive _, _ => .recursive
  | failed _ _ cause, h => .failed (recurs_of_isRecursive cause h)
  | members _ errors, h =>
    have ⟨_, he, hrecurs⟩ := exists_recurs_of_anyRecursive errors h
    .members he hrecurs

theorem exists_recurs_of_anyRecursive : (errors : List BindError) → anyRecursive errors = true →
    ∃ e ∈ errors, e.Recurs
  | e :: rest, h => by
    rw [anyRecursive, Bool.or_eq_true] at h
    rcases h with h | h
    · exact ⟨e, List.mem_cons_self, recurs_of_isRecursive e h⟩
    · obtain ⟨e', he', hrecurs⟩ := exists_recurs_of_anyRecursive rest h
      exact ⟨e', List.mem_cons_of_mem _ he', hrecurs⟩

end

theorem Recurs.isRecursive {e : BindError} (h : e.Recurs) : e.isRecursive = true := by
  induction h with
  | recursive => rfl
  | failed _ ih => exact ih
  | members he _ ih => exact anyRecursive_of_mem he ih

theorem isRecursive_iff (e : BindError) : e.isRecursive = true ↔ e.Recurs :=
  ⟨recurs_of_isRecursive e, Recurs.isRecursive⟩

end BindError

namespace Outcome

variable {α : Type}

def errors (o : Outcome α) : List BindError := o.error?.toList

def isRecursive (o : Outcome α) : Bool := BindError.anyRecursive o.errors

@[simp] theorem errors_present (value : α) : (present value).errors = [] := rfl

@[simp] theorem errors_empty : (empty : Outcome α).errors = [] := rfl

theorem isFailed_eq_false_of_errors {o : Outcome α} (h : o.errors = []) : o.isFailed = false := by
  cases o with
  | failed e => cases h
  | _ => rfl

@[simp] theorem isRecursive_failed (e : BindError) :
    (failed e : Outcome α).isRecursive = e.isRecursive :=
  Bool.or_false _

theorem isRecursive_iff {o : Outcome α} :
    o.isRecursive = true ↔ ∃ e, o = .failed e ∧ e.isRecursive = true := by
  cases o with
  | failed e => simp
  | _ => simp [isRecursive, BindError.anyRecursive]

theorem isRecursive_eq_false_iff {o : Outcome α} :
    o.isRecursive = false ↔ ∀ e, o = .failed e → e.isRecursive = false := by
  simp only [← Bool.not_eq_true, isRecursive_iff, not_exists, not_and]

end Outcome

end ConfigBind
