import ConfigBind.Bind.Binder
import ConfigBind.Proofs.Types.Registration
import Mathlib.Data.List.Basic

/-!
# Selecting strategies

The built-in strategies stand in the order of their priorities (`Strategy.arrange_nil`), and the
first that supports a type is the one for its kind (`Strategy.find?_builtin`).  A binder with these
strategies and no others is `Standard`: it has a strategy for every type that is registered
(`Binder.Standard.strategyFor_eq`).
-/

namespace ConfigBind

namespace Strategy

theorem arrange_nil : arrange [] = builtin := by
  refine List.mergeSort_of_pairwise ?_
  simp [builtin, scalar, map, array, set, list, record, bean]

def ofKind : TypeKind → Strategy
  | .scalar => scalar
  | .map => map
  | .array => array
  | .set => set
  | .list => list
  | .record => record
  | .object | .bean => bean

theorem find?_builtin (d : Descriptor) :
    builtin.find? (·.supports d) = some (ofKind d.kind) := by
  simp only [builtin, List.find?_cons, scalar, map, array, set, list, record, bean]
  cases d.kind <;> rfl

theorem ofKind_mem_builtin (k : TypeKind) : ofKind k ∈ builtin := by
  cases k <;> simp [ofKind, builtin]

end Strategy

namespace Binder

variable {b : Binder} {t : TypeRef}

/-- The binder has the built-in strategies, and no others. -/
def Standard (b : Binder) : Prop := b.strategies = Strategy.arrange []

theorem strategyFor_of_get?_eq_none (h : b.registry.get? t = none) :
    b.strategyFor t = .error (.unregisteredType t.name) := by
  rw [strategyFor, h]

theorem isRecursive_of_strategyFor {e : BindError} (h : b.strategyFor t = .error e) :
    e.isRecursive = false := by
  unfold strategyFor at h
  split at h
  · exact Except.error.inj h ▸ rfl
  · split at h
    · exact Except.error.inj h ▸ rfl
    · cases h

theorem Standard.strategyFor_eq (hb : b.Standard) {d : Descriptor}
    (h : b.registry.get? t = some d) : b.strategyFor t = .ok (Strategy.ofKind d.kind) := by
  rw [strategyFor, h]
  dsimp only
  rw [hb, Strategy.arrange_nil, Strategy.find?_builtin]

theorem Standard.get?_of_strategyFor (hb : b.Standard) {strategy : Strategy}
    (h : b.strategyFor t = .ok strategy) :
    ∃ d, b.registry.get? t = some d ∧ strategy = Strategy.ofKind d.kind := by
  cases hd : b.registry.get? t with
  | none =>
    rw [strategyFor_of_get?_eq_none hd] at h
    cases h
  | some d =>
    rw [hb.strategyFor_eq hd] at h
    exact ⟨d, rfl, (Except.ok.inj h).symm⟩

theorem Standard.mem_builtin (hb : b.Standard) {strategy : Strategy}
    (h : b.strategyFor t = .ok strategy) : strategy ∈ Strategy.builtin := by
  obtain ⟨d, -, rfl⟩ := hb.get?_of_strategyFor h
  exact Strategy.ofKind_mem_builtin d.kind

end Binder

end ConfigBind
