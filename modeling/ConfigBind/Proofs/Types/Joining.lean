import ConfigBind.Proofs.Types.Lookups
import ConfigBind.Types.Container
import Mathlib.Data.List.Induction
import Mathlib.Order.Compare

/-!
# Containers that are extended

A list, a set or a map may be put together on top of an existing value.  `Datum.Joined` says what
it is then, by that value and by what is put together of the same parts on its own: the items of
the one with those of the other behind them, the union of both, or the entries of the one with
those of the other over them.

* `Datum.eq_of_compare`: only equal data compare as equal, so a set loses no element.
* `Descriptor.joined_of_collect`, `Descriptor.joined_of_collectEntries`: extending a value joins it
  with what is new.
-/

namespace ConfigBind

/-! ## The order of data -/

theorem Binary64.eq_of_bits {x y : Binary64} (h : x.bits.toNat = y.bits.toNat) : x = y :=
  congrArg mk (UInt64.toNat_inj.1 h)

theorem Binary32.eq_of_bits {x y : Binary32} (h : x.bits.toNat = y.bits.toNat) : x = y :=
  congrArg mk (UInt32.toNat_inj.1 h)

namespace Node

mutual

theorem eq_of_compare : (a b : Node) → Node.compare a b = .eq → a = b
  | null, b, h => by cases b <;> simp [Node.compare, rank] at h ⊢
  | bool x, b, h => by cases b <;> simp_all [Node.compare, rank]
  | int x, b, h => by cases b <;> simp_all [Node.compare, rank, Int64.toInt_inj]
  | uint x, b, h => by cases b <;> simp_all [Node.compare, rank, UInt64.toNat_inj]
  | float x, b, h => by
    cases b with
    | float y => exact congrArg float (Binary64.eq_of_bits (Nat.compare_eq_eq.1 h))
    | _ => simp [Node.compare, rank] at h
  | text x, b, h => by cases b <;> simp_all [Node.compare, rank]
  | list xs, b, h => by
    cases b with
    | list ys => exact congrArg list (eq_of_compareItems xs ys h)
    | _ => simp [Node.compare, rank] at h
  | map xs, b, h => by
    cases b with
    | map ys => exact congrArg map (eq_of_compareEntries xs ys h)
    | _ => simp [Node.compare, rank] at h

theorem eq_of_compareItems : (xs ys : List Node) → compareItems xs ys = .eq → xs = ys
  | [], [], _ => rfl
  | [], _ :: _, h => by cases h
  | _ :: _, [], h => by cases h
  | x :: xs, y :: ys, h => by
    obtain ⟨hfirst, hrest⟩ := Ordering.then_eq_eq.1 h
    rw [eq_of_compare x y hfirst, eq_of_compareItems xs ys hrest]

theorem eq_of_compareEntries :
    (xs ys : List (String × Node)) → compareEntries xs ys = .eq → xs = ys
  | [], [], _ => rfl
  | [], _ :: _, h => by cases h
  | _ :: _, [], h => by cases h
  | (k, x) :: xs, (l, y) :: ys, h => by
    obtain ⟨hkey, hentry⟩ := Ordering.then_eq_eq.1 h
    obtain ⟨hfirst, hrest⟩ := Ordering.then_eq_eq.1 hentry
    rw [Std.LawfulEqCmp.eq_of_compare hkey, eq_of_compare x y hfirst,
      eq_of_compareEntries xs ys hrest]

end

end Node

namespace Datum

mutual

/-- **Only equal data compare as equal.** -/
theorem eq_of_compare : (a b : Datum) → Datum.compare a b = .eq → a = b
  | bool x, b, h => by cases b <;> simp_all [Datum.compare, rank]
  | char x, b, h => by cases b <;> simp_all [Datum.compare, rank, Char.toNat_inj]
  | text x, b, h => by cases b <;> simp_all [Datum.compare, rank]
  | int x, b, h => by cases b <;> simp_all [Datum.compare, rank]
  | double x, b, h => by
    cases b with
    | double y => exact congrArg double (Binary64.eq_of_bits (Nat.compare_eq_eq.1 h))
    | _ => simp [Datum.compare, rank] at h
  | single x, b, h => by
    cases b with
    | single y => exact congrArg single (Binary32.eq_of_bits (Nat.compare_eq_eq.1 h))
    | _ => simp [Datum.compare, rank] at h
  | tree x, b, h => by
    cases b with
    | tree y => exact congrArg tree (Node.eq_of_compare x y h)
    | _ => simp [Datum.compare, rank] at h
  | none, b, h => by cases b <;> simp [Datum.compare, rank] at h ⊢
  | list xs, b, h => by
    cases b with
    | list ys => exact congrArg list (eq_of_compareItems xs ys h)
    | _ => simp [Datum.compare, rank] at h
  | set xs, b, h => by
    cases b with
    | set ys => exact congrArg set (eq_of_compareItems xs ys h)
    | _ => simp [Datum.compare, rank] at h
  | map xs, b, h => by
    cases b with
    | map ys => exact congrArg map (eq_of_compareEntries xs ys h)
    | _ => simp [Datum.compare, rank] at h
  | object xs, b, h => by
    cases b with
    | object ys => exact congrArg object (eq_of_compareEntries xs ys h)
    | _ => simp [Datum.compare, rank] at h

theorem eq_of_compareItems : (xs ys : List Datum) → compareItems xs ys = .eq → xs = ys
  | [], [], _ => rfl
  | [], _ :: _, h => by cases h
  | _ :: _, [], h => by cases h
  | x :: xs, y :: ys, h => by
    obtain ⟨hfirst, hrest⟩ := Ordering.then_eq_eq.1 h
    rw [eq_of_compare x y hfirst, eq_of_compareItems xs ys hrest]

theorem eq_of_compareEntries :
    (xs ys : List (String × Datum)) → compareEntries xs ys = .eq → xs = ys
  | [], [], _ => rfl
  | [], _ :: _, h => by cases h
  | _ :: _, [], h => by cases h
  | (k, x) :: xs, (l, y) :: ys, h => by
    obtain ⟨hkey, hentry⟩ := Ordering.then_eq_eq.1 h
    obtain ⟨hfirst, hrest⟩ := Ordering.then_eq_eq.1 hentry
    rw [Std.LawfulEqCmp.eq_of_compare hkey, eq_of_compare x y hfirst,
      eq_of_compareEntries xs ys hrest]

end

/-! ## Sets and maps with more elements -/

theorem mem_insertElement {x y : Datum} {elements : List Datum} :
    y ∈ insertElement x elements ↔ y = x ∨ y ∈ elements := by
  induction elements with
  | nil => simp [insertElement]
  | cons z rest ih =>
    unfold insertElement
    cases h : compare x z with
    | lt => simp
    | eq =>
      obtain rfl := eq_of_compare x z h
      simp
    | gt =>
      simp only [List.mem_cons, ih]
      tauto

/-- **A set with more elements is the union.** -/
theorem mem_insertElements {y : Datum} {elements added : List Datum} :
    y ∈ insertElements elements added ↔ y ∈ elements ∨ y ∈ added := by
  unfold insertElements
  induction added generalizing elements with
  | nil => simp
  | cons x rest ih =>
    rw [List.foldl_cons, ih, mem_insertElement, List.mem_cons]
    tauto

end Datum

namespace Entries

variable {α : Type}

theorem get?_insertAll_reverse (key : String) (entries added : List (String × α)) :
    get? key (insertAll entries added) = (added.reverse.lookup key).or (get? key entries) := by
  induction added using List.reverseRecOn with
  | nil => rfl
  | append_singleton added e ih =>
    obtain ⟨k, v⟩ := e
    have hinsert : get? key (insertAll entries (added ++ [(k, v)])) =
        if key = k then some v else get? key (insertAll entries added) := by
      rw [insertAll_append]
      exact lookup_insert k v _ key
    have hreverse : (added ++ [(k, v)]).reverse = (k, v) :: added.reverse := List.reverse_concat
    rw [hinsert, ih, hreverse]
    by_cases hkey : key = k
    · rw [if_pos hkey, hkey, List.lookup_cons_self]
      rfl
    · rw [if_neg hkey, lookup_cons_of_ne hkey]

/-- **A map with more entries has them over those it had.** -/
theorem get?_insertAll (key : String) (entries added : List (String × α)) :
    get? key (insertAll entries added) = (get? key (ofList added)).or (get? key entries) := by
  have hnew : get? key (ofList added) = (added.reverse.lookup key).or none :=
    get?_insertAll_reverse key [] added
  rw [get?_insertAll_reverse, hnew, Option.or_none]

end Entries

/-! ## Joining -/

/-- What a value of a kind that was extended is, by the old value and by a new one of the same parts
alone.  Only lists, sets and maps are extended. -/
def Datum.Joined (old new : Datum) : (kind : TypeKind) → (joined : Datum) → Prop
  | .list, joined => joined = .list (old.elements ++ new.elements)
  | .set, joined => ∃ elements, joined = .set elements ∧
      ∀ x, x ∈ elements ↔ x ∈ old.elements ∨ x ∈ new.elements
  | .map, joined => ∃ entries, joined = .map entries ∧ ∀ key,
      Entries.get? key entries = (Entries.get? key new.entries).or (Entries.get? key old.entries)
  | _, joined => joined = new

theorem Container.of_extend {α : Type} {t : TypeRef} {old v : Value}
    {unpacked : Except BuildError α} {f : Datum → α → Value}
    (h : (do
      let datum ← old.as t
      let new ← unpacked
      return f datum new) = Except.ok v) : ∃ new, unpacked = .ok new ∧ v = f old.datum new := by
  unfold Value.as at h
  split at h
  · cases unpacked with
    | error e => cases h
    | ok new => exact ⟨new, rfl, (Except.ok.inj h).symm⟩
  · cases h

namespace Descriptor

variable {d : Descriptor} {old v : Value}

/-- **Lists and sets are joined with an old value**; an array is new. -/
theorem joined_of_collect {items : List Value} (h : d.collect (some old) items = .ok v) :
    ∃ new, d.collect none items = .ok new ∧ old.datum.Joined new.datum d.kind v.datum := by
  rw [kind]
  unfold collect at h ⊢
  cases hshape : d.shape <;> rw [hshape] at h <;> dsimp only at h ⊢
  case list item =>
    obtain ⟨new, hnew, rfl⟩ := Container.of_extend h
    rw [Container.list, hnew]
    exact ⟨_, rfl, rfl⟩
  case array item capacity => exact ⟨v, h, rfl⟩
  case set item =>
    obtain ⟨new, hnew, rfl⟩ := Container.of_extend h
    rw [Container.set, hnew]
    refine ⟨_, rfl, _, rfl, fun x => ?_⟩
    rw [Datum.mem_insertElements, Datum.elements, Datum.mem_insertElements]
    simp
  all_goals cases h

/-- **Maps are joined with an old value.** -/
theorem joined_of_collectEntries {entries : List (String × Value)}
    (h : d.collectEntries (some old) entries = .ok v) :
    ∃ new, d.collectEntries none entries = .ok new ∧
      old.datum.Joined new.datum d.kind v.datum := by
  rw [kind]
  unfold collectEntries at h ⊢
  cases hshape : d.shape <;> rw [hshape] at h <;> dsimp only at h ⊢
  case map value =>
    obtain ⟨new, hnew, rfl⟩ := Container.of_extend h
    rw [Container.map, hnew]
    exact ⟨_, rfl, _, rfl, fun key => Entries.get?_insertAll key _ _⟩
  all_goals cases h

end Descriptor

end ConfigBind
