import ConfigBind.Proofs.Types.Joining
import ConfigBind.Proofs.Types.Typing

/-!
# The order of data

`Node.compare` and `Datum.compare` compare by case first, and what is of one case by its content:
scalars as numbers and texts are, lists element by element.  This is a linear order of data.  Sets
and maps are kept in order, so no element and no key is there twice.

* `Datum.compare_swap`, `Datum.lt_trans`: the order of data is total and transitive.
* `Datum.Ascending.insertElements`, `Entries.Ascending.insertAll`: sets and maps stay in order when
  more is put in.
-/

namespace ConfigBind

/-! ## Comparing by several keys -/

theorem then_lt_trans {o o' o'' p p' p'' : Ordering} (hfirst : o = .lt → o' = .lt → o'' = .lt)
    (hleft : o = .eq → o'' = o') (hright : o' = .eq → o'' = o)
    (hrest : p = .lt → p' = .lt → p'' = .lt) (h : o.then p = .lt) (h' : o'.then p' = .lt) :
    o''.then p'' = .lt := by
  apply Ordering.then_eq_lt.2
  rcases Ordering.then_eq_lt.1 h with hlt | ⟨heq, hp⟩
  · rcases Ordering.then_eq_lt.1 h' with hlt' | ⟨heq', -⟩
    · exact .inl (hfirst hlt hlt')
    · exact .inl ((hright heq').trans hlt)
  · rcases Ordering.then_eq_lt.1 h' with hlt' | ⟨heq', hp'⟩
    · exact .inl ((hleft heq).trans hlt')
    · exact .inr ⟨(hleft heq).trans heq', hrest hp hp'⟩

section Rank

variable {α : Type} {cmp : α → α → Ordering} {rank : α → Nat} {a b c : α}

theorem lt_or_rank_eq (hrank : ∀ a b, rank a ≠ rank b → cmp a b = compare (rank a) (rank b))
    (h : cmp a b = .lt) (h' : cmp b c = .lt) :
    cmp a c = .lt ∨ rank b = rank a ∧ rank c = rank a := by
  have hle {a b : α} (h : cmp a b = .lt) : rank a ≤ rank b := by
    by_contra hgt
    rw [hrank a b (by omega), Nat.compare_eq_lt] at h
    omega
  have hab := hle h
  have hbc := hle h'
  by_cases hac : rank a = rank c
  · exact .inr ⟨by omega, hac.symm⟩
  · left
    rw [hrank a c hac, Nat.compare_eq_lt]
    omega

theorem swap_or_rank_eq (hrank : ∀ a b, rank a ≠ rank b → cmp a b = compare (rank a) (rank b)) :
    (cmp a b).swap = cmp b a ∨ rank b = rank a := by
  by_cases h : rank b = rank a
  · exact .inr h
  · left
    rw [hrank a b (Ne.symm h), hrank b a h]
    exact Nat.compare_swap _ _

end Rank

namespace Node

theorem compare_of_rank_ne (a b : Node) (h : a.rank ≠ b.rank) :
    Node.compare a b = Ord.compare a.rank b.rank := by
  cases a <;> cases b <;> first | rfl | exact absurd rfl h

mutual

theorem lt_trans (a b c : Node) (h : Node.compare a b = .lt) (h' : Node.compare b c = .lt) :
    Node.compare a c = .lt := by
  rcases lt_or_rank_eq compare_of_rank_ne h h' with hlt | ⟨hb, hc⟩
  · exact hlt
  · cases a with
    | null => cases b <;> cases hb; cases h
    | list xs =>
      cases b <;> cases hb
      cases c <;> cases hc
      exact lt_trans_items xs _ _ h h'
    | map xs =>
      cases b <;> cases hb
      cases c <;> cases hc
      exact lt_trans_entries xs _ _ h h'
    | _ =>
      cases b <;> cases hb
      cases c <;> cases hc
      simp only [Node.compare] at h h' ⊢
      exact Std.TransCmp.lt_trans h h'

theorem lt_trans_items : (xs ys zs : List Node) → compareItems xs ys = .lt →
    compareItems ys zs = .lt → compareItems xs zs = .lt
  | [], [], _, h, _ => by cases h
  | [], _ :: _, [], _, h' => by cases h'
  | [], _ :: _, _ :: _, _, _ => rfl
  | _ :: _, [], _, h, _ => by cases h
  | _ :: _, _ :: _, [], _, h' => by cases h'
  | x :: xs, y :: ys, z :: zs, h, h' =>
    then_lt_trans (lt_trans x y z) (fun heq => by rw [eq_of_compare x y heq])
      (fun heq => by rw [eq_of_compare y z heq]) (lt_trans_items xs ys zs) h h'

theorem lt_trans_entries : (xs ys zs : List (String × Node)) → compareEntries xs ys = .lt →
    compareEntries ys zs = .lt → compareEntries xs zs = .lt
  | [], [], _, h, _ => by cases h
  | [], _ :: _, [], _, h' => by cases h'
  | [], _ :: _, _ :: _, _, _ => rfl
  | _ :: _, [], _, h, _ => by cases h
  | _ :: _, _ :: _, [], _, h' => by cases h'
  | (k, x) :: xs, (l, y) :: ys, (m, z) :: zs, h, h' =>
    then_lt_trans Std.TransCmp.lt_trans
      (fun heq => by rw [Std.LawfulEqCmp.eq_of_compare heq])
      (fun heq => by rw [Std.LawfulEqCmp.eq_of_compare heq])
      (then_lt_trans (lt_trans x y z) (fun heq => by rw [eq_of_compare x y heq])
        (fun heq => by rw [eq_of_compare y z heq]) (lt_trans_entries xs ys zs)) h h'

end

mutual

theorem compare_swap (a b : Node) : (Node.compare a b).swap = Node.compare b a := by
  rcases swap_or_rank_eq compare_of_rank_ne with hswap | hb
  · exact hswap
  · cases a with
    | null => cases b <;> cases hb; rfl
    | list xs => cases b <;> cases hb; exact compare_swap_items xs _
    | map xs => cases b <;> cases hb; exact compare_swap_entries xs _
    | _ => cases b <;> cases hb; simp only [Node.compare]; exact Std.OrientedCmp.eq_swap.symm

theorem compare_swap_items : (xs ys : List Node) → (compareItems xs ys).swap = compareItems ys xs
  | [], [] | [], _ :: _ | _ :: _, [] => rfl
  | x :: xs, y :: ys => by
    rw [compareItems, compareItems, Ordering.swap_then, compare_swap x y, compare_swap_items xs ys]

theorem compare_swap_entries : (xs ys : List (String × Node)) →
    (compareEntries xs ys).swap = compareEntries ys xs
  | [], [] | [], _ :: _ | _ :: _, [] => rfl
  | (k, x) :: xs, (l, y) :: ys => by
    rw [compareEntries, compareEntries, Ordering.swap_then, Ordering.swap_then, compare_swap x y,
      compare_swap_entries xs ys, ← Std.OrientedCmp.eq_swap (a := l) (b := k)]

end

end Node

namespace Datum

theorem compare_of_rank_ne (a b : Datum) (h : a.rank ≠ b.rank) :
    Datum.compare a b = Ord.compare a.rank b.rank := by
  cases a <;> cases b <;> first | rfl | exact absurd rfl h

mutual

theorem lt_trans (a b c : Datum) (h : Datum.compare a b = .lt) (h' : Datum.compare b c = .lt) :
    Datum.compare a c = .lt := by
  rcases lt_or_rank_eq compare_of_rank_ne h h' with hlt | ⟨hb, hc⟩
  · exact hlt
  · cases a with
    | tree x =>
      cases b <;> cases hb
      cases c <;> cases hc
      exact Node.lt_trans x _ _ h h'
    | none => cases b <;> cases hb; cases h
    | list xs | set xs =>
      cases b <;> cases hb
      cases c <;> cases hc
      exact lt_trans_items xs _ _ h h'
    | map xs | object xs =>
      cases b <;> cases hb
      cases c <;> cases hc
      exact lt_trans_entries xs _ _ h h'
    | _ =>
      cases b <;> cases hb
      cases c <;> cases hc
      simp only [Datum.compare] at h h' ⊢
      exact Std.TransCmp.lt_trans h h'

theorem lt_trans_items : (xs ys zs : List Datum) → compareItems xs ys = .lt →
    compareItems ys zs = .lt → compareItems xs zs = .lt
  | [], [], _, h, _ => by cases h
  | [], _ :: _, [], _, h' => by cases h'
  | [], _ :: _, _ :: _, _, _ => rfl
  | _ :: _, [], _, h, _ => by cases h
  | _ :: _, _ :: _, [], _, h' => by cases h'
  | x :: xs, y :: ys, z :: zs, h, h' =>
    then_lt_trans (lt_trans x y z) (fun heq => by rw [eq_of_compare x y heq])
      (fun heq => by rw [eq_of_compare y z heq]) (lt_trans_items xs ys zs) h h'

theorem lt_trans_entries : (xs ys zs : List (String × Datum)) → compareEntries xs ys = .lt →
    compareEntries ys zs = .lt → compareEntries xs zs = .lt
  | [], [], _, h, _ => by cases h
  | [], _ :: _, [], _, h' => by cases h'
  | [], _ :: _, _ :: _, _, _ => rfl
  | _ :: _, [], _, h, _ => by cases h
  | _ :: _, _ :: _, [], _, h' => by cases h'
  | (k, x) :: xs, (l, y) :: ys, (m, z) :: zs, h, h' =>
    then_lt_trans Std.TransCmp.lt_trans
      (fun heq => by rw [Std.LawfulEqCmp.eq_of_compare heq])
      (fun heq => by rw [Std.LawfulEqCmp.eq_of_compare heq])
      (then_lt_trans (lt_trans x y z) (fun heq => by rw [eq_of_compare x y heq])
        (fun heq => by rw [eq_of_compare y z heq]) (lt_trans_entries xs ys zs)) h h'

end

mutual

theorem compare_swap (a b : Datum) : (Datum.compare a b).swap = Datum.compare b a := by
  rcases swap_or_rank_eq compare_of_rank_ne with hswap | hb
  · exact hswap
  · cases a with
    | tree x => cases b <;> cases hb; exact Node.compare_swap x _
    | none => cases b <;> cases hb; rfl
    | list xs | set xs => cases b <;> cases hb; exact compare_swap_items xs _
    | map xs | object xs => cases b <;> cases hb; exact compare_swap_entries xs _
    | _ => cases b <;> cases hb; simp only [Datum.compare]; exact Std.OrientedCmp.eq_swap.symm

theorem compare_swap_items : (xs ys : List Datum) → (compareItems xs ys).swap = compareItems ys xs
  | [], [] | [], _ :: _ | _ :: _, [] => rfl
  | x :: xs, y :: ys => by
    rw [compareItems, compareItems, Ordering.swap_then, compare_swap x y, compare_swap_items xs ys]

theorem compare_swap_entries : (xs ys : List (String × Datum)) →
    (compareEntries xs ys).swap = compareEntries ys xs
  | [], [] | [], _ :: _ | _ :: _, [] => rfl
  | (k, x) :: xs, (l, y) :: ys => by
    rw [compareEntries, compareEntries, Ordering.swap_then, Ordering.swap_then, compare_swap x y,
      compare_swap_entries xs ys, ← Std.OrientedCmp.eq_swap (a := l) (b := k)]

end

/-- **The order of data is total.** -/
instance : Std.OrientedCmp Datum.compare where
  eq_swap := (compare_swap _ _).symm

/-- **The order of data is transitive.** -/
instance : Std.TransCmp Datum.compare where
  isLE_trans {a b c} h h' := by
    cases hab : Datum.compare a b with
    | lt =>
      cases hbc : Datum.compare b c with
      | lt =>
        rw [lt_trans a b c hab hbc]
        rfl
      | eq =>
        rw [← eq_of_compare b c hbc, hab]
        rfl
      | gt =>
        rw [hbc] at h'
        cases h'
    | eq =>
      rw [eq_of_compare a b hab]
      exact h'
    | gt =>
      rw [hab] at h
      cases h

/-! ## Sets in order -/

/-- The elements of a set: in order, so none is there twice. -/
def Ascending (elements : List Datum) : Prop :=
  elements.Pairwise fun x y => compare x y = .lt

/-- **A set with one more element is still in order.** -/
theorem Ascending.insertElement {x : Datum} {elements : List Datum} (h : Ascending elements) :
    Ascending (insertElement x elements) := by
  induction elements with
  | nil => exact List.pairwise_singleton _ _
  | cons y rest ih =>
    obtain ⟨hfirst, hrest⟩ := List.pairwise_cons.1 h
    unfold Datum.insertElement
    cases hx : compare x y with
    | lt =>
      refine List.Pairwise.cons (fun z hz => ?_) h
      rcases List.mem_cons.1 hz with rfl | hz
      · exact hx
      · exact Std.TransCmp.lt_trans hx (hfirst z hz)
    | eq => exact h
    | gt =>
      have hyx : compare y x = .lt := Std.OrientedCmp.gt_iff_lt.1 hx
      refine List.Pairwise.cons (fun z hz => ?_) (ih hrest)
      rcases mem_insertElement.1 hz with rfl | hz
      · exact hyx
      · exact hfirst z hz

theorem Ascending.insertElements {elements added : List Datum} (h : Ascending elements) :
    Ascending (insertElements elements added) := by
  unfold Datum.insertElements
  induction added generalizing elements with
  | nil => exact h
  | cons x rest ih => exact ih h.insertElement

end Datum

/-! ## Maps in order -/

namespace Entries

variable {α : Type} {key : String} {value : α} {entries added : List (String × α)}

def Ascending (entries : List (String × α)) : Prop := entries.Pairwise fun e f => e.1 < f.1

/-- **A map with one more entry is still in order.** -/
theorem Ascending.insert (h : Ascending entries) : Ascending (insert key value entries) := by
  induction entries with
  | nil => exact List.pairwise_singleton _ _
  | cons e rest ih =>
    obtain ⟨k, v⟩ := e
    obtain ⟨hfirst, hrest⟩ := List.pairwise_cons.1 h
    unfold Entries.insert
    by_cases hlt : key < k
    · rw [if_pos hlt]
      refine List.Pairwise.cons (fun f hf => ?_) h
      rcases List.mem_cons.1 hf with rfl | hf
      · exact hlt
      · exact String.lt_trans hlt (hfirst f hf)
    · rw [if_neg hlt]
      by_cases heq : key = k
      · rw [if_pos heq]
        subst heq
        exact List.Pairwise.cons hfirst hrest
      · rw [if_neg heq]
        refine List.Pairwise.cons (fun f hf => ?_) (ih hrest)
        rcases mem_insert hf with rfl | hf
        · by_contra hge
          exact heq (String.le_antisymm (String.not_lt.1 hge) (String.not_lt.1 hlt))
        · exact hfirst f hf

theorem Ascending.insertAll (h : Ascending entries) : Ascending (insertAll entries added) := by
  unfold Entries.insertAll
  induction added generalizing entries with
  | nil => exact h
  | cons e rest ih => exact ih h.insert

end Entries

end ConfigBind
