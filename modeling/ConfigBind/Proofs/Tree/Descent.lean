import ConfigBind.Tree.Node

/-!
# Descending a tree

`Node.follow?` takes one step for every segment that bears a mark.  So a list of segments leads
where its parts lead one after the other (`follow?_append`), no step leads up
(`depth_le_of_follow?`), and a list with a marked segment leads strictly down
(`depth_lt_of_follow?`).

What passes on to items and entries holds of all nodes of a tree (`follow?_induction`): their texts
are among those of the tree (`mem_texts_of_get?`), and lists are no longer than indices can tell if
the tree is `indexable` (`length_le_of_get?`).
-/

namespace ConfigBind.Node

/-! ## Steps -/

@[simp] theorem follow?_nil (n : Node) : n.follow? [] = some n := rfl

theorem follow?_append (n : Node) (xs ys : List Segment) :
    n.follow? (xs ++ ys) = (n.follow? xs).bind (·.follow? ys) := by
  unfold follow?
  rw [List.filter_append, List.foldlM_append]
  rfl

theorem follow?_cons (n : Node) (s : Segment) (rest : List Segment) :
    n.follow? (s :: rest) =
      if s.kind.isBlank then n.follow? rest else (n.child? s).bind (·.follow? rest) := by
  unfold follow?
  by_cases h : s.kind.isBlank
  · rw [if_pos h, List.filter_cons_of_neg (by simp [h])]
  · rw [if_neg h, List.filter_cons_of_pos (by simp [h])]
    rfl

theorem follow?_singleton (n : Node) {s : Segment} (h : s.kind.isBlank = false) :
    n.follow? [s] = n.child? s := by
  rw [follow?_cons, h, if_neg (by decide)]
  exact Option.bind_fun_some (n.child? s)

/-! ## Depth -/

theorem depth_lt_of_mem_items {items : List Node} {n : Node} (h : n ∈ items) :
    n.depth < (list items).depth := by
  have hitems : ∀ items : List Node, n ∈ items → n.depth < depthItems items := by
    intro items
    induction items with
    | nil => simp
    | cons m rest ih =>
      intro h
      rw [depthItems]
      rcases List.mem_cons.1 h with rfl | h
      · omega
      · have := ih h
        omega
  exact hitems items h

theorem depth_lt_of_mem_entries {entries : List (String × Node)} {key : String} {n : Node}
    (h : (key, n) ∈ entries) : n.depth < (map entries).depth := by
  have hentries : ∀ entries : List (String × Node), (key, n) ∈ entries →
      n.depth < depthEntries entries := by
    intro entries
    induction entries with
    | nil => simp
    | cons e rest ih =>
      obtain ⟨k, m⟩ := e
      intro h
      rw [depthEntries]
      rcases List.mem_cons.1 h with h | h
      · obtain ⟨rfl, rfl⟩ := Prod.mk.inj h
        omega
      · have := ih h
        omega
  exact hentries entries h

theorem mem_of_entries_get? {α : Type} {key : String} {entries : List (String × α)} {a : α}
    (h : Entries.get? key entries = some a) : (key, a) ∈ entries := by
  induction entries with
  | nil => simp [Entries.get?] at h
  | cons e rest ih =>
    obtain ⟨k, b⟩ := e
    simp only [Entries.get?, List.lookup_cons] at h ih
    split at h
    · rename_i hk
      obtain rfl : key = k := by simpa using hk
      rw [Option.some.inj h]
      exact List.mem_cons_self
    · exact List.mem_cons_of_mem _ (ih h)

theorem child?_cases {n m : Node} {s : Segment} (h : n.child? s = some m) :
    (∃ items, n = list items ∧ m ∈ items) ∨
      ∃ entries, n = map entries ∧ (s.text, m) ∈ entries := by
  cases n with
  | list items =>
    obtain ⟨i, -, hi⟩ := Option.bind_eq_some_iff.1 h
    exact .inl ⟨items, rfl, List.mem_of_getElem? hi⟩
  | map entries => exact .inr ⟨entries, rfl, mem_of_entries_get? h⟩
  | _ => simp [child?] at h

theorem depth_lt_of_child? {n m : Node} {s : Segment} (h : n.child? s = some m) :
    m.depth < n.depth := by
  rcases child?_cases h with ⟨items, rfl, hm⟩ | ⟨entries, rfl, hm⟩
  · exact depth_lt_of_mem_items hm
  · exact depth_lt_of_mem_entries hm

theorem follow?_induction {P : Node → Prop}
    (hitems : ∀ items, P (list items) → ∀ m ∈ items, P m)
    (hentries : ∀ entries, P (map entries) → ∀ key m, (key, m) ∈ entries → P m) {n m : Node}
    {segments : List Segment} (hn : P n) (h : n.follow? segments = some m) : P m := by
  induction segments generalizing n with
  | nil =>
    rw [follow?_nil] at h
    exact Option.some.inj h ▸ hn
  | cons s rest ih =>
    rw [follow?_cons] at h
    split at h
    · exact ih hn h
    · obtain ⟨c, hc, hrest⟩ := Option.bind_eq_some_iff.1 h
      refine ih ?_ hrest
      rcases child?_cases hc with ⟨items, rfl, hm⟩ | ⟨entries, rfl, hm⟩
      · exact hitems items hn c hm
      · exact hentries entries hn _ c hm

theorem depth_le_of_follow? {n m : Node} {segments : List Segment}
    (h : n.follow? segments = some m) : m.depth ≤ n.depth :=
  follow?_induction (P := fun m => m.depth ≤ n.depth)
    (fun _ hn _ hm => Nat.le_trans (Nat.le_of_lt (depth_lt_of_mem_items hm)) hn)
    (fun _ hn _ _ hm => Nat.le_trans (Nat.le_of_lt (depth_lt_of_mem_entries hm)) hn)
    (Nat.le_refl _) h

/-- **Marked segments lead strictly down.** -/
theorem depth_lt_of_follow? {n m : Node} {segments : List Segment}
    (hmark : ∃ s ∈ segments, s.kind.isBlank = false) (h : n.follow? segments = some m) :
    m.depth < n.depth := by
  induction segments generalizing n with
  | nil => simp at hmark
  | cons s rest ih =>
    rw [follow?_cons] at h
    split at h
    · rename_i hblank
      refine ih ?_ h
      obtain ⟨t, ht, hk⟩ := hmark
      rcases List.mem_cons.1 ht with rfl | ht
      · rw [hblank] at hk
        exact absurd hk (by decide)
      · exact ⟨t, ht, hk⟩
    · obtain ⟨c, hc, hrest⟩ := Option.bind_eq_some_iff.1 h
      exact Nat.lt_of_le_of_lt (depth_le_of_follow? hrest) (depth_lt_of_child? hc)

theorem depth_le_of_get? {root n : Node} {p : Path} (h : root.get? p = some n) :
    n.depth ≤ root.depth :=
  depth_le_of_follow? h

/-! ## Texts -/

theorem texts_subset_of_mem_items {items : List Node} {n : Node} (h : n ∈ items) :
    n.texts ⊆ (list items).texts := by
  have hitems : ∀ items : List Node, n ∈ items → n.texts ⊆ textsItems items := by
    intro items
    induction items with
    | nil => simp
    | cons m rest ih =>
      intro h
      rw [textsItems]
      rcases List.mem_cons.1 h with rfl | h
      · exact List.subset_append_left _ _
      · exact List.subset_append_of_subset_right _ (ih h)
  exact hitems items h

theorem texts_subset_of_mem_entries {entries : List (String × Node)} {key : String} {n : Node}
    (h : (key, n) ∈ entries) : n.texts ⊆ (map entries).texts := by
  have hentries : ∀ entries : List (String × Node), (key, n) ∈ entries →
      n.texts ⊆ textsEntries entries := by
    intro entries
    induction entries with
    | nil => simp
    | cons e rest ih =>
      obtain ⟨k, m⟩ := e
      intro h
      rw [textsEntries]
      rcases List.mem_cons.1 h with h | h
      · obtain ⟨rfl, rfl⟩ := Prod.mk.inj h
        exact List.subset_append_left _ _
      · exact List.subset_append_of_subset_right _ (ih h)
  exact hentries entries h

theorem texts_subset_of_follow? {n m : Node} {segments : List Segment}
    (h : n.follow? segments = some m) : m.texts ⊆ n.texts :=
  follow?_induction (P := fun m => m.texts ⊆ n.texts)
    (fun _ hn _ hm => List.Subset.trans (texts_subset_of_mem_items hm) hn)
    (fun _ hn _ _ hm => List.Subset.trans (texts_subset_of_mem_entries hm) hn)
    (List.Subset.refl _) h

theorem mem_texts_of_get? {root : Node} {p : Path} {t : String}
    (h : root.get? p = some (text t)) : t ∈ root.texts :=
  texts_subset_of_follow? h (by rw [texts]; exact List.mem_singleton.2 rfl)

/-! ## Indices -/

mutual

/-- Whether the indices of all lists in a tree are below 2^64. -/
def indexable : Node → Bool
  | list items => items.length ≤ 0x10000000000000000 && indexableItems items
  | map entries => indexableEntries entries
  | _ => true

def indexableItems : List Node → Bool
  | [] => true
  | n :: rest => n.indexable && indexableItems rest

def indexableEntries : List (String × Node) → Bool
  | [] => true
  | (_, n) :: rest => n.indexable && indexableEntries rest

end

theorem indexable_of_mem_items {items : List Node} (h : indexableItems items = true) {n : Node}
    (hn : n ∈ items) : n.indexable = true := by
  induction items with
  | nil => cases hn
  | cons m rest ih =>
    rw [indexableItems, Bool.and_eq_true] at h
    rcases List.mem_cons.1 hn with rfl | hn
    · exact h.1
    · exact ih h.2 hn

theorem indexable_of_mem_entries {entries : List (String × Node)}
    (h : indexableEntries entries = true) {key : String} {n : Node} (hn : (key, n) ∈ entries) :
    n.indexable = true := by
  induction entries with
  | nil => cases hn
  | cons e rest ih =>
    obtain ⟨k, m⟩ := e
    rw [indexableEntries, Bool.and_eq_true] at h
    rcases List.mem_cons.1 hn with hn | hn
    · rw [(Prod.mk.inj hn).2]
      exact h.1
    · exact ih h.2 hn

theorem indexable_of_get? {root n : Node} (h : root.indexable = true) {p : Path}
    (hn : root.get? p = some n) : n.indexable = true := by
  refine follow?_induction (P := fun n => n.indexable = true) ?_ ?_ h hn
  · intro items hitems m hm
    rw [indexable, Bool.and_eq_true] at hitems
    exact indexable_of_mem_items hitems.2 hm
  · intro entries hentries key m hm
    rw [indexable] at hentries
    exact indexable_of_mem_entries hentries hm

theorem length_le_of_get? {root : Node} (h : root.indexable = true) {p : Path}
    {items : List Node} (hn : root.get? p = some (list items)) :
    items.length ≤ 0x10000000000000000 := by
  have hlist := indexable_of_get? h hn
  rw [indexable, Bool.and_eq_true] at hlist
  exact of_decide_eq_true hlist.1

end ConfigBind.Node
