import ConfigBind.Proofs.Types.Registration

/-!
# Looking types up

A registry finds types by their names as well.  What a name finds is settled by the types that
`bear` it, in the order of their registration: a full name finds the last of them, a short name the
only one, and a short name that two of them bear is ambiguous (`Indexed`).

* `Indexed.enterAll`: whatever calls fill a registry, they keep this.
* `Registry.lookups_exact`: so each of the look-ups finds exactly what it should, and a descriptor
  that was replaced is the one that all of them find.
-/

namespace ConfigBind

/-! ## Entry lists -/

namespace Entries

variable {α : Type}

theorem lookup_cons_of_ne {k key : String} (h : k ≠ key) (value : α)
    (rest : List (String × α)) : ((key, value) :: rest).lookup k = rest.lookup k := by
  have hne : (k == key) = false := by simpa using h
  rw [List.lookup_cons, hne]

theorem lookup_insert (key : String) (value : α) (entries : List (String × α)) (k : String) :
    (insert key value entries).lookup k = if k = key then some value else entries.lookup k := by
  by_cases h : k = key
  · rw [if_pos h, h]
    exact get?_insert_self key value entries
  rw [if_neg h]
  induction entries with
  | nil => rw [insert, lookup_cons_of_ne h]
  | cons e rest ih =>
    obtain ⟨key', value'⟩ := e
    unfold insert
    split
    · rw [lookup_cons_of_ne h]
    · split
      · rename_i _ hkey
        subst hkey
        rw [lookup_cons_of_ne h, lookup_cons_of_ne h]
      · rw [List.lookup_cons, List.lookup_cons, ih]

theorem lookup_filter_ne (key : String) (entries : List (String × α)) (k : String) :
    (entries.filter (·.1 != key)).lookup k = if k = key then none else entries.lookup k := by
  induction entries with
  | nil => simp
  | cons e rest ih =>
    obtain ⟨key', value⟩ := e
    by_cases hkey : key' = key
    · subst hkey
      rw [List.filter_cons_of_neg (by simp), ih]
      by_cases h : k = key'
      · rw [if_pos h, if_pos h]
      · rw [if_neg h, if_neg h, lookup_cons_of_ne h]
    · rw [List.filter_cons_of_pos (by simpa using hkey)]
      by_cases h : k = key'
      · subst h
        rw [List.lookup_cons_self, List.lookup_cons_self, if_neg hkey]
      · rw [lookup_cons_of_ne h, lookup_cons_of_ne h, ih]

end Entries

/-- The element of a list that has no other. -/
def sole? {α : Type} : List α → Option α
  | [a] => some a
  | _ => none

theorem sole?_eq_some_iff {α : Type} {l : List α} {a : α} : sole? l = some a ↔ l = [a] := by
  rcases l with _ | ⟨b, _ | ⟨c, rest⟩⟩ <;> simp [sole?]

namespace Registry

variable {c : Catalog} {r : Registry} {d : Descriptor} {t u : TypeRef}

/-! ## The types that bear a name -/

def members (r : Registry) : List TypeRef := r.types.map (·.type)

/-- The registered types with a short name. -/
def bearers (r : Registry) (ident : String) : List TypeRef := r.members.filter (·.ident = ident)

/-- The registered types with a full name. -/
def namesakes (r : Registry) (name : String) : List TypeRef := r.members.filter (·.name = name)

theorem contains_iff_mem : r.contains t = true ↔ t ∈ r.members := by
  simp [contains, members]

theorem mem_bearers {ident : String} :
    t ∈ r.bearers ident ↔ r.contains t = true ∧ t.ident = ident := by
  simp [bearers, contains_iff_mem]

theorem mem_namesakes {name : String} :
    t ∈ r.namesakes name ↔ r.contains t = true ∧ t.name = name := by
  simp [namesakes, contains_iff_mem]

theorem isSome_get?_iff : (r.get? t).isSome = true ↔ r.contains t = true := by
  rw [contains_eq_isSome]

theorem members_add (r : Registry) (d : Descriptor) :
    (r.add d).members = r.members ++ [d.type] := by
  simp [members, types_add]

theorem bearers_add (r : Registry) (d : Descriptor) (ident : String) :
    (r.add d).bearers ident =
      r.bearers ident ++ if d.type.ident = ident then [d.type] else [] := by
  rw [bearers, members_add, List.filter_append, bearers]
  by_cases h : d.type.ident = ident <;> simp [h]

theorem members_insert_of_contains (h : r.contains d.type = true) :
    (r.insert d).members = r.members := by
  rw [insert, if_pos h]
  simp only [members, List.map_map]
  refine List.map_congr_left fun old _ => ?_
  by_cases hold : old.type = d.type
  · simp [hold]
  · simp [hold]

/-! ## The tables of names -/

/-- What the tables of names hold is settled by the types that bear the names. -/
structure Indexed (r : Registry) : Prop where
  nodup : r.members.Nodup
  byName : ∀ name, r.byName.lookup name = (r.namesakes name).getLast?
  byIdent : ∀ ident, r.byIdent.lookup ident = sole? (r.bearers ident)
  ambiguous : ∀ ident, r.isAmbiguous ident = decide (2 ≤ (r.bearers ident).length)

theorem indexed_empty : Indexed empty where
  nodup := List.nodup_nil
  byName _ := rfl
  byIdent _ := rfl
  ambiguous _ := rfl

theorem Indexed.addIdent (h : r.Indexed) (t : TypeRef) (ident : String) :
    (r.addIdent t).byIdent.lookup ident =
        sole? (r.bearers ident ++ if t.ident = ident then [t] else []) ∧
      (r.addIdent t).isAmbiguous ident =
        decide (2 ≤ (r.bearers ident ++ if t.ident = ident then [t] else []).length) := by
  have hname := h.byIdent t.ident
  have hambiguous := h.ambiguous t.ident
  unfold Registry.addIdent
  by_cases hident : t.ident = ident
  · subst hident
    rw [if_pos rfl]
    generalize r.bearers t.ident = before at hname hambiguous ⊢
    -- no type, one, or several bear the short name before
    rcases before with _ | ⟨a, _ | ⟨b, rest⟩⟩
    · have hnot : r.isAmbiguous t.ident = false := hambiguous
      rw [hname, hnot]
      exact ⟨by simp [sole?, Entries.lookup_insert], hnot⟩
    · have hnot : r.isAmbiguous t.ident = false := hambiguous
      rw [hname, hnot]
      exact ⟨by simp [sole?, Entries.lookup_filter_ne], by simp [sole?, isAmbiguous]⟩
    · have hold : r.isAmbiguous t.ident = true := by simpa using hambiguous
      rw [hold]
      exact ⟨hname, by simpa using hold⟩
  · rw [if_neg hident, List.append_nil, ← h.byIdent, ← h.ambiguous]
    have hne : ¬ ident = t.ident := fun heq => hident heq.symm
    split
    · exact ⟨rfl, rfl⟩
    · split
      · simp [Entries.lookup_filter_ne, hne, isAmbiguous]
      · simp [Entries.lookup_insert, hne, isAmbiguous]

/-- **A type that is new is found by its names.** -/
theorem Indexed.add (h : r.Indexed) (hnew : r.contains d.type = false) : Indexed (r.add d) where
  nodup := by
    rw [members_add, List.nodup_append]
    refine ⟨h.nodup, by simp, fun a ha b hb hab => ?_⟩
    rw [List.mem_singleton.1 hb] at hab
    rw [hab, ← contains_iff_mem, hnew] at ha
    cases ha
  byName name := by
    have hname : (r.add d).byName = Entries.insert d.type.name d.type r.byName := rfl
    rw [hname, Entries.lookup_insert, namesakes, members_add, List.filter_append, h.byName,
      namesakes]
    by_cases heq : name = d.type.name
    · simp [heq]
    · simp [heq, Ne.symm heq]
  byIdent ident := by
    rw [bearers_add]
    exact (h.addIdent d.type ident).1
  ambiguous ident := by
    rw [bearers_add]
    exact (h.addIdent d.type ident).2

theorem Indexed.enroll (h : r.Indexed) (pending : List TypeRef) :
    Indexed (r.enroll c pending) := by
  fun_induction Registry.enroll c r pending with
  | case1 => exact h
  | case2 r t rest hnone ih => exact ih h
  | case3 r t rest d hd hold ih => exact ih h
  | case4 r t rest d hd hnew ih => exact ih (h.add (by simpa using hnew))

theorem Indexed.registerDescriptor (h : r.Indexed) (d : Descriptor) :
    Indexed (r.registerDescriptor c d).2 := by
  unfold Registry.registerDescriptor
  split
  · exact h
  · rename_i hnew
    exact (h.add (by simpa using hnew)).enroll _

theorem Indexed.register (h : r.Indexed) (t : TypeRef) : Indexed (r.register c t).2 := by
  unfold Registry.register
  split
  · exact h
  · exact h.registerDescriptor _

theorem Indexed.insert (h : r.Indexed) (d : Descriptor) : Indexed (r.insert d) := by
  by_cases hold : r.contains d.type = true
  · have hmembers := members_insert_of_contains hold
    have htables : (r.insert d).byName = r.byName ∧ (r.insert d).byIdent = r.byIdent ∧
        (r.insert d).ambiguous = r.ambiguous := by
      rw [Registry.insert, if_pos hold]
      exact ⟨rfl, rfl, rfl⟩
    obtain ⟨hname, hident, hambiguous⟩ := htables
    refine ⟨hmembers ▸ h.nodup, fun name => ?_, fun ident => ?_, fun ident => ?_⟩
    · rw [hname, namesakes, hmembers]
      exact h.byName name
    · rw [hident, bearers, hmembers]
      exact h.byIdent ident
    · rw [isAmbiguous, hambiguous, bearers, hmembers]
      exact h.ambiguous ident
  · rw [Registry.insert, if_neg hold]
    exact h.add (by simpa using hold)

/-! ## Looking up -/

/-- **A full name that one type bears finds the descriptor of that type.** -/
theorem Indexed.getByName?_eq_some_iff (h : r.Indexed) {name : String}
    (hname : ∀ t u, r.contains t = true → r.contains u = true → t.name = name → u.name = name →
      t = u) :
    r.getByName? name = some d ↔ ∃ t, t.name = name ∧ r.get? t = some d := by
  rw [getByName?, h.byName, Option.bind_eq_some_iff]
  constructor
  · rintro ⟨t, hlast, hget⟩
    exact ⟨t, (mem_namesakes.1 (List.mem_of_getLast? hlast)).2, hget⟩
  · rintro ⟨t, ht, hget⟩
    have hcontains : r.contains t = true := isSome_get?_iff.1 (by rw [hget]; rfl)
    have hmem : t ∈ r.namesakes name := mem_namesakes.2 ⟨hcontains, ht⟩
    refine ⟨t, ?_, hget⟩
    rw [List.getLast?_eq_some_getLast (List.ne_nil_of_mem hmem)]
    obtain ⟨hlast, hlastName⟩ := mem_namesakes.1 (List.getLast_mem (List.ne_nil_of_mem hmem))
    exact congrArg some (hname _ _ hlast hcontains hlastName ht)

theorem eq_singleton_iff_of_nodup {α : Type} {l : List α} (h : l.Nodup) {a : α} :
    l = [a] ↔ a ∈ l ∧ ∀ b ∈ l, b = a := by
  rcases l with _ | ⟨b, _ | ⟨c, rest⟩⟩
  · simp
  · simp [eq_comm]
  · have hne : b ≠ c := fun hbc => (List.nodup_cons.1 h).1 (hbc ▸ List.mem_cons_self)
    refine iff_of_false (by simp) fun hall => hne ?_
    exact (hall.2 b List.mem_cons_self).trans (hall.2 c (by simp)).symm

theorem two_le_length_iff_of_nodup {α : Type} {l : List α} (h : l.Nodup) :
    2 ≤ l.length ↔ ∃ a b, a ≠ b ∧ a ∈ l ∧ b ∈ l := by
  rcases l with _ | ⟨a, _ | ⟨b, rest⟩⟩
  · simp
  · refine iff_of_false (by simp) ?_
    rintro ⟨x, y, hne, hx, hy⟩
    exact hne ((List.mem_singleton.1 hx).trans (List.mem_singleton.1 hy).symm)
  · have hne : a ≠ b := fun hab => (List.nodup_cons.1 h).1 (hab ▸ List.mem_cons_self)
    exact iff_of_true (by simp) ⟨a, b, hne, by simp, by simp⟩

/-- **A short name finds the descriptor of the only type that bears it.** -/
theorem Indexed.getByIdent?_eq_some_iff (h : r.Indexed) {ident : String} :
    r.getByIdent? ident = some d ↔ ∃ t, t.ident = ident ∧ r.get? t = some d ∧
      ∀ u, r.contains u = true → u.ident = ident → u = t := by
  have hnodup : (r.bearers ident).Nodup := h.nodup.filter _
  rw [getByIdent?, h.byIdent, Option.bind_eq_some_iff]
  refine exists_congr fun t => ?_
  rw [sole?_eq_some_iff, eq_singleton_iff_of_nodup hnodup]
  simp only [mem_bearers]
  constructor
  · rintro ⟨⟨⟨-, ht⟩, honly⟩, hget⟩
    exact ⟨ht, hget, fun u hu hident => honly u ⟨hu, hident⟩⟩
  · rintro ⟨ht, hget, honly⟩
    have hcontains : r.contains t = true := isSome_get?_iff.1 (by rw [hget]; rfl)
    exact ⟨⟨⟨hcontains, ht⟩, fun u hu => honly u hu.1 hu.2⟩, hget⟩

/-- **A short name is ambiguous if and only if two types bear it.** -/
theorem Indexed.isAmbiguous_iff (h : r.Indexed) {ident : String} :
    r.isAmbiguous ident = true ↔ ∃ t u, t ≠ u ∧ r.contains t = true ∧ r.contains u = true ∧
      t.ident = ident ∧ u.ident = ident := by
  have hnodup : (r.bearers ident).Nodup := h.nodup.filter _
  rw [h.ambiguous, decide_eq_true_eq, two_le_length_iff_of_nodup hnodup]
  simp only [mem_bearers]
  refine exists₂_congr fun t u => and_congr_right fun _ => ?_
  exact ⟨fun ⟨⟨ht, hti⟩, hu, hui⟩ => ⟨ht, hu, hti, hui⟩,
    fun ⟨ht, hu, hti, hui⟩ => ⟨⟨ht, hti⟩, hu, hui⟩⟩

theorem get?_insert (r : Registry) (d : Descriptor) (t : TypeRef) :
    (r.insert d).get? t = if t = d.type then some d else r.get? t := by
  by_cases hold : r.contains d.type = true
  · have htype : ∀ old : Descriptor,
        (if old.type = d.type then d else old).type = old.type := by
      intro old
      split
      · rename_i h
        exact h.symm
      · rfl
    rw [insert, if_pos hold, get?, List.find?_map]
    have hfind : (fun old : Descriptor => decide (old.type = t)) ∘
        (fun old => if old.type = d.type then d else old) = fun old => decide (old.type = t) :=
      funext fun old => by simp [htype]
    rw [hfind]
    by_cases ht : t = d.type
    · subst ht
      obtain ⟨old, hget⟩ := Option.isSome_iff_exists.1 (isSome_get?_iff.2 hold)
      have holdType : old.type = d.type := type_of_get? hget
      rw [get?] at hget
      rw [hget, if_pos rfl]
      simp [holdType]
    · rw [if_neg ht]
      show Option.map _ (r.get? t) = r.get? t
      cases hget : r.get? t with
      | none => rfl
      | some old =>
        have holdType : old.type = t := type_of_get? hget
        simp [holdType, ht]
  · have hnone : r.get? d.type = none := by
      rw [contains_eq_isSome] at hold
      simpa using hold
    rw [insert, if_neg hold, get?_add]
    by_cases ht : t = d.type
    · subst ht
      simp [hnone]
    · simp [ht, Ne.symm ht]

/-! ## Ways to fill a registry -/

/-- A call that puts types into a registry. -/
inductive Entry
  /-- Registers a type, and what it depends on. -/
  | type (t : TypeRef)
  /-- Registers a type by a given descriptor, and what that depends on. -/
  | given (d : Descriptor)
  /-- Puts a descriptor in, in place of an earlier one of its type, and nothing else. -/
  | only (d : Descriptor)

def enter (c : Catalog) (r : Registry) : Entry → Registry
  | .type t => (r.register c t).2
  | .given d => (r.registerDescriptor c d).2
  | .only d => r.insert d

def enterAll (c : Catalog) (r : Registry) (entries : List Entry) : Registry :=
  entries.foldl (enter c) r

theorem Indexed.enter (h : r.Indexed) (entry : Entry) : Indexed (r.enter c entry) := by
  cases entry with
  | type t => exact h.register t
  | given d => exact h.registerDescriptor d
  | only d => exact h.insert d

/-- **Whatever calls fill a registry, its names lead to the types that bear them.** -/
theorem Indexed.enterAll (h : r.Indexed) (entries : List Entry) :
    Indexed (r.enterAll c entries) := by
  induction entries generalizing r with
  | nil => exact h
  | cons entry rest ih => exact ih (h.enter entry)

theorem Indexed.getByIdent?_of_get? (h : r.Indexed) (hget : r.get? t = some d) :
    r.getByIdent? t.ident = if r.isAmbiguous t.ident then none else some d := by
  have hcontains : r.contains t = true := isSome_get?_iff.1 (by rw [hget]; rfl)
  by_cases hambiguous : r.isAmbiguous t.ident = true
  · rw [if_pos hambiguous, Option.eq_none_iff_forall_ne_some]
    intro e he
    obtain ⟨u, v, hne, hu, hv, hui, hvi⟩ := h.isAmbiguous_iff.1 hambiguous
    obtain ⟨w, -, -, honly⟩ := h.getByIdent?_eq_some_iff.1 he
    exact hne ((honly u hu hui).trans (honly v hv hvi).symm)
  · rw [if_neg hambiguous, h.getByIdent?_eq_some_iff]
    refine ⟨t, rfl, hget, fun u hu hident => ?_⟩
    by_contra hne
    exact hambiguous (h.isAmbiguous_iff.2 ⟨u, t, hne, hu, hcontains, hident, rfl⟩)

/-- **Names find what they should**, whatever calls filled the registry: a full name that one type
bears finds its descriptor of now, a short name that of the only type that bears it, and a short
name is ambiguous if and only if two types bear it. -/
theorem lookups_exact (c : Catalog) (entries : List Entry)
    (hnames : ∀ t u, (empty.enterAll c entries).contains t = true →
      (empty.enterAll c entries).contains u = true → t.name = u.name → t = u) :
    (∀ name d, (empty.enterAll c entries).getByName? name = some d ↔
      ∃ t, t.name = name ∧ (empty.enterAll c entries).get? t = some d) ∧
    (∀ ident d, (empty.enterAll c entries).getByIdent? ident = some d ↔
      ∃ t, t.ident = ident ∧ (empty.enterAll c entries).get? t = some d ∧
        ∀ u, (empty.enterAll c entries).contains u = true → u.ident = ident → u = t) ∧
    (∀ ident, (empty.enterAll c entries).isAmbiguous ident = true ↔
      ∃ t u, t ≠ u ∧ (empty.enterAll c entries).contains t = true ∧
        (empty.enterAll c entries).contains u = true ∧ t.ident = ident ∧ u.ident = ident) ∧
    ∀ d, (empty.enterAll c entries).contains d.type = true →
      (∀ t, ((empty.enterAll c entries).insert d).get? t =
        if t = d.type then some d else (empty.enterAll c entries).get? t) ∧
      ((empty.enterAll c entries).insert d).getByName? d.type.name = some d ∧
      ((empty.enterAll c entries).insert d).getByIdent? d.type.ident =
        if (empty.enterAll c entries).isAmbiguous d.type.ident then none else some d := by
  have hindexed : Indexed (empty.enterAll c entries) := indexed_empty.enterAll entries
  generalize empty.enterAll c entries = r at hnames hindexed ⊢
  have hname {name : String} (t u : TypeRef) (ht : r.contains t = true)
      (hu : r.contains u = true) (htn : t.name = name) (hun : u.name = name) : t = u :=
    hnames t u ht hu (htn.trans hun.symm)
  refine ⟨fun name d => hindexed.getByName?_eq_some_iff hname,
    fun ident d => hindexed.getByIdent?_eq_some_iff, fun ident => hindexed.isAmbiguous_iff,
    fun d hd => ⟨get?_insert r d, ?_, ?_⟩⟩
  all_goals
    have hafter : Indexed (r.insert d) := hindexed.insert d
    have hget : (r.insert d).get? d.type = some d := by rw [get?_insert, if_pos rfl]
    have hsame (t : TypeRef) : (r.insert d).contains t = r.contains t := by
      rw [Bool.eq_iff_iff, contains_iff_mem, contains_iff_mem, members_insert_of_contains hd]
  · refine (hafter.getByName?_eq_some_iff fun t u ht hu => ?_).2 ⟨d.type, rfl, hget⟩
    exact hname t u (hsame t ▸ ht) (hsame u ▸ hu)
  · have hambiguous : (r.insert d).isAmbiguous d.type.ident = r.isAmbiguous d.type.ident := by
      rw [insert, if_pos hd]
      rfl
    rw [hafter.getByIdent?_of_get? hget, hambiguous]

end Registry

namespace Sample

def bytes : TypeRef := ⟨"Vec<u8>", "alloc::vec::Vec<u8>"⟩

def counts : TypeRef := ⟨"Vec<u16>", "alloc::vec::Vec<u16>"⟩

def scalarOf (i : IntegerType) : Descriptor := ⟨i.ref, .scalar⟩

def listOf (t : TypeRef) (i : IntegerType) : Descriptor := ⟨t, .list i.ref⟩

def lists : Catalog := ⟨[listOf bytes .u8, scalarOf .u8, scalarOf .u16]⟩

def listCalls : List Registry.Entry :=
  [.type bytes, .given (listOf counts .u16), .only ⟨bytes, .object⟩]

theorem enterAll_listCalls : Registry.empty.enterAll lists listCalls =
    ((((Registry.empty.add (listOf bytes .u8)).add (scalarOf .u8)).add
      (listOf counts .u16)).add (scalarOf .u16)).insert ⟨bytes, .object⟩ := by
  have hbytes : (Registry.empty.register lists bytes).2 =
      (Registry.empty.add (listOf bytes .u8)).add (scalarOf .u8) := by
    show Registry.enroll lists _ [IntegerType.u8.ref] = _
    rw [Registry.enroll_cons_of_new rfl rfl]
    exact Registry.enroll_nil _ _
  have hcounts : ((Registry.empty.register lists bytes).2.registerDescriptor lists
      (listOf counts .u16)).2 = (((Registry.empty.add (listOf bytes .u8)).add
        (scalarOf .u8)).add (listOf counts .u16)).add (scalarOf .u16) := by
    rw [hbytes]
    show Registry.enroll lists _ [IntegerType.u16.ref] = _
    rw [Registry.enroll_cons_of_new rfl rfl]
    exact Registry.enroll_nil _ _
  show ((Registry.empty.register lists bytes).2.registerDescriptor lists
    (listOf counts .u16)).2.insert ⟨bytes, .object⟩ = _
  rw [hcounts]

/-- The object is found by the full name, and the short name finds neither type. -/
theorem names_of_lists :
    (∀ t u, (Registry.empty.enterAll lists listCalls).contains t = true →
      (Registry.empty.enterAll lists listCalls).contains u = true → t.name = u.name → t = u) ∧
    (Registry.empty.enterAll lists listCalls).getByName? "alloc::vec::Vec<u8>" =
      some ⟨bytes, .object⟩ ∧
    (Registry.empty.enterAll lists listCalls).isAmbiguous "Vec" = true ∧
    ∀ d, (Registry.empty.enterAll lists listCalls).getByIdent? "Vec" ≠ some d := by
  have hmembers : (Registry.empty.enterAll lists listCalls).members =
      [bytes, IntegerType.u8.ref, counts, IntegerType.u16.ref] := by
    rw [enterAll_listCalls]
    rfl
  have hbytes : (Registry.empty.enterAll lists listCalls).get? bytes = some ⟨bytes, .object⟩ := by
    rw [enterAll_listCalls]
    rfl
  have hnames : ∀ t u, (Registry.empty.enterAll lists listCalls).contains t = true →
      (Registry.empty.enterAll lists listCalls).contains u = true → t.name = u.name → t = u := by
    have hdistinct : ∀ t ∈ [bytes, IntegerType.u8.ref, counts, IntegerType.u16.ref],
        ∀ u ∈ [bytes, IntegerType.u8.ref, counts, IntegerType.u16.ref],
          t.name = u.name → t = u := by decide
    intro t u ht hu
    rw [Registry.contains_iff_mem, hmembers] at ht hu
    exact hdistinct t ht u hu
  have hcontains : ∀ t ∈ [bytes, counts],
      (Registry.empty.enterAll lists listCalls).contains t = true := by
    intro t ht
    rw [Registry.contains_iff_mem, hmembers]
    revert t
    decide
  obtain ⟨hname, hident, hambiguous, -⟩ := Registry.lookups_exact lists listCalls hnames
  refine ⟨hnames, (hname _ _).2 ⟨bytes, rfl, hbytes⟩, (hambiguous _).2
    ⟨bytes, counts, by decide, hcontains bytes (by simp), hcontains counts (by simp),
      by decide, by decide⟩, fun d hd => ?_⟩
  obtain ⟨t, -, -, honly⟩ := (hident _ _).1 hd
  have hsame : bytes = counts := (honly bytes (hcontains bytes (by simp)) (by decide)).trans
    (honly counts (hcontains counts (by simp)) (by decide)).symm
  exact absurd hsame (by decide)

end Sample

end ConfigBind
