import ConfigBind.Proofs.Types.Order

/-!
# Extending containers in place

An `Extension` may fail half-way, and what it has changed by then is changed.  Those of lists, sets
and maps do not: the target is checked, then every part is unpacked, and only then the first is put
in, after which nothing fails (`Container.on_extendWith`).

* `Descriptor.AllOrNothing`: what holds of every container that is extended like this.
* `Descriptor.containers_extend`: lists, sets and maps, and what is in them then.
-/

namespace ConfigBind

/-! ## Extensions -/

namespace Extension

variable {α β : Type}

theorem on_bind (x : Extension α) (f : α → Extension β) (target : Value) :
    (x >>= f).on target =
      match x.on target with
      | (.ok a, changed) => (f a).on changed
      | (.error e, changed) => (.error e, changed) := by
  show (ExceptT.run (x >>= f)).run target = _
  rw [ExceptT.run_bind, StateT.run_bind]
  show _ = match (ExceptT.run x).run target with
    | (.ok a, changed) => (f a).on changed
    | (.error e, changed) => (.error e, changed)
  cases (ExceptT.run x).run target with
  | mk result changed => cases result <;> rfl

theorem on_lift (x : Except BuildError α) (target : Value) :
    (liftM x : Extension α).on target = (x, target) := by
  cases x <;> rfl

def result (extension : Extension Unit) (target : Value) : Except BuildError Value :=
  (extension.on target).1.map fun _ => (extension.on target).2

end Extension

namespace Container

variable {α : Type}

theorem on_putAll (put : Datum → α → Datum) (parts : List α) (target : Value) :
    (putAll put parts).on target =
      (.ok (), { target with datum := parts.foldl put target.datum }) := by
  induction parts generalizing target with
  | nil => rfl
  | cons part rest ih => exact ih { target with datum := put target.datum part }

/-- **An extension changes the target only if it is of the type and all parts are unpacked.** -/
theorem on_extendWith (type : TypeRef) (unpacked : Except BuildError (List α))
    (put : Datum → α → Datum) (target : Value) :
    (extendWith type unpacked put).on target =
      match target.as type, unpacked with
      | .error e, _ => (.error e, target)
      | .ok _, .error e => (.error e, target)
      | .ok _, .ok parts => (.ok (), { target with datum := parts.foldl put target.datum }) := by
  unfold extendWith
  rw [Extension.on_bind]
  show Extension.on (liftM (target.as type) >>= fun _ => liftM unpacked >>= putAll put) target = _
  rw [Extension.on_bind, Extension.on_lift]
  cases target.as type with
  | error e => rfl
  | ok datum =>
    dsimp only
    rw [Extension.on_bind, Extension.on_lift]
    cases unpacked with
    | error e => rfl
    | ok parts => exact on_putAll put parts target

end Container

/-! ## All or nothing -/

/-- Containers of type `t` with parts of type `part` are extended all or nothing.  `form` makes the
data of a container of its content, and `build` builds containers, perhaps on top of one. -/
structure Descriptor.AllOrNothing {α β : Type} (t part : TypeRef) (typeOf : α → TypeRef)
    (form : List β → Datum) (extend : List α → Extension Unit)
    (build : Option Value → List α → Except BuildError Value) : Prop where
  /-- It fails if and only if the target or some part is of another type. -/
  fails_iff : ∀ target parts, (∃ e, ((extend parts).on target).1 = .error e) ↔
    target.type ≠ t ∨ ∃ x ∈ parts, typeOf x ≠ part
  /-- It fails on the type that was expected, of the target before the parts. -/
  error_eq : ∀ target parts e, ((extend parts).on target).1 = .error e →
    e = .typeMismatch (if target.type = t then part else t).name
  /-- The target is what it was if it fails. -/
  unchanged : ∀ target parts e, ((extend parts).on target).1 = .error e →
    ((extend parts).on target).2 = target
  /-- A container is built as an empty one is extended. -/
  build_none : ∀ parts, build none parts = (extend parts).result ⟨t, form []⟩
  build_some : ∀ u content parts,
    build (some ⟨u, form content⟩) parts = (extend parts).result ⟨u, form content⟩
  /-- To extend by some parts and then by others is to extend by all of them at once. -/
  append : ∀ target first second, (extend first >>= fun _ => extend second).result target =
    (extend (first ++ second)).result target

namespace Container

variable {α β γ : Type} {t part : TypeRef} {typeOf : α → TypeRef} {content : α → γ}
  {unpacked : List α → Except BuildError (List γ)} {put : Datum → γ → Datum} {parts : List α}
  {target : Value}

def Unpacks (part : TypeRef) (typeOf : α → TypeRef) (content : α → γ)
    (unpacked : List α → Except BuildError (List γ)) : Prop :=
  ∀ parts, unpacked parts = if ∀ x ∈ parts, typeOf x = part then .ok (parts.map content)
    else .error (.typeMismatch part.name)

theorem on_extendWith_of_ne (unpacked : Except BuildError (List γ)) (put : Datum → γ → Datum)
    (htarget : target.type ≠ t) :
    (extendWith t unpacked put).on target = (.error (.typeMismatch t.name), target) := by
  rw [on_extendWith, Value.as, if_neg htarget]

theorem on_extendWith_of_not_forall (h : Unpacks part typeOf content unpacked)
    (put : Datum → γ → Datum) (htarget : target.type = t)
    (hparts : ¬ ∀ x ∈ parts, typeOf x = part) :
    (extendWith t (unpacked parts) put).on target =
      (.error (.typeMismatch part.name), target) := by
  rw [on_extendWith, Value.as, if_pos htarget, h, if_neg hparts]

theorem on_extendWith_of_forall (h : Unpacks part typeOf content unpacked)
    (put : Datum → γ → Datum) (htarget : target.type = t) (hparts : ∀ x ∈ parts, typeOf x = part) :
    (extendWith t (unpacked parts) put).on target =
      (.ok (), { target with datum := (parts.map content).foldl put target.datum }) := by
  rw [on_extendWith, Value.as, if_pos htarget, h, if_pos hparts]

theorem extendWith_fails_iff (h : Unpacks part typeOf content unpacked) (put : Datum → γ → Datum)
    (target : Value) (parts : List α) :
    (∃ e, ((extendWith t (unpacked parts) put).on target).1 = .error e) ↔
      target.type ≠ t ∨ ∃ x ∈ parts, typeOf x ≠ part := by
  by_cases htarget : target.type = t
  · by_cases hparts : ∀ x ∈ parts, typeOf x = part
    · rw [on_extendWith_of_forall h put htarget hparts]
      refine iff_of_false (by rintro ⟨e, he⟩; cases he) ?_
      rintro (hne | ⟨x, hx, hne⟩)
      · exact hne htarget
      · exact hne (hparts x hx)
    · rw [on_extendWith_of_not_forall h put htarget hparts]
      refine iff_of_true ⟨_, rfl⟩ (.inr ?_)
      simpa using hparts
  · rw [on_extendWith_of_ne _ put htarget]
    exact iff_of_true ⟨_, rfl⟩ (.inl htarget)

theorem error_of_extendWith (h : Unpacks part typeOf content unpacked) {put : Datum → γ → Datum}
    {e : BuildError} (he : ((extendWith t (unpacked parts) put).on target).1 = .error e) :
    e = .typeMismatch (if target.type = t then part else t).name := by
  by_cases htarget : target.type = t
  · rw [if_pos htarget]
    by_cases hparts : ∀ x ∈ parts, typeOf x = part
    · rw [on_extendWith_of_forall h put htarget hparts] at he
      cases he
    · rw [on_extendWith_of_not_forall h put htarget hparts] at he
      exact (Except.error.inj he).symm
  · rw [if_neg htarget]
    rw [on_extendWith_of_ne _ put htarget] at he
    exact (Except.error.inj he).symm

/-- **What fails has not begun to put parts in.** -/
theorem target_of_extendWith {unpacked : Except BuildError (List γ)} {put : Datum → γ → Datum}
    {e : BuildError} (he : ((extendWith t unpacked put).on target).1 = .error e) :
    ((extendWith t unpacked put).on target).2 = target := by
  rw [on_extendWith] at he ⊢
  cases htarget : target.as t with
  | error e => rfl
  | ok datum =>
    rw [htarget] at he
    cases unpacked with
    | error e => rfl
    | ok new => cases he

/-- **Extending twice is extending once by all parts.**  If the second time fails, so does it all. -/
theorem extendWith_append (h : Unpacks part typeOf content unpacked) (put : Datum → γ → Datum)
    (target : Value) (first second : List α) :
    (extendWith t (unpacked first) put >>= fun _ =>
        extendWith t (unpacked second) put).result target =
      (extendWith t (unpacked (first ++ second)) put).result target := by
  unfold Extension.result
  rw [Extension.on_bind]
  by_cases htarget : target.type = t
  · by_cases hfirst : ∀ x ∈ first, typeOf x = part
    · have hextended : ({ target with
          datum := (first.map content).foldl put target.datum } : Value).type = t := htarget
      rw [on_extendWith_of_forall h put htarget hfirst]
      dsimp only
      by_cases hsecond : ∀ x ∈ second, typeOf x = part
      · have hall : ∀ x ∈ first ++ second, typeOf x = part :=
          List.forall_mem_append.2 ⟨hfirst, hsecond⟩
        rw [on_extendWith_of_forall h put htarget hall,
          on_extendWith_of_forall h put hextended hsecond, List.map_append, List.foldl_append]
      · have hall : ¬ ∀ x ∈ first ++ second, typeOf x = part :=
          mt List.forall_mem_append.1 fun h => hsecond h.2
        rw [on_extendWith_of_not_forall h put htarget hall,
          on_extendWith_of_not_forall h put hextended hsecond]
        rfl
    · have hall : ¬ ∀ x ∈ first ++ second, typeOf x = part :=
        mt List.forall_mem_append.1 fun h => hfirst h.1
      rw [on_extendWith_of_not_forall h put htarget hall,
        on_extendWith_of_not_forall h put htarget hfirst]
  · rw [on_extendWith_of_ne _ put htarget, on_extendWith_of_ne _ put htarget]

section Form

variable {form : List β → Datum} {step : List β → γ → List β}

theorem foldl_put (hput : ∀ xs x, put (form xs) x = form (step xs x)) (old : List β)
    (new : List γ) : new.foldl put (form old) = form (new.foldl step old) :=
  List.foldl_hom form fun xs x => hput xs x

theorem result_extendWith (hput : ∀ xs x, put (form xs) x = form (step xs x)) (u : TypeRef)
    (old : List β) (unpacked : Except BuildError (List γ)) :
    (extendWith t unpacked put).result ⟨u, form old⟩ =
      (Value.as t ⟨u, form old⟩).bind fun _ =>
        unpacked.map fun new => ⟨t, form (new.foldl step old)⟩ := by
  unfold Extension.result
  rw [on_extendWith, Value.as]
  by_cases hu : u = t
  · subst hu
    rw [if_pos rfl]
    cases unpacked with
    | error e => rfl
    | ok new =>
      show Except.ok (Value.mk u (new.foldl put (form old))) = _
      rw [foldl_put hput]
      rfl
  · have hne : ¬ (Value.mk u (form old)).type = t := hu
    rw [if_neg hne]
    rfl

theorem on_extendWith_form (h : Unpacks part typeOf content unpacked)
    (hput : ∀ xs x, put (form xs) x = form (step xs x)) (old : List β)
    (hparts : ∀ x ∈ parts, typeOf x = part) :
    (extendWith t (unpacked parts) put).on ⟨t, form old⟩ =
      (.ok (), ⟨t, form ((parts.map content).foldl step old)⟩) := by
  have htarget : (Value.mk t (form old)).type = t := rfl
  rw [on_extendWith_of_forall h put htarget hparts, foldl_put hput]

theorem allOrNothing_extendWith
    {build : Option Value → List α → Except BuildError Value}
    (h : Unpacks part typeOf content unpacked) (hput : ∀ xs x, put (form xs) x = form (step xs x))
    (hnone : ∀ parts, build none parts =
      (unpacked parts).map fun new => ⟨t, form (new.foldl step [])⟩)
    (hsome : ∀ u old parts, build (some ⟨u, form old⟩) parts =
      (Value.as t ⟨u, form old⟩).bind fun _ =>
        (unpacked parts).map fun new => ⟨t, form (new.foldl step old)⟩) :
    Descriptor.AllOrNothing t part typeOf form
      (fun parts => extendWith t (unpacked parts) put) build where
  fails_iff := extendWith_fails_iff h put
  error_eq _ _ _ := error_of_extendWith h
  unchanged _ _ _ := target_of_extendWith
  build_none parts := by
    have hempty : (Value.mk t (form [])).as t = .ok (form []) := if_pos rfl
    rw [hnone, result_extendWith hput, hempty]
    rfl
  build_some u old parts := (hsome u old parts).trans (result_extendWith hput u old _).symm
  append := extendWith_append h put

end Form

theorem pushItem_list (xs : List Datum) (x : Datum) : pushItem (.list xs) x = .list (xs ++ [x]) :=
  rfl

theorem putElement_set (xs : List Datum) (x : Datum) :
    putElement (.set xs) x = .set (Datum.insertElement x xs) := rfl

theorem putEntry_map (es : List (String × Datum)) (e : String × Datum) :
    putEntry (.map es) e = .map (Entries.insert e.1 e.2 es) := rfl

theorem foldl_push (old new : List Datum) :
    new.foldl (fun xs x => xs ++ [x]) old = old ++ new := by
  induction new generalizing old with
  | nil => exact (List.append_nil old).symm
  | cons x rest ih => rw [List.foldl_cons, ih, List.append_assoc, List.singleton_append]

end Container

/-! ## Lists, sets and maps -/

theorem Entries.lookup_map {α β : Type} (f : α → β) (key : String) (entries : List (String × α)) :
    (entries.map fun e => (e.1, f e.2)).lookup key = (entries.lookup key).map f := by
  induction entries with
  | nil => rfl
  | cons e rest ih =>
    obtain ⟨k, v⟩ := e
    rw [List.map_cons]
    by_cases hkey : key = k
    · rw [hkey, List.lookup_cons_self, List.lookup_cons_self]
      rfl
    · rw [lookup_cons_of_ne hkey, lookup_cons_of_ne hkey, ih]

theorem Value.as_bind_unpacked {α : Type} (t u : TypeRef) (old : Datum)
    (unpacked : Except BuildError α) (f : Datum → α → Value) :
    (do
      let datum ← Value.as t ⟨u, old⟩
      let new ← unpacked
      return f datum new) = (Value.as t ⟨u, old⟩).bind fun _ => unpacked.map (f old) := by
  unfold Value.as
  split
  · cases unpacked <;> rfl
  · rfl

namespace Descriptor

open Container

variable (t part : TypeRef)

theorem allOrNothing_list : AllOrNothing t part Value.type Datum.list
    (extend ⟨t, .list part⟩) (collect ⟨t, .list part⟩) := by
  refine allOrNothing_extendWith (unpack_eq part) pushItem_list (fun items => ?_)
    fun u old items => ?_
  · simp only [foldl_push]
    show Container.list t part items = _
    rw [Container.list]
    cases unpack part items <;> rfl
  · simp only [foldl_push]
    exact Value.as_bind_unpacked t u _ _ fun datum new => ⟨t, .list (datum.elements ++ new)⟩

theorem allOrNothing_set : AllOrNothing t part Value.type Datum.set
    (extend ⟨t, .set part⟩) (collect ⟨t, .set part⟩) := by
  refine allOrNothing_extendWith (unpack_eq part) putElement_set (fun items => ?_)
    fun u old items => ?_
  · show Container.set t part items = _
    rw [Container.set]
    cases unpack part items <;> rfl
  · exact Value.as_bind_unpacked t u _ _ fun datum new =>
      ⟨t, .set (Datum.insertElements datum.elements new)⟩

theorem allOrNothing_map : AllOrNothing t part (·.2.type) Datum.map
    (extendEntries ⟨t, .map part⟩) (collectEntries ⟨t, .map part⟩) := by
  refine allOrNothing_extendWith (unpackEntries_eq part) putEntry_map (fun entries => ?_)
    fun u old entries => ?_
  · show Container.map t part entries = _
    rw [Container.map]
    cases unpackEntries part entries <;> rfl
  · exact Value.as_bind_unpacked t u _ _ fun datum new =>
      ⟨t, .map (Entries.insertAll datum.entries new)⟩

/-- **Lists, sets and maps are extended all or nothing.**  It fails if and only if the target or
some part is of a wrong type, and then leaves the target as it was.  Building is extending what is
empty, and extending twice is extending once by all parts. -/
theorem containers_extend :
    (AllOrNothing t part Value.type Datum.list (extend ⟨t, .list part⟩) (collect ⟨t, .list part⟩) ∧
      ∀ old items, (∀ x ∈ items, x.type = part) →
        (extend ⟨t, .list part⟩ items).on ⟨t, .list old⟩ =
          (.ok (), ⟨t, .list (old ++ items.map (·.datum))⟩)) ∧
    (AllOrNothing t part Value.type Datum.set (extend ⟨t, .set part⟩) (collect ⟨t, .set part⟩) ∧
      ∀ old items, (∀ x ∈ items, x.type = part) →
        ∃ new, (extend ⟨t, .set part⟩ items).on ⟨t, .set old⟩ = (.ok (), ⟨t, .set new⟩) ∧
          (∀ x, x ∈ new ↔ x ∈ old ∨ ∃ item ∈ items, item.datum = x) ∧
          (Datum.Ascending old → Datum.Ascending new)) ∧
    AllOrNothing t part (·.2.type) Datum.map (extendEntries ⟨t, .map part⟩)
        (collectEntries ⟨t, .map part⟩) ∧
      ∀ old entries, (∀ e ∈ entries, e.2.type = part) →
        ∃ new, (extendEntries ⟨t, .map part⟩ entries).on ⟨t, .map old⟩ =
            (.ok (), ⟨t, .map new⟩) ∧
          (∀ key, Entries.get? key new =
            ((entries.reverse.lookup key).map (·.datum)).or (Entries.get? key old)) ∧
          (Entries.Ascending old → Entries.Ascending new) := by
  refine ⟨⟨allOrNothing_list t part, fun old items hitems => ?_⟩,
    ⟨allOrNothing_set t part, fun old items hitems => ?_⟩,
    allOrNothing_map t part, fun old entries hentries => ?_⟩
  · refine (on_extendWith_form (unpack_eq part) pushItem_list old hitems).trans ?_
    rw [foldl_push]
  · refine ⟨_, on_extendWith_form (unpack_eq part) putElement_set old hitems, fun x => ?_,
      fun hold => Datum.Ascending.insertElements hold⟩
    refine Datum.mem_insertElements.trans ?_
    rw [List.mem_map]
  · refine ⟨_, on_extendWith_form (unpackEntries_eq part) putEntry_map old hentries,
      fun key => ?_, fun hold => Entries.Ascending.insertAll hold⟩
    refine (Entries.get?_insertAll_reverse key old _).trans ?_
    rw [← List.map_reverse, Entries.lookup_map]

end Descriptor

namespace Sample

def octets : TypeRef := ⟨"Octets", "Octets"⟩

def octet (n : Int) : Value := ⟨IntegerType.u8.ref, .int n⟩

/-- A list grows by two octets and stays as it was if one of them is a text, a set takes in the octet
that it lacks, and a map keeps the last octet of each key. -/
theorem octets_extend :
    (∀ x ∈ [octet 2, octet 3], x.type = IntegerType.u8.ref) ∧
    (Descriptor.extend ⟨octets, .list IntegerType.u8.ref⟩ [octet 2, octet 3]).on
        ⟨octets, .list [.int 1]⟩ = (.ok (), ⟨octets, .list [.int 1, .int 2, .int 3]⟩) ∧
    ((Descriptor.extend ⟨octets, .list IntegerType.u8.ref⟩ [octet 2, ⟨.text, .text "3"⟩]).on
        ⟨octets, .list [.int 1]⟩).2 = ⟨octets, .list [.int 1]⟩ ∧
    (∃ new, (Descriptor.extend ⟨octets, .set IntegerType.u8.ref⟩ [octet 2, octet 3]).on
        ⟨octets, .set [.int 1, .int 3]⟩ = (.ok (), ⟨octets, .set new⟩) ∧
      Datum.Ascending new ∧ .int 2 ∈ new) ∧
    ∃ new, (Descriptor.extendEntries ⟨octets, .map IntegerType.u8.ref⟩
        [("a", octet 5), ("b", octet 6), ("b", octet 7)]).on ⟨octets, .map [("a", .int 1)]⟩ =
          (.ok (), ⟨octets, .map new⟩) ∧
      Entries.get? "a" new = some (.int 5) ∧ Entries.get? "b" new = some (.int 7) := by
  obtain ⟨⟨hnothing, hlist⟩, ⟨-, hset⟩, -, hmap⟩ :=
    Descriptor.containers_extend octets IntegerType.u8.ref
  have hoctets : ∀ x ∈ [octet 2, octet 3], x.type = IntegerType.u8.ref := by decide
  have hfails : ∃ e, ((Descriptor.extend ⟨octets, .list IntegerType.u8.ref⟩
      [octet 2, ⟨.text, .text "3"⟩]).on ⟨octets, .list [.int 1]⟩).1 = .error e :=
    (hnothing.fails_iff _ _).2 (.inr ⟨⟨.text, .text "3"⟩, by simp, by decide⟩)
  obtain ⟨e, hfailed⟩ := hfails
  obtain ⟨elements, hunion, hmem, hascending⟩ := hset [.int 1, .int 3] _ hoctets
  have hordered : Datum.Ascending [.int 1, .int 3] := by
    refine List.pairwise_pair.2 ?_
    decide
  obtain ⟨entries, hentries, hget, -⟩ :=
    hmap [("a", .int 1)] [("a", octet 5), ("b", octet 6), ("b", octet 7)] (by decide)
  exact ⟨hoctets, hlist _ _ hoctets, hnothing.unchanged _ _ e hfailed,
    ⟨elements, hunion, hascending hordered, (hmem _).2 (.inr ⟨octet 2, by simp, rfl⟩)⟩,
    entries, hentries, hget "a", hget "b"⟩

end Sample

end ConfigBind
