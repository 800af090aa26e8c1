import ConfigBind.Proofs.Bind.Direct
import ConfigBind.Proofs.Bind.Parts
import ConfigBind.Proofs.Path.Children

/-!
# Strategies and the direct bind

A strategy that has its parts bound by path does what `Direct.node` makes of the node, if the parts
come to what the direct bind makes of theirs.

`Agree` compares what the two come to, and `Refines` says that they agree in every session with the
same paths in flight; it goes through attempts step by step (`Refines.bind`).  There is one lemma
for each strategy.

* `binds_ofKind`: the strategy of a type agrees with the direct bind of its kind.
* `binds_of_absent`: where there is no data it binds nothing.
-/

namespace ConfigBind

variable {α β γ δ : Type}

/-- The results of a bind by paths and of a direct one agree: neither has one, or both have related
values, or both have the same error but for wrappers and paths.  No error comes of a path in flight,
and the paths in flight are `held`. -/
inductive Agree (held : List String) (R : α → β → Prop) :
    Option (Except BindError α × Session) → Option (Except BindError β) → Prop
  | exhausted : Agree held R none none
  | ok {x : α} {y : β} {t : Session} (hr : R x y) (ht : t.inFlight = held) :
      Agree held R (some (.ok x, t)) (some (.ok y))
  | error {e : BindError} {t : Session} (he : e.isRecursive = false) (ht : t.inFlight = held) :
      Agree held R (some (.error e, t)) (some (.error e.bare))

/-- The attempt agrees with a direct computation wherever the paths `held` are in flight. -/
def Refines (f : Request → Bind (Outcome Value)) (held : List String) (R : α → β → Prop)
    (a : Attempt α) (m : Direct.Result β) : Prop :=
  ∀ s, s.inFlight = held → Agree held R (a.exec f s) (ExceptT.run m)

/-- A bind comes to what a direct one does wherever the paths `held` are in flight. -/
def Binds (held : List String) (x : Bind (Outcome Value)) (m : Direct.Result (Option Value)) :
    Prop :=
  ∀ s, s.inFlight = held →
    Agree held Eq ((x s).map fun x => (x.1.toExcept, x.2)) (ExceptT.run m)

theorem Agree.bare {held : List String} {x : Option (Outcome Value × Session)}
    {y : Option (Except BindError (Option Value))}
    (h : Agree held Eq (x.map fun x => (x.1.toExcept, x.2)) y) :
    x.map (fun x => x.1.bare) = y ∧
      ∀ e t, x = some (.failed e, t) → e.isRecursive = false := by
  rcases x with _ | ⟨v | _ | e, t⟩
  · cases h
    exact ⟨rfl, by simp⟩
  · cases h with
    | ok hr _ => exact ⟨hr ▸ rfl, by simp⟩
  · cases h with
    | ok hr _ => exact ⟨hr ▸ rfl, by simp⟩
  · cases h with
    | error he _ =>
      refine ⟨rfl, fun e' t' h => ?_⟩
      obtain ⟨rfl, -⟩ : e = e' ∧ t = t' := by simpa using h
      exact he

/-! ## Steps of attempts -/

namespace Refines

variable {f : Request → Bind (Outcome Value)} {held : List String} {R : α → β → Prop}
  {a : Attempt α} {m : Direct.Result β} {ctx : Context} {r : Request}

theorem pure {x : α} {y : β} (h : R x y) : Refines f held R (pure x) (pure y) :=
  fun _ hs => .ok h hs

theorem throw {e : BindError} (he : e.isRecursive = false) :
    Refines f held R (throw e) (throw e.bare) :=
  fun _ hs => .error he hs

theorem throw_bind {e : BindError} (he : e.isRecursive = false) {k : γ → Attempt α}
    {l : δ → Direct.Result β} :
    Refines f held R (MonadExcept.throw e >>= k) (MonadExcept.throw e.bare >>= l) :=
  fun _ hs => .error he hs

theorem bind {S : γ → δ → Prop} {k : α → Attempt γ} {l : β → Direct.Result δ}
    (h : Refines f held R a m) (hk : ∀ x y, R x y → Refines f held S (k x) (l y)) :
    Refines f held S (a >>= k) (m >>= l) := by
  intro s hs
  have hm : (m >>= l).run = m.run.bind fun
      | .ok y => (l y).run
      | .error c => some (.error c) := by
    show Option.bind _ _ = Option.bind _ _
    congr 1
    funext x
    cases x <;> rfl
  have h := h s hs
  rw [Attempt.exec_bind, hm]
  generalize a.exec f s = x at h ⊢
  generalize ExceptT.run m = y at h ⊢
  cases h with
  | exhausted => exact .exhausted
  | ok hr ht => exact hk _ _ hr _ ht
  | error he ht => exact .error he ht

theorem note_bind {e : Event} {S : γ → δ → Prop} {k : Unit → Attempt γ} {l : Direct.Result δ}
    (h : Refines f held S (k ()) l) :
    Refines f held S ((liftM (Script.note e) : Attempt Unit) >>= k) l := by
  intro s hs
  rw [Attempt.exec_bind_of_ok (Attempt.exec_note e)]
  exact h _ hs

theorem bindPart {l : Direct.Result (Option Value)} (h : Binds held (f r) l) :
    Refines f held Eq (ctx.bindPart r) l := by
  intro s hs
  rw [Attempt.exec_bindPart]
  exact h s hs

/-- The outcome of a part stands for the result of a direct bind. -/
def Stands (o : Outcome Value) (x : Except BindError (Option Value)) : Prop :=
  o.bare = x ∧ ∀ e, o = .failed e → e.isRecursive = false

theorem call {l : Direct.Result (Option Value)} (h : Binds held (f r) l) :
    Refines f held Stands (liftM (ctx.bind r)) (ExceptT.lift l.run) := by
  intro s hs
  have hlift : (ExceptT.lift l.run : Direct.Result _).run = l.run.map .ok := rfl
  rw [Attempt.exec_call, hlift]
  have h := h s hs
  cases hr : f r s with
  | none =>
    rw [hr] at h
    generalize ExceptT.run l = x at h
    cases h
    exact .exhausted
  | some ot =>
    obtain ⟨o, t⟩ := ot
    rw [hr] at h
    generalize ExceptT.run l = x at h
    cases o with
    | present v =>
      cases h with
      | ok hr ht => exact .ok ⟨congrArg Except.ok hr, by simp⟩ ht
    | empty =>
      cases h with
      | ok hr ht => exact .ok ⟨congrArg Except.ok hr, by simp⟩ ht
    | failed e =>
      cases h with
      | error he ht => exact .ok ⟨rfl, by rintro _ ⟨⟩; exact he⟩ ht

theorem ofBuild (x : Except BuildError α) :
    Refines f held Eq (Attempt.ofBuild x) (Direct.ofBuild x) := by
  cases x with
  | ok value => exact .pure rfl
  | error e => exact .throw (e := .build e) rfl

end Refines

/-! ## Strategies -/

section Strategies

variable {f : Request → Bind (Outcome Value)} {held : List String} {b : Binder} {r : Request}
  {bind : Direct.Binding} {d : Descriptor} {n : Node} {t : TypeRef}

theorem refines_convert : Refines f held Eq (b.context.convert n t) (Direct.convert b n t) := by
  unfold Context.convert Direct.convert
  dsimp only [Binder.context]
  cases b.conversion.convert n t with
  | ok value => exact .pure rfl
  | error e => exact .throw (e := .conversion e) rfl

theorem refines_convertAt (hn : r.source.resolve? r.path = some n) :
    Refines f held Eq (b.context.convertAt r) (do return some (← Direct.convert b n r.type)) := by
  unfold Context.convertAt
  rw [hn]
  refine refines_convert.bind fun x y h => ?_
  exact .pure (congrArg some h)

theorem refines_convertWhole :
    Refines f held Eq (b.context.convertWhole n t) (Direct.convertWhole b n t) := by
  have hconversion : b.context.conversion = b.conversion := rfl
  unfold Context.convertWhole Direct.convertWhole
  rw [hconversion]
  by_cases h : b.conversion.canConvert t = true
  · rw [if_pos h, if_pos h]
    exact refines_convert.bind fun x y h => .pure (congrArg some h)
  · rw [if_neg h, if_neg h]
    exact .throw (e := Context.unfit n t) rfl

theorem refines_isLeaf : Refines f held Eq (b.context.isLeaf t) (Direct.isLeaf b t) := by
  unfold Context.isLeaf Context.descriptor Direct.isLeaf
  dsimp only [Binder.context]
  cases b.registry.get? t with
  | none => exact .throw (e := .unregisteredType t.name) rfl
  | some d => exact .pure rfl

theorem refines_skips : Refines f held Eq (b.context.skips t) (Direct.skips b t) := by
  unfold Context.skips Direct.skips
  dsimp only [Binder.context]
  cases b.mode with
  | shallow => exact refines_isLeaf.bind fun leaf leaf' h => .pure (congrArg _ h)
  | deep => exact .pure rfl

/-! ### Containers -/

theorem refines_bindElementsFrom {onEmpty : Path → Attempt Unit} {hole : Direct.Result Unit}
    {item : TypeRef} {items : List Node} (hhole : ∀ p, Refines f held Eq (onEmpty p) hole)
    (hparts : ∀ i (hi : i < items.length),
      Binds held (f (r.below (r.path.element i) item)) (bind item none (some items[i])))
    {count i : Nat} (h : i + count = items.length) :
    Refines f held Eq (b.context.bindElementsFrom r item onEmpty count i)
      (Direct.elements bind item hole (items.drop i)) := by
  induction count generalizing i with
  | zero =>
    rw [List.drop_of_length_le (by omega)]
    exact .pure rfl
  | succ count ih =>
    have hi : i < items.length := by omega
    have hrest := ih (i := i + 1) (by omega)
    rw [List.drop_eq_getElem_cons hi]
    refine (Refines.bindPart (hparts i hi)).bind fun x y hxy => ?_
    subst hxy
    cases x with
    | none => exact (hhole _).bind fun _ _ _ => hrest
    | some value => exact hrest.bind fun _ _ hvalues => .pure (congrArg _ hvalues)

theorem refines_collect {onEmpty : Path → Attempt Unit} {hole : Direct.Result Unit}
    {item : TypeRef} {into : Option Value} (hd : d.type = r.type)
    (hn : r.source.resolve? r.path = some n) (hhole : ∀ p, Refines f held Eq (onEmpty p) hole)
    (hparts : ∀ items, n = .list items → ∀ i (hi : i < items.length),
      Binds held (f (r.below (r.path.element i) item)) (bind item none (some items[i]))) :
    Refines f held Eq
      (do
        match ← b.context.bindElements r item onEmpty with
        | none => return none
        | some items => return some (← Attempt.ofBuild (d.collect into items)))
      (Direct.collection bind d into item hole n) := by
  unfold Context.bindElements Direct.collection
  rw [hn, hd]
  dsimp only
  cases hitems : n.items? with
  | none => exact .throw (e := Context.unfit n r.type) rfl
  | some items =>
    have hparts := hparts items (Node.eq_list_of_items? hitems)
    have helements := refines_bindElementsFrom (b := b) (r := r) hhole hparts (Nat.zero_add _)
    rw [List.drop_zero] at helements
    dsimp only
    rw [bind_assoc]
    refine helements.bind fun x y hxy => ?_
    subst hxy
    exact (Refines.ofBuild _).bind fun _ _ h => .pure (congrArg some h)

theorem refines_bindEntries {value : TypeRef} {nodes : List (String × Node)} {keys : List String}
    (hp : r.path.Tight) (hparts : ∀ key ∈ keys, ∀ child, r.path.atKey? key = some child →
      Binds held (f (r.below child value)) (bind value none (Entries.get? key nodes))) :
    Refines f held Eq (Strategy.bindEntries b.context r value keys)
      (Direct.entries bind value nodes keys) := by
  induction keys with
  | nil => exact .pure rfl
  | cons key keys ih =>
    have hrest := ih fun k hk => hparts k (List.mem_cons_of_mem _ hk)
    have hkey := Path.isSome_atKey?_iff r.path key
    unfold Strategy.bindEntries Direct.entries
    cases hchild : r.path.atKey? key with
    | none =>
      have hbalanced : ¬ Balanced key.toList := fun hk => by simpa [hchild] using hkey.2 ⟨hk, hp⟩
      rw [if_neg hbalanced]
      exact .throw (e := .unaddressableKey r.path.render key) rfl
    | some child =>
      have hbalanced : Balanced key.toList := (hkey.1 (by rw [hchild]; rfl)).1
      rw [if_pos hbalanced]
      dsimp only
      refine (Refines.bindPart (hparts key List.mem_cons_self child hchild)).bind fun x y hxy => ?_
      subst hxy
      cases x with
      | none => exact .note_bind hrest
      | some v => exact hrest.bind fun _ _ h => .pure (congrArg _ h)

theorem refines_bindMap {value : TypeRef} (hp : r.path.Tight)
    (hd : b.registry.get? r.type = some d) (hshape : d.shape = .map value)
    (hn : r.source.resolve? r.path = some n)
    (hparts : ∀ nodes, n = .map nodes → ∀ key ∈ nodes.map (·.1), ∀ child,
      r.path.atKey? key = some child →
        Binds held (f (r.below child value)) (bind value none (Entries.get? key nodes))) :
    Refines f held Eq (Strategy.bindMap b.context r)
      (Direct.node b r.path.separator bind d r.target.take.1 n) := by
  have hdescriptor : b.context.descriptor r.type = pure d := Attempt.descriptor_eq hd
  rw [Strategy.bindMap, Direct.node, hdescriptor, pure_bind, hshape]
  dsimp only
  rw [hn]
  dsimp only
  cases hnodes : n.entries? with
  | none => exact .throw (e := Context.unfit n d.type) rfl
  | some nodes =>
    refine (refines_bindEntries hp (hparts nodes (Node.eq_map_of_entries? hnodes))).bind
      fun x y hxy => ?_
    subst hxy
    exact (Refines.ofBuild _).bind fun _ _ h => .pure (congrArg some h)

/-! ### Records and beans -/

/-- What was gathered by the two binds of some members. -/
def Gathered (x y : α × List BindError) : Prop :=
  x.1 = y.1 ∧ BindError.bareAll x.2 = y.2 ∧ BindError.anyRecursive x.2 = false

theorem Gathered.push {x : α} {errors errors' : List BindError} {e : BindError}
    (h : Gathered (x, errors) (x, errors')) (he : e.isRecursive = false) :
    Gathered (x, errors ++ [e]) (x, errors' ++ [e.bare]) := by
  obtain ⟨-, hbare, hrecursive⟩ := h
  refine ⟨rfl, ?_, ?_⟩
  · simp only at hbare
    rw [BindError.bareAll_append, hbare]
    rfl
  · simp only at hrecursive
    rw [BindError.anyRecursive_append, hrecursive]
    simp [BindError.anyRecursive, he]

theorem refines_bindComponents {components : List Component}
    (hparts : ∀ c ∈ components, Binds held (f (r.below (r.path.appendText c.name) c.type))
      (bind c.type none (Direct.member? r.path.separator n c.name)))
    {values : Components} {errors errors' : List BindError}
    (h : Gathered (values, errors) (values, errors')) :
    Refines f held Gathered (Strategy.bindComponents b.context r components values errors)
      (Direct.components b r.path.separator bind n components values errors') := by
  induction components generalizing values errors errors' with
  | nil => exact .pure h
  | cons c rest ih =>
    have hrest {values : Components} {errors errors' : List BindError}
        (h : Gathered (values, errors) (values, errors')) :=
      ih (fun c hc => hparts c (List.mem_cons_of_mem _ hc)) h
    unfold Strategy.bindComponents Direct.components
    refine refines_skips.bind fun skipped skipped' hskipped => ?_
    subst hskipped
    cases skipped with
    | true => exact .note_bind (hrest h)
    | false =>
      refine (Refines.call (hparts c List.mem_cons_self)).bind fun o x hstands => ?_
      obtain ⟨rfl, ho⟩ := hstands
      cases o with
      | present value => exact hrest ⟨rfl, h.2⟩
      | empty => exact hrest h
      | failed e => exact hrest (h.push (ho e rfl))

theorem refines_bindRecord {components : List Component} {construct : Construction Datum}
    (hd : b.registry.get? r.type = some d) (hshape : d.shape = .record components construct)
    (hn : r.source.resolve? r.path = some n)
    (hparts : n.isMap = true → ∀ c ∈ components,
      Binds held (f (r.below (r.path.appendText c.name) c.type))
        (bind c.type none (Direct.member? r.path.separator n c.name))) :
    Refines f held Eq (Strategy.bindRecord b.context r)
      (Direct.node b r.path.separator bind d r.target.take.1 n) := by
  have hdescriptor : b.context.descriptor r.type = pure d := Attempt.descriptor_eq hd
  rw [Strategy.bindRecord, Direct.node, hdescriptor, pure_bind, hshape]
  dsimp only
  rw [hn, Registry.type_of_get? hd]
  dsimp only
  by_cases hmap : n.isMap = true
  · rw [if_pos hmap, if_pos hmap]
    refine (refines_bindComponents (hparts hmap) ⟨rfl, rfl, rfl⟩).bind ?_
    rintro ⟨values, errors⟩ ⟨values', errors'⟩ ⟨hvalues, hbare, hrecursive⟩
    simp only at hvalues hbare hrecursive
    subst hvalues hbare
    dsimp only
    rw [BindError.isEmpty_bareAll]
    by_cases hbad : (!errors.isEmpty) = true
    · rw [if_pos hbad, if_pos hbad]
      exact .throw_bind (e := .members r.type.name errors) hrecursive
    · rw [if_neg hbad, if_neg hbad]
      cases d.construct values with
      | ok value => exact .pure rfl
      | error e => exact .throw (e := .instantiation r.type.name e) rfl
  · rw [if_neg hmap, if_neg hmap]
    exact refines_convertWhole

theorem refines_bindProperties {properties : List Property}
    (hparts : ∀ p ∈ properties, ∀ current, Binds held
      (f { r with path := r.path.appendText p.bindingName, target := ⟨p.type, current, none⟩ })
      (bind p.type current (Direct.member? r.path.separator n p.bindingName)))
    {target : Value} {errors errors' : List BindError}
    (h : Gathered (target, errors) (target, errors')) :
    Refines f held Gathered (Strategy.bindProperties b.context r properties target errors)
      (Direct.properties b r.path.separator bind n properties target errors') := by
  induction properties generalizing target errors errors' with
  | nil => exact .pure h
  | cons p rest ih =>
    have hrest {target : Value} {errors errors' : List BindError}
        (h : Gathered (target, errors) (target, errors')) :=
      ih (fun p hp => hparts p (List.mem_cons_of_mem _ hp)) h
    have hmode : b.context.mode = b.mode := rfl
    unfold Strategy.bindProperties Direct.properties
    rw [hmode]
    refine refines_isLeaf.bind fun leaf leaf' hleaf => ?_
    subst hleaf
    by_cases hskip : b.mode = .shallow ∧ (!leaf) = true
    · rw [if_pos hskip, if_pos hskip]
      exact .note_bind (hrest h)
    · rw [if_neg hskip, if_neg hskip]
      refine (Refines.call (hparts p List.mem_cons_self _)).bind fun o x hstands => ?_
      obtain ⟨rfl, ho⟩ := hstands
      cases o with
      | present value =>
        dsimp only [Outcome.bare, Outcome.toExcept, Except.mapError]
        cases p.set target value with
        | ok target => exact hrest ⟨rfl, h.2⟩
        | error e => exact hrest (h.push (e := .build e) rfl)
      | empty => exact .note_bind (hrest h)
      | failed e => exact hrest (h.push (ho e rfl))

theorem refines_startingInstance (hd : d.type = r.type) :
    Refines f held Eq (Strategy.startingInstance d r) (Direct.start d r.target.take.1) := by
  unfold Strategy.startingInstance Direct.start
  rw [hd]
  cases r.target.take.1 with
  | some value => exact .pure rfl
  | none =>
    dsimp only
    cases d.instantiate with
    | ok value => exact .pure rfl
    | error e => exact .throw (e := .instantiation r.type.name e) rfl

theorem refines_bindBean {properties : List Property} {factory : Option Datum}
    (hd : b.registry.get? r.type = some d) (hshape : d.shape = .bean properties factory)
    (hn : r.source.resolve? r.path = some n)
    (hparts : n.isMap = true → ∀ p ∈ d.writableProperties, ∀ current, Binds held
      (f { r with path := r.path.appendText p.bindingName, target := ⟨p.type, current, none⟩ })
      (bind p.type current (Direct.member? r.path.separator n p.bindingName))) :
    Refines f held Eq (Strategy.bindBean b.context r)
      (Direct.node b r.path.separator bind d r.target.take.1 n) := by
  have hdescriptor : b.context.descriptor r.type = pure d := Attempt.descriptor_eq hd
  have hkind : d.kind = .bean := by rw [Descriptor.kind, hshape]; rfl
  rw [Strategy.bindBean, Direct.node, hdescriptor, pure_bind, hkind, hshape]
  dsimp only
  rw [hn, Registry.type_of_get? hd]
  dsimp only
  by_cases hmap : n.isMap = true
  · rw [if_pos hmap, if_pos hmap]
    refine (refines_startingInstance (Registry.type_of_get? hd)).bind fun target target' h => ?_
    subst h
    refine (refines_bindProperties (hparts hmap) ⟨rfl, rfl, rfl⟩).bind ?_
    rintro ⟨value, errors⟩ ⟨value', errors'⟩ ⟨hvalue, hbare, hrecursive⟩
    simp only at hvalue hbare hrecursive
    subst hvalue hbare
    dsimp only
    rw [BindError.isEmpty_bareAll]
    by_cases hbad : (!errors.isEmpty) = true
    · rw [if_pos hbad, if_pos hbad]
      exact .throw_bind (e := .members r.type.name errors) hrecursive
    · rw [if_neg hbad, if_neg hbad]
      exact .pure rfl
  · rw [if_neg hmap, if_neg hmap]
    exact refines_convertWhole

/-! ### All kinds of types -/

/-- No text of the tree holds a reference. -/
def Node.Literal (root : Node) : Prop :=
  ∀ text ∈ root.texts, Text.hasReference text.toList = false

theorem Node.Literal.of_get? {root : Node} (h : root.Literal) {p : Path} {text : String}
    (hn : root.get? p = some (.text text)) : Text.hasReference text.toList = false :=
  h text (mem_texts_of_get? hn)

/-- The parts of a request are bound to what a direct bind makes of the parts of its node. -/
structure PartsBind (f : Request → Bind (Outcome Value)) (held : List String)
    (bind : Direct.Binding) (d : Descriptor) (r : Request) (n : Node) : Prop where
  element : ∀ items, n = .list items → ∀ item i (hi : i < items.length),
    Binds held (f (r.below (r.path.element i) item)) (bind item none (some items[i]))
  entry : ∀ nodes, n = .map nodes → ∀ value, ∀ key ∈ nodes.map (·.1), ∀ child,
    r.path.atKey? key = some child →
      Binds held (f (r.below child value)) (bind value none (Entries.get? key nodes))
  component : n.isMap = true → ∀ c ∈ d.components,
    Binds held (f (r.below (r.path.appendText c.name) c.type))
      (bind c.type none (Direct.member? r.path.separator n c.name))
  property : n.isMap = true → ∀ p ∈ d.writableProperties, ∀ current, Binds held
    (f { r with path := r.path.appendText p.bindingName, target := ⟨p.type, current, none⟩ })
    (bind p.type current (Direct.member? r.path.separator n p.bindingName))

theorem Refines.outcome {a : Attempt (Option Value)} {m : Direct.Result (Option Value)}
    (h : Refines f held Eq a m) : Binds held (a.outcome.exec f) m := by
  intro s hs
  have hrun : ((a.outcome.exec f s).map fun x => (x.1.toExcept, x.2)) = a.exec f s := by
    rw [Attempt.exec_outcome, Option.map_map]
    rcases a.exec f s with _ | ⟨e | _ | v, t⟩ <;> rfl
  rw [hrun]
  exact h s hs

theorem refines_bindScalar (hliteral : r.source.Literal)
    (hn : r.source.resolve? r.path = some n) :
    Refines f held Eq (Strategy.bindScalar b.context r)
      (do return some (← Direct.convert b n r.type)) := by
  have hconvert : Refines f held Eq (b.context.convertAt r)
      (do return some (← Direct.convert b n r.type)) := refines_convertAt hn
  unfold Strategy.bindScalar
  rw [hn]
  cases n with
  | text text =>
    dsimp only
    rw [hliteral.of_get? (Node.get?_of_resolve? hn)]
    exact hconvert
  | _ => exact hconvert

/-- **The strategy of every type agrees with the direct bind of its kind.** -/
theorem binds_ofKind (hp : r.path.Tight) (hliteral : r.source.Literal)
    (hd : b.registry.get? r.type = some d) (hn : r.source.resolve? r.path = some n)
    (hparts : PartsBind f held bind d r n) :
    Binds held (((Strategy.ofKind d.kind).bind b.context r).exec f)
      (Direct.node b r.path.separator bind d r.target.take.1 n) := by
  have hdescriptor : b.context.descriptor r.type = pure d := Attempt.descriptor_eq hd
  have htype := Registry.type_of_get? hd
  have hskip (p : Path) : Refines f held Eq (Context.skipElement p) (pure ()) :=
    .note_bind (k := pure) (.pure rfl)
  have hrefuse (p : Path) :
      Refines f held Eq (Context.refuseElement p) (throw (.missingElement "")) :=
    .throw (e := .missingElement p.render) rfl
  -- lists and sets leave out what is bound to nothing, arrays refuse it
  cases hshape : d.shape with
  | scalar =>
    rw [Descriptor.kind, hshape, Direct.node, hshape, htype]
    exact Refines.outcome (refines_bindScalar hliteral hn)
  | object =>
    rw [Descriptor.kind, hshape]
    have h : Strategy.bindBean b.context r = b.context.convertAt r := by
      rw [Strategy.bindBean, hdescriptor, pure_bind, Descriptor.kind, hshape]
      rfl
    rw [Direct.node, hshape, htype]
    refine Refines.outcome ?_
    rw [h]
    exact refines_convertAt hn
  | record components construct =>
    rw [Descriptor.kind, hshape]
    have hc : d.components = components := by rw [Descriptor.components, hshape]
    exact (refines_bindRecord hd hshape hn (hc ▸ hparts.component)).outcome
  | bean properties factory =>
    rw [Descriptor.kind, hshape]
    exact (refines_bindBean hd hshape hn hparts.property).outcome
  | list item =>
    rw [Descriptor.kind, hshape]
    rw [Direct.node, hshape]
    refine Refines.outcome ?_
    rw [Strategy.bindList, hdescriptor, pure_bind, hshape]
    exact refines_collect htype hn hskip fun items hitems => hparts.element items hitems item
  | array item capacity =>
    rw [Descriptor.kind, hshape]
    rw [Direct.node, hshape]
    refine Refines.outcome ?_
    rw [Strategy.bindArray, hdescriptor, pure_bind, hshape]
    exact refines_collect htype hn hrefuse fun items hitems => hparts.element items hitems item
  | set item =>
    rw [Descriptor.kind, hshape]
    rw [Direct.node, hshape]
    refine Refines.outcome ?_
    rw [Strategy.bindSet, hdescriptor, pure_bind, hshape]
    exact refines_collect htype hn hskip fun items hitems => hparts.element items hitems item
  | map value =>
    rw [Descriptor.kind, hshape]
    exact (refines_bindMap hp hd hshape hn
      fun nodes hnodes => hparts.entry nodes hnodes value).outcome

theorem binds_of_absent (hd : b.registry.get? r.type = some d)
    (hn : r.source.resolve? r.path = none) :
    Binds held (((Strategy.ofKind d.kind).bind b.context r).exec f) (pure none) := by
  have hscript : (Strategy.ofKind d.kind).bind b.context r = .done .empty :=
    Strategy.bind_of_absent hd hn
  rw [hscript]
  exact Refines.outcome (a := pure none) (.pure rfl)

end Strategies

end ConfigBind
