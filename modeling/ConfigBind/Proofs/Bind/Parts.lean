import ConfigBind.Proofs.Bind.Scripts
import ConfigBind.Proofs.Bind.Selection
import ConfigBind.Proofs.Text.References

/-!
# Parts of a request

What a built-in strategy asks for while it binds a request is a `Part` of it: an element, an entry,
a component or a property of the value, at a path below that of the request and only where there is
a node of that form, or what a reference in the text there refers to.  Besides, a strategy notes
only events that are `Plain`, which tell nothing about the paths in flight.

* `Strategy.only_of_mem_builtin`: this holds of every built-in strategy.
* `Strategy.bind_of_absent`: where there is no data, nothing is asked for.
* `Binder.only_delegate`: so it holds of every bind of a standard binder.
-/

namespace ConfigBind

/-- The event is not about the paths in flight. -/
def Event.Plain : Event → Prop
  | entered _ | refused _ | left _ | asked .. => False
  | _ => True

/-- What a built-in strategy asks for while it binds a request. -/
inductive Part (ctx : Context) (r : Request) : Request → Prop
  | element {d : Descriptor} {item : TypeRef} {items : List Node} {i : Nat}
      (hd : ctx.describe? r.type = some d) (hitem : d.item? = some item)
      (hn : r.source.resolve? r.path = some (.list items)) (hi : i < items.length) :
      Part ctx r (r.below (r.path.element i) item)
  | entry {d : Descriptor} {value : TypeRef} {entries : List (String × Node)} {key : String}
      {child : Path} (hd : ctx.describe? r.type = some d) (hitem : d.item? = some value)
      (hn : r.source.resolve? r.path = some (.map entries)) (hkey : key ∈ entries.map (·.1))
      (hchild : r.path.atKey? key = some child) : Part ctx r (r.below child value)
  | component {d : Descriptor} {entries : List (String × Node)} {c : Component}
      (hd : ctx.describe? r.type = some d) (hc : c ∈ d.components)
      (hn : r.source.resolve? r.path = some (.map entries)) :
      Part ctx r (r.below (r.path.appendText c.name) c.type)
  | property {d : Descriptor} {entries : List (String × Node)} {p : Property}
      {current : Option Value} (hd : ctx.describe? r.type = some d)
      (hp : p ∈ d.writableProperties) (hn : r.source.resolve? r.path = some (.map entries)) :
      Part ctx r { r with
        path := r.path.appendText p.bindingName, target := ⟨p.type, current, none⟩ }
  | reference {text reference : String} (hn : r.source.get? r.path = some (.text text))
      (href : reference ∈ (Text.Template.parse text.toList).references) :
      Part ctx r (r.below (Path.parseWith r.path.separator reference) .text)
  | redirected {text reference : String} (hn : r.source.get? r.path = some (.text text))
      (href : reference ∈ (Text.Template.parse text.toList).references) :
      Part ctx r { r with path := Path.parseWith r.path.separator reference }

theorem Node.eq_map_of_isMap {n : Node} (h : n.isMap = true) : ∃ entries, n = .map entries := by
  cases n <;> first | exact ⟨_, rfl⟩ | simp [isMap, kind] at h

theorem Node.eq_list_of_items? {n : Node} {items : List Node} (h : n.items? = some items) :
    n = .list items := by
  cases n <;> simp_all [items?]

theorem Node.eq_map_of_entries? {n : Node} {entries : List (String × Node)}
    (h : n.entries? = some entries) : n = .map entries := by
  cases n <;> simp_all [entries?]

theorem Node.get?_of_resolve? {root n : Node} {p : Path} (h : root.resolve? p = some n) :
    root.get? p = some n :=
  (Option.filter_eq_some_iff.1 h).1

variable {ctx : Context} {r : Request}

/-- A script that binds a request by its parts. -/
abbrev Script.ByParts {α : Type} (ctx : Context) (r : Request) : Script α → Prop :=
  Script.Only Event.Plain (Part ctx r)

abbrev Attempt.ByParts {α : Type} (ctx : Context) (r : Request) : Attempt α → Prop :=
  Attempt.Only Event.Plain (Part ctx r)

/-! ## Containers -/

namespace Context

open Attempt

variable {onEmpty : Path → Attempt Unit}

theorem only_bindElementsFrom {d : Descriptor} {item : TypeRef} {items : List Node}
    (hd : ctx.describe? r.type = some d) (hitem : d.item? = some item)
    (hn : r.source.resolve? r.path = some (.list items)) (he : ∀ p, ByParts ctx r (onEmpty p))
    {count i : Nat} (hle : i + count ≤ items.length) :
    ByParts ctx r (ctx.bindElementsFrom r item onEmpty count i) := by
  induction count generalizing i with
  | zero => exact only_pure _
  | succ count ih =>
    have hrest := ih (i := i + 1) (by omega)
    refine (only_bindPart (.element hd hitem hn (by omega))).bind fun o => ?_
    cases o with
    | none => exact (he _).bind fun _ => hrest
    | some value => exact hrest.bind fun _ => only_pure _

theorem only_bindElements {d : Descriptor} {item : TypeRef}
    (hd : ctx.describe? r.type = some d) (hitem : d.item? = some item)
    (he : ∀ p, ByParts ctx r (onEmpty p)) : ByParts ctx r (ctx.bindElements r item onEmpty) := by
  unfold bindElements
  split
  · exact only_pure _
  · rename_i n hn
    split
    · exact only_throw _
    · rename_i items hitems
      obtain rfl := Node.eq_list_of_items? hitems
      exact (only_bindElementsFrom hd hitem hn he (by omega)).bind fun _ => only_pure _

theorem only_skipElement (p : Path) : ByParts ctx r (skipElement p) := only_note trivial

theorem only_refuseElement (p : Path) : ByParts ctx r (refuseElement p) := only_throw _

end Context

namespace Strategy

open Attempt Context

theorem only_collect {d : Descriptor} {item : TypeRef} (hd : ctx.describe? r.type = some d)
    (hitem : d.item? = some item) {onEmpty : Path → Attempt Unit}
    (he : ∀ p, ByParts ctx r (onEmpty p)) (f : List Value → Except BuildError Value) :
    ByParts ctx r do
      match ← ctx.bindElements r item onEmpty with
      | none => return none
      | some items => return some (← Attempt.ofBuild (f items)) := by
  refine (only_bindElements hd hitem he).bind fun o => ?_
  cases o with
  | none => exact only_pure _
  | some items => exact (only_ofBuild _).bind fun _ => only_pure _

theorem only_bindList : ByParts ctx r (bindList ctx r) := by
  refine only_descriptor_bind fun d hd => ?_
  split
  · rename_i item hshape
    exact only_collect hd (by rw [Descriptor.item?, hshape]) only_skipElement _
  · exact only_throw _

theorem only_bindArray : ByParts ctx r (bindArray ctx r) := by
  refine only_descriptor_bind fun d hd => ?_
  split
  · rename_i item capacity hshape
    exact only_collect hd (by rw [Descriptor.item?, hshape]) only_refuseElement _
  · exact only_throw _

theorem only_bindSet : ByParts ctx r (bindSet ctx r) := by
  refine only_descriptor_bind fun d hd => ?_
  split
  · rename_i item hshape
    exact only_collect hd (by rw [Descriptor.item?, hshape]) only_skipElement _
  · exact only_throw _

theorem only_bindEntries {d : Descriptor} {value : TypeRef} {entries : List (String × Node)}
    (hd : ctx.describe? r.type = some d) (hitem : d.item? = some value)
    (hn : r.source.resolve? r.path = some (.map entries)) {keys : List String}
    (hkeys : keys ⊆ entries.map (·.1)) : ByParts ctx r (bindEntries ctx r value keys) := by
  induction keys with
  | nil => exact only_pure _
  | cons key rest ih =>
    have hrest := ih fun k hk => hkeys (List.mem_cons_of_mem _ hk)
    unfold bindEntries
    split
    · exact only_throw _
    · rename_i child hchild
      have hpart := Part.entry hd hitem hn (hkeys List.mem_cons_self) hchild
      refine (only_bindPart hpart).bind fun o => ?_
      cases o with
      | none => exact (only_note trivial).bind fun _ => hrest
      | some v => exact hrest.bind fun _ => only_pure _

theorem only_bindMap : ByParts ctx r (bindMap ctx r) := by
  refine only_descriptor_bind fun d hd => ?_
  split
  · rename_i value hshape
    have hitem : d.item? = some value := by rw [Descriptor.item?, hshape]
    split
    · exact only_pure _
    · rename_i n hn
      split
      · exact only_throw _
      · rename_i entries hentries
        obtain rfl := Node.eq_map_of_entries? hentries
        refine (only_bindEntries hd hitem hn (List.Subset.refl _)).bind fun _ => ?_
        exact (only_ofBuild _).bind fun _ => only_pure _
  · exact only_throw _

/-! ## Records and beans -/

theorem only_bindComponents {d : Descriptor} {entries : List (String × Node)}
    (hd : ctx.describe? r.type = some d) (hn : r.source.resolve? r.path = some (.map entries))
    {components : List Component} (hc : components ⊆ d.components) (values : Components)
    (errors : List BindError) : ByParts ctx r (bindComponents ctx r components values errors) := by
  induction components generalizing values errors with
  | nil => exact only_pure _
  | cons c rest ih =>
    have hrest := fun values errors =>
      ih (fun x hx => hc (List.mem_cons_of_mem _ hx)) values errors
    have hpart := Part.component hd (hc List.mem_cons_self) hn
    unfold bindComponents
    refine (only_skips c.type).bind fun skipped => ?_
    cases skipped with
    | true => exact (only_note trivial).bind fun _ => hrest _ _
    | false =>
      refine (only_bind hpart).bind fun o => ?_
      cases o <;> exact hrest _ _

theorem only_bindRecord : ByParts ctx r (bindRecord ctx r) := by
  refine only_descriptor_bind fun d hd => ?_
  split
  · rename_i components construct hshape
    split
    · exact only_pure _
    · rename_i n hn
      split
      · rename_i hmap
        obtain ⟨entries, rfl⟩ := Node.eq_map_of_isMap hmap
        have hc : components ⊆ d.components := by
          rw [Descriptor.components, hshape]
          exact List.Subset.refl _
        refine (only_bindComponents hd hn hc _ _).bind ?_
        rintro ⟨values, errors⟩
        dsimp only
        by_cases hbad : (!errors.isEmpty) = true
        · rw [if_pos hbad]
          exact only_throw_bind _
        · rw [if_neg hbad]
          cases d.construct values with
          | ok value => exact only_pure _
          | error e => exact only_throw _
      · exact only_convertWhole _ _
  · exact only_throw _

theorem only_bindProperties {d : Descriptor} {entries : List (String × Node)}
    (hd : ctx.describe? r.type = some d) (hn : r.source.resolve? r.path = some (.map entries))
    {properties : List Property} (hp : properties ⊆ d.writableProperties) (target : Value)
    (errors : List BindError) : ByParts ctx r (bindProperties ctx r properties target errors) := by
  induction properties generalizing target errors with
  | nil => exact only_pure _
  | cons p rest ih =>
    have hrest := fun target errors =>
      ih (fun x hx => hp (List.mem_cons_of_mem _ hx)) target errors
    unfold bindProperties
    refine (only_isLeaf p.type).bind fun leaf => ?_
    split
    · exact (only_note trivial).bind fun _ => hrest _ _
    · refine (only_bind (.property hd (hp List.mem_cons_self) hn)).bind fun o => ?_
      cases o with
      | present value =>
        dsimp only
        split <;> exact hrest _ _
      | empty => exact (only_note trivial).bind fun _ => hrest _ _
      | failed e => exact hrest _ _

theorem only_startingInstance {Q : Event → Prop} {P : Request → Prop} (d : Descriptor) :
    Only Q P (startingInstance d r) := by
  unfold startingInstance
  split
  · exact only_pure _
  · split
    · exact only_pure _
    · exact only_throw _

theorem only_bindBean : ByParts ctx r (bindBean ctx r) := by
  refine only_descriptor_bind fun d hd => ?_
  split
  · split
    · exact only_pure _
    · rename_i n hn
      split
      · rename_i hmap
        obtain ⟨entries, rfl⟩ := Node.eq_map_of_isMap hmap
        refine (only_startingInstance d).bind fun start => ?_
        refine (only_bindProperties hd hn (List.Subset.refl _) _ _).bind ?_
        rintro ⟨value, errors⟩
        dsimp only
        split
        · exact only_throw _
        · exact only_pure _
      · exact only_convertWhole _ _
  · exact only_convertAt

/-! ## Scalars -/

theorem only_resolveReference {text reference : String}
    (hn : r.source.get? r.path = some (.text text))
    (href : reference ∈ (Text.Template.parse text.toList).references) :
    ByParts ctx r (resolveReference ctx r reference) := by
  unfold resolveReference
  refine (only_bind (.reference hn href)).bind fun o => ?_
  split
  · exact only_throw _
  · exact only_pure _
  · split
    · exact only_pure _
    · exact only_throw _

theorem only_fillPieces {resolve : String → Attempt (Option String)} (tail : List Char)
    {pieces : List (List Char × List Char)}
    (h : ∀ piece ∈ pieces, ByParts ctx r (resolve (String.ofList (Text.trim piece.2)))) :
    ByParts ctx r (Text.Template.fillPieces resolve tail pieces) := by
  induction pieces with
  | nil => exact only_pure _
  | cons piece rest ih =>
    refine (h piece List.mem_cons_self).bind fun value => ?_
    exact (ih fun x hx => h x (List.mem_cons_of_mem _ hx)).bind fun _ => only_pure _

theorem only_bindScalar : ByParts ctx r (bindScalar ctx r) := by
  unfold bindScalar
  split
  · rename_i text hn
    split
    · refine (only_fillPieces _ fun piece hp => ?_).bind fun filled =>
        (only_convert _ _).bind fun _ => only_pure _
      exact only_resolveReference (Node.get?_of_resolve? hn) (List.mem_map.2 ⟨piece, hp, rfl⟩)
    · exact only_convertAt
  · exact only_convertAt

/-! ## Binders -/

/-- **A built-in strategy binds a request by its parts.** -/
theorem only_of_mem_builtin {strategy : Strategy} (h : strategy ∈ builtin) (ctx : Context)
    (r : Request) : (strategy.bind ctx r).ByParts ctx r := by
  simp only [builtin, List.mem_cons, List.not_mem_nil, or_false] at h
  rcases h with rfl | rfl | rfl | rfl | rfl | rfl | rfl
  · exact only_bindScalar.outcome
  · exact only_bindMap.outcome
  · exact only_bindArray.outcome
  · exact only_bindSet.outcome
  · exact only_bindList.outcome
  · exact only_bindRecord.outcome
  · exact only_bindBean.outcome

theorem bind_of_absent {d : Descriptor} (hd : ctx.describe? r.type = some d)
    (hn : r.source.resolve? r.path = none) : (ofKind d.kind).bind ctx r = .done .empty := by
  have hdescriptor : ctx.descriptor r.type = pure d := descriptor_eq hd
  have hnone {a : Attempt (Option Value)} (h : a = pure none) : a.outcome = .done .empty := by
    rw [h]
    rfl
  cases hshape : d.shape <;> rw [Descriptor.kind, hshape] <;> refine hnone ?_
  case scalar => rw [bindScalar, hn, convertAt, hn]
  case object =>
    rw [bindBean, hdescriptor, pure_bind, Descriptor.kind, hshape]
    dsimp only [Shape.kind]
    rw [convertAt, hn]
  case record => rw [bindRecord, hdescriptor, pure_bind, hshape, hn]
  case bean =>
    rw [bindBean, hdescriptor, pure_bind, Descriptor.kind, hshape]
    dsimp only [Shape.kind]
    rw [hn]
  case list =>
    rw [bindList, hdescriptor, pure_bind, hshape]
    dsimp only
    rw [bindElements, hn, pure_bind]
  case array =>
    rw [bindArray, hdescriptor, pure_bind, hshape]
    dsimp only
    rw [bindElements, hn, pure_bind]
  case set =>
    rw [bindSet, hdescriptor, pure_bind, hshape]
    dsimp only
    rw [bindElements, hn, pure_bind]
  case map => rw [bindMap, hdescriptor, pure_bind, hshape, hn]

end Strategy

namespace Binder

variable {b : Binder}

theorem redirection?_eq_some {path : Path} (h : redirection? r = some path) :
    ∃ text reference, r.source.get? r.path = some (.text text) ∧
      reference ∈ (Text.Template.parse text.toList).references ∧
        path = Path.parseWith r.path.separator reference := by
  unfold redirection? at h
  split at h
  · rename_i text hn
    obtain ⟨reference, href, rfl⟩ := Option.map_eq_some_iff.1 h
    exact ⟨text, reference, hn, Text.mem_references_of_wholeReference? href, rfl⟩
  · cases h

/-- **A standard binder binds a request by its parts.** -/
theorem only_delegate (hb : b.Standard) {strategy : Strategy}
    (h : b.strategyFor r.type = .ok strategy) :
    (b.delegate strategy r).ByParts b.context r := by
  unfold delegate
  split
  · rename_i path hpath
    obtain ⟨text, reference, hn, href, rfl⟩ := redirection?_eq_some hpath
    exact ⟨trivial, .redirected hn href, fun _ => trivial⟩
  · exact Strategy.only_of_mem_builtin (hb.mem_builtin h) _ _

end Binder

end ConfigBind
