import ConfigBind.Proofs.Bind.Straight
import ConfigBind.Proofs.Types.Typing

/-!
# Binding maps

A map is bound key by key, each at the path of its entry.  Provided that what is bound there fits,
the map is bound if all keys have paths, and fails at the first one that has none
(`Binder.run_map`).  Which keys have a path is settled by `Path.isSome_atKey?_iff`.
-/

namespace ConfigBind

/-- The outcome can be used for a part of a type: it is empty or a value of the type. -/
def Outcome.Fits (t : TypeRef) : Outcome Value → Prop
  | present value => value.type = t
  | empty => True
  | failed _ => False

/-! ## Entries -/

namespace Strategy

open Attempt

variable {f : Request → Bind (Outcome Value)} {ctx : Context} {r : Request} {value : TypeRef}
  {held : List String} {s : Session} {keys : List String}

/-- Whatever is bound at the path of an entry fits, while the paths `held` are in flight. -/
def EntriesFit (f : Request → Bind (Outcome Value)) (r : Request) (value : TypeRef)
    (held : List String) (keys : List String) : Prop :=
  ∀ key ∈ keys, ∀ child, r.path.atKey? key = some child → ∀ s, s.inFlight = held →
    ∃ o t, f (r.below child value) s = some (o, t) ∧ t.inFlight = held ∧ o.Fits value

/-- What binding the entries under some keys comes to: values of the type, if all keys have a path,
or the error of a key that has none. -/
def EntriesBound (p : Path) (value : TypeRef) (keys : List String) :
    Except BindError (List (String × Value)) → Prop
  | .ok entries => (∀ key ∈ keys, (p.atKey? key).isSome = true) ∧ ∀ e ∈ entries, e.2.type = value
  | .error e => ∃ key ∈ keys, p.atKey? key = none ∧ e = .unaddressableKey p.render key

theorem exec_bindEntries (ctx : Context) (hfit : EntriesFit f r value held keys)
    (hs : s.inFlight = held) :
    ∃ x t, exec f (bindEntries ctx r value keys) s = some (x, t) ∧ t.inFlight = held ∧
      EntriesBound r.path value keys x := by
  induction keys generalizing s with
  | nil => exact ⟨.ok [], s, rfl, hs, by simp, by simp⟩
  | cons key keys ih =>
    have hrest : EntriesFit f r value held keys :=
      fun k hk => hfit k (List.mem_cons_of_mem _ hk)
    rw [bindEntries]
    cases hchild : r.path.atKey? key with
    | none => exact ⟨_, s, exec_throw _, hs, key, List.mem_cons_self, hchild, rfl⟩
    | some child =>
      have hkey : (r.path.atKey? key).isSome = true := by rw [hchild]; rfl
      obtain ⟨o, t, hcall, ht, ho⟩ := hfit key List.mem_cons_self child hchild s hs
      have hpart : exec f (ctx.bindPart (r.below child value)) s = some (o.toExcept, t) := by
        rw [exec_bindPart, hcall]
        rfl
      dsimp only
      cases o with
      | failed e => exact ho.elim
      | present v =>
        obtain ⟨x, u, hx, hu, hbound⟩ := ih hrest ht
        rw [exec_bind_of_ok hpart]
        dsimp only
        cases x with
        | ok entries =>
          rw [exec_bind_of_ok hx]
          exact ⟨_, u, exec_pure _, hu, List.forall_mem_cons.2 ⟨hkey, hbound.1⟩,
            List.forall_mem_cons.2 ⟨ho, hbound.2⟩⟩
        | error e =>
          rw [exec_bind_of_error hx]
          obtain ⟨k, hk, hnone, rfl⟩ := hbound
          exact ⟨_, u, rfl, hu, k, List.mem_cons_of_mem _ hk, hnone, rfl⟩
      | empty =>
        obtain ⟨x, u, hx, hu, hbound⟩ := ih (s := t.note (.unboundEntry child.render)) hrest ht
        rw [exec_bind_of_ok hpart]
        dsimp only
        rw [exec_bind_of_ok (exec_note _)]
        refine ⟨x, u, hx, hu, ?_⟩
        cases x with
        | ok entries => exact ⟨List.forall_mem_cons.2 ⟨hkey, hbound.1⟩, hbound.2⟩
        | error e =>
          obtain ⟨k, hk, hnone, rfl⟩ := hbound
          exact ⟨k, List.mem_cons_of_mem _ hk, hnone, rfl⟩

end Strategy

/-! ## Maps -/

namespace Binder

variable {b : Binder} {n : Nat} {r : Request} {s : Session} {d : Descriptor} {value : TypeRef}
  {entries : List (String × Node)}

/-- What the bind of a map comes to: a value, if all keys have a path, or else the failure at a key
that has none. -/
def MapBound (r : Request) (keys : List String) : Outcome Value → Prop
  | .present _ => ∀ key ∈ keys, (r.path.atKey? key).isSome = true
  | .empty => False
  | .failed e => ∃ key ∈ keys, r.path.atKey? key = none ∧
      e = .failed r.path.render r.type.name (.unaddressableKey r.path.render key)

open Attempt in
theorem run_map (hb : b.Standard) (hd : b.registry.get? r.type = some d)
    (hshape : d.shape = .map value) (hn : r.source.resolve? r.path = some (.map entries))
    (hinto : ∀ v, r.target.take.1 = some v → v.type = r.type) (hpolicy : r.policy = .propagate)
    (hm : r.path.render ∉ s.inFlight)
    (hfit : Strategy.EntriesFit (b.run n) r value (r.path.render :: s.inFlight)
      (entries.map (·.1))) :
    ∃ o t, b.run (n + 1) r s = some (o, t) ∧ MapBound r (entries.map (·.1)) o := by
  have hstrategy : b.strategyFor r.type = .ok Strategy.map := by
    rw [hb.strategyFor_eq hd, Descriptor.kind, hshape]
    rfl
  have hdelegate : b.delegate Strategy.map r = (Strategy.bindMap b.context r).outcome := by
    rw [delegate, redirection?, Node.get?_of_resolve? hn]
    rfl
  have hscript : Strategy.bindMap b.context r = do
      let bound ← Strategy.bindEntries b.context r value (entries.map (·.1))
      return some (← Attempt.ofBuild (d.collectEntries r.target.take.1 bound)) := by
    have hdescriptor : b.context.descriptor r.type = pure d := descriptor_eq hd
    rw [Strategy.bindMap, hdescriptor, pure_bind, hshape]
    dsimp only
    rw [hn]
    rfl
  obtain ⟨x, t, hx, ht, hbound⟩ := Strategy.exec_bindEntries b.context hfit
    (s := entry Strategy.map r s) rfl
  have houtcome {y : Except BindError (Option Value)}
      (hy : exec (b.run n) (Strategy.bindMap b.context r) (entry Strategy.map r s) = some (y, t)) :
      (b.delegate Strategy.map r).exec (b.run n) (entry Strategy.map r s) =
        some (.ofExcept y, t) := by
    rw [hdelegate, exec_outcome, hy]
    rfl
  rw [hscript] at houtcome
  cases x with
  | ok bound =>
    obtain ⟨v, -, hv⟩ := Descriptor.collectEntries_of_forall hshape
      (fun v hv => (hinto v hv).trans (Registry.type_of_get? hd).symm) hbound.2
    rw [exec_bind_of_ok hx, hv] at houtcome
    exact ⟨.present v, _, run_of_settle hstrategy hm (houtcome rfl) rfl, hbound.1⟩
  | error e =>
    rw [exec_bind_of_error hx] at houtcome
    obtain ⟨key, hkey, hnone, rfl⟩ := hbound
    have hsettle := recovery_of_propagate (b := b) hpolicy
      (.unaddressableKey r.path.render key) (b.run n) t t
    obtain ⟨u, hsettle, -⟩ := hsettle
    exact ⟨_, _, run_of_settle hstrategy hm (houtcome rfl) hsettle, key, hkey, hnone, rfl⟩

theorem MapBound.isPresent_iff {keys : List String} {o : Outcome Value} (h : MapBound r keys o) :
    o.isPresent = true ↔ ∀ key ∈ keys, (r.path.atKey? key).isSome = true := by
  cases o with
  | present v => exact ⟨fun _ => h, fun _ => rfl⟩
  | empty => exact h.elim
  | failed e =>
    obtain ⟨key, hkey, hnone, -⟩ := h
    refine ⟨fun hpresent => ?_, fun hall => ?_⟩
    · cases hpresent
    · have hsome := hall key hkey
      rw [hnone] at hsome
      cases hsome

theorem entriesFit_of_direct (hb : b.Standard) (hnames : b.registry.Named) {held : List String}
    (h : r.Straight held) (hn : r.source.get? r.path = some (.map entries)) {keys : List String}
    (hdirect : ∀ key ∈ keys, ∃ found : Option Value, (∀ v, found = some v → v.type = value) ∧
      (Direct.bind b r.path.separator n value none (Entries.get? key entries)).run =
        some (.ok found)) :
    Strategy.EntriesFit (b.run n) r value (r.path.render :: held) keys := by
  intro key hkey child hchild s hs
  obtain ⟨found, htype, hfound⟩ := hdirect key hkey
  have hentry := Path.get?_of_atKey? hn hchild
  obtain ⟨rfl, -⟩ := Path.segments_of_atKey? hchild
  have hagree : Agree (r.path.render :: held) Eq
      ((b.run n (r.below (r.path.appendText (Path.keyText r.path.separator key)) value) s).map
        fun x => (x.1.toExcept, x.2)) (some (.ok found)) := by
    have hbinds := run_binds hb hnames n
      (h.part (Path.keyText_ne r.path.separator key) (.ofType value)) s hs
    simp only [Path.separator_appendText, hentry] at hbinds
    rw [← hfound]
    exact hbinds
  rcases hrun : b.run n _ s with _ | ⟨o, t⟩
  · rw [hrun] at hagree
    cases hagree
  · rw [hrun] at hagree
    refine ⟨o, t, rfl, ?_⟩
    cases o with
    | present v =>
      cases hagree with
      | ok hr ht => exact ⟨ht, htype v hr.symm⟩
    | empty =>
      cases hagree with
      | ok hr ht => exact ⟨ht, trivial⟩
    | failed e => cases hagree

/-- **The keys of a map have paths if their brackets are balanced, and the path of the map is not
the one parsed from the empty text.**  The path of a key leads to its entry; and provided that what
is bound there fits, the map is bound if and only if its keys have paths. -/
theorem map_keys_have_paths {p : Path} (hp : p.Built) {root : Node}
    {entries : List (String × Node)} (hn : root.resolve? p = some (.map entries)) :
    (∀ key, (p.atKey? key).isSome = true ↔
      Balanced key.toList ∧ p ≠ Path.parseWith p.separator "") ∧
    (∀ key child, p.atKey? key = some child → root.get? child = Entries.get? key entries) ∧
    ∀ (b : Binder) (d : Descriptor) (value : TypeRef) (target : Target) (n : Nat) (s : Session),
      b.Standard → b.registry.get? target.type = some d → d.shape = .map value →
      (∀ v, target.take.1 = some v → v.type = target.type) → p.render ∉ s.inFlight →
      Strategy.EntriesFit (b.run n) ⟨p, target, root, .propagate⟩ value (p.render :: s.inFlight)
        (entries.map (·.1)) →
      ∃ o t, b.run (n + 1) ⟨p, target, root, .propagate⟩ s = some (o, t) ∧
        (o.isPresent = true ↔ (∀ e ∈ entries, Balanced e.1.toList) ∧
          (entries = [] ∨ p ≠ Path.parseWith p.separator "")) ∧
        (o.isPresent = false → ∃ e ∈ entries, p.atKey? e.1 = none ∧
          o = .failed (.failed p.render target.type.name (.unaddressableKey p.render e.1))) := by
  have hkeys (key : String) : (p.atKey? key).isSome = true ↔
      Balanced key.toList ∧ p ≠ Path.parseWith p.separator "" := by
    rw [Path.isSome_atKey?_iff, hp.tight_iff]
  refine ⟨hkeys, fun key child h => Path.get?_of_atKey? (Node.get?_of_resolve? hn) h, ?_⟩
  intro b d value target n s hb hd hshape hinto hm hfit
  obtain ⟨o, t, hrun, hbound⟩ := run_map (r := ⟨p, target, root, .propagate⟩) hb hd hshape hn hinto
    rfl hm hfit
  refine ⟨o, t, hrun, ?_, fun ho => ?_⟩
  · rw [hbound.isPresent_iff]
    simp only [hkeys, List.forall_mem_map]
    constructor
    · intro hall
      refine ⟨fun e he => (hall e he).1, ?_⟩
      cases entries with
      | nil => exact .inl rfl
      | cons e rest => exact .inr (hall e List.mem_cons_self).2
    · rintro ⟨hbalanced, rfl | hne⟩ e he
      · cases he
      · exact ⟨hbalanced e he, hne⟩
  · cases o with
    | present v => cases ho
    | empty => exact hbound.elim
    | failed e =>
      obtain ⟨key, hkey, hnone, rfl⟩ := hbound
      obtain ⟨entry, hentry, rfl⟩ := List.mem_map.1 hkey
      exact ⟨entry, hentry, hnone, rfl⟩

end Binder

/-- The key of a root map has no path below the path parsed from the empty text, though that leads
to the map, and though the key has a path below the path without segments. -/
theorem parse_empty_hides_keys :
    (Node.map [("a", .uint 1)]).resolve? (.parse "") = some (.map [("a", .uint 1)]) ∧
      Balanced "a".toList ∧ (Path.parse "").atKey? "a" = none ∧
        (Path.empty.atKey? "a").isSome = true :=
  ⟨rfl, by decide, by decide, by decide⟩

namespace Sample

def ports : TypeRef := ⟨"Ports", "Map<u16>"⟩

def entries : List (String × Node) := [("eu.west", .uint 443), ("us[1]", .null)]

def servers : Node := .map [("servers", .map entries)]

def portBinder : Binder :=
  (Binder.new ⟨[⟨ports, .map IntegerType.u16.ref⟩]⟩ ⟨"Tree", "Tree"⟩ servers).register ports

def portRequest : Request := ⟨.parse "servers", .ofType ports, servers, .propagate⟩

theorem get?_ports : portBinder.registry.get? ports = some ⟨ports, .map IntegerType.u16.ref⟩ :=
  (Registry.faithful_standard portBinder.catalog).get?_register ports

theorem get?_port :
    portBinder.registry.get? IntegerType.u16.ref = some ⟨IntegerType.u16.ref, .scalar⟩ :=
  ((Registry.faithful_standard portBinder.catalog).register ports).standard _ _ rfl

theorem named_portBinder : portBinder.registry.Named := by
  refine ((Registry.namesVisible_standard '.').register ?_ ports).named
  intro d hd
  obtain rfl := List.mem_singleton.1 hd
  constructor
  · intro c hc
    cases hc
  · intro p hp
    cases hp

theorem straight_portRequest : portRequest.Straight [] := by
  refine Binder.straight_of_built (.parse '.' "servers") (by decide) ?_ rfl _
  simp [Node.Literal, servers, entries, Node.texts, Node.textsEntries]

theorem entriesFit_ports : Strategy.EntriesFit (portBinder.run 1) portRequest IntegerType.u16.ref
    ["servers"] (entries.map (·.1)) := by
  refine Binder.entriesFit_of_direct (b := portBinder) rfl named_portBinder straight_portRequest
    rfl ?_
  intro key hkey
  simp only [entries, List.map_cons, List.map_nil, List.mem_cons, List.not_mem_nil,
    or_false] at hkey
  rcases hkey with rfl | rfl
  · refine ⟨some ⟨IntegerType.u16.ref, .int 443⟩, by simp, ?_⟩
    rw [Direct.bind, get?_port]
    rfl
  · refine ⟨none, by simp, ?_⟩
    rw [Direct.bind, get?_port]
    rfl

/-- Both ports have paths, the paths lead to them, and their map is bound. -/
theorem ports_have_paths :
    (Path.Built (.parse "servers") ∧
      servers.resolve? (.parse "servers") = some (.map entries)) ∧
    (((Path.parse "servers").atKey? "us[1]").isSome = true ∧
      ∀ child, (Path.parse "servers").atKey? "us[1]" = some child →
        servers.get? child = some .null) ∧
    ∃ o t, portBinder.run 2 portRequest ⟨[], []⟩ = some (o, t) ∧ o.isPresent = true := by
  have hbuilt : Path.Built (.parse "servers") := .parse '.' "servers"
  have hn : servers.resolve? (.parse "servers") = some (.map entries) := rfl
  obtain ⟨hkeys, hchild, hbind⟩ := Binder.map_keys_have_paths hbuilt hn
  have hne : Path.parse "servers" ≠ Path.parseWith '.' "" := by decide
  obtain ⟨o, t, hrun, hpresent, -⟩ := hbind portBinder _ IntegerType.u16.ref (.ofType ports) 1
    ⟨[], []⟩ rfl get?_ports rfl (by simp [Target.ofType, Target.take]) (by simp) entriesFit_ports
  exact ⟨⟨hbuilt, hn⟩, ⟨(hkeys "us[1]").2 ⟨by decide, hne⟩, hchild "us[1]"⟩, o, t, hrun,
    hpresent.2 ⟨by decide, .inr hne⟩⟩

end Sample

end ConfigBind
