import ConfigBind.Proofs.Bind.Scripts
import ConfigBind.Proofs.Path.Addressing

/-!
# Positions below a path

A bind goes down a tree in steps: into a map by a key, into a list by an index.  Along with the node
goes the path, and the paths that are being bound are told apart by their texts.

Every step writes one segment behind the path (`Path.Built.toList_render_walk?`), as the canonical
form of a path writes it, and what is written so can be read again (`Segment.canonicals_injective`,
`Segment.canonicalAll_injective`).  The segments tell the steps, given the node they start from
(`Node.steps_eq_of_segments`).  They do not without it: where the separator is a digit, a key that
holds it is written as an index is.

* `positions_apart`: different steps lead to paths with different texts, and each path leads to the
  node that its steps lead to.
-/

namespace ConfigBind

/-- A step down a tree: to the value under a key of a map, or to an item of a list. -/
inductive Step
  | entry (key : String)
  | item (index : Nat)
  deriving DecidableEq, Repr

def Step.IsBalanced : Step → Prop
  | .entry key => Balanced key.toList
  | .item _ => True

/-- The segment that a step adds to a path. -/
def Step.segment (separator : Char) : Step → Segment
  | .entry key =>
    if Path.needsBrackets separator key then ⟨key, key.toList.foldl SegmentKind.refine .bracketed⟩
    else ⟨key, (key.toList.foldl SegmentKind.refine .blank).close⟩
  | .item i => Path.elementSegment i

namespace Node

def step? (n : Node) : Step → Option Node
  | .entry key => n.entries?.bind (Entries.get? key)
  | .item i => n.items?.bind (·[i]?)

def walk? (n : Node) (steps : List Step) : Option Node := steps.foldlM step? n

end Node

namespace Path

/-- The path that a step leads to, if the step can be written as one segment. -/
def step? (p : Path) : Step → Option Path
  | .entry key => p.atKey? key
  | .item i => some (p.element i)

def walk? (p : Path) (steps : List Step) : Option Path := steps.foldlM step? p

/-- Steps lead from a path to another, and from a node to another. -/
def Reaches (p : Path) (n : Node) (steps : List Step) (child : Path) (m : Node) : Prop :=
  p.walk? steps = some child ∧ n.walk? steps = some m

end Path

/-! ## Reading what is written -/

namespace Segment

variable {separator : Char} {segments segments' : List Segment}

theorem canonicals_injective (hopen : separator ≠ '[') (hclose : separator ≠ ']')
    (h : ∀ s ∈ segments, s.IsWritten separator) (h' : ∀ s ∈ segments', s.IsWritten separator)
    (heq : segments.flatMap (canonical separator false) =
      segments'.flatMap (canonical separator false)) : segments = segments' := by
  -- Any text in front will do, if it is plain.
  obtain ⟨c, hc, ho, hc'⟩ : ∃ c : Char, c ≠ separator ∧ c ≠ '[' ∧ c ≠ ']' := by
    by_cases hx : separator = 'x'
    · exact ⟨'y', by rw [hx]; decide, by decide, by decide⟩
    · exact ⟨'x', Ne.symm hx, by decide, by decide⟩
  have hb : Balanced [c] := balanced_of_forall_ne (by simpa using ho.symm) (by simpa using hc'.symm)
  have hx : ∃ d ∈ [c], d ≠ separator := ⟨c, List.mem_singleton.2 rfl, hc⟩
  have hscan : scan separator [c] ++ spansFrom separator 1 segments =
      scan separator [c] ++ spansFrom separator 1 segments' := by
    have hread := (scan_append_canonicals hopen hclose hb hx h).2
    rw [heq] at hread
    exact hread.symm.trans (scan_append_canonicals hopen hclose hb hx h').2
  have hspans := List.append_cancel_left hscan
  rw [← map_segment_spansFrom 1 segments, hspans, map_segment_spansFrom]

theorem canonicalAll_injective (hopen : separator ≠ '[') (hclose : separator ≠ ']')
    (h : ∀ s ∈ segments, s.IsWritten separator) (h' : ∀ s ∈ segments', s.IsWritten separator)
    (heq : canonicalAll separator segments = canonicalAll separator segments') :
    segments = segments' := by
  have hvisible {segments : List Segment} (h : ∀ s ∈ segments, s.IsWritten separator)
      (hnil : canonicalAll separator segments = []) : segments = [] := by
    by_contra hne
    obtain ⟨-, ⟨c, hc, -⟩, -⟩ := scan_canonicalAll hopen hclose hne h
    rw [hnil] at hc
    cases hc
  by_cases hnil : segments = []
  · subst hnil
    exact (hvisible h' heq.symm).symm
  · by_cases hnil' : segments' = []
    · subst hnil'
      exact hvisible h heq
    · have hspans : spansAll separator segments = spansAll separator segments' := by
        rw [← (scan_canonicalAll hopen hclose hnil h).2.2,
          ← (scan_canonicalAll hopen hclose hnil' h').2.2, heq]
      rw [← @map_segment_spansAll separator segments, hspans, map_segment_spansAll]

end Segment

/-! ## One step -/

namespace Step

variable {separator : Char}

def text (separator : Char) : Step → String
  | .entry key => Path.keyText separator key
  | .item i => "[" ++ toString i ++ "]"

theorem text_ne (separator : Char) (s : Step) : s.text separator ≠ "" := by
  cases s with
  | entry key => exact Path.keyText_ne separator key
  | item i => simp [text]

@[simp] theorem text_segment_entry (separator : Char) (key : String) :
    ((Step.entry key).segment separator).text = key := by
  by_cases h : Path.needsBrackets separator key = true
  · rw [segment, if_pos h]
  · rw [segment, if_neg h]

theorem text_cases {s : Step} (h : s.IsBalanced) :
    ∃ t : String, Balanced t.toList ∧ s.text separator = "[" ++ t ++ "]" ∧
        s.segment separator = ⟨t, t.toList.foldl SegmentKind.refine .bracketed⟩ ∨
      t ≠ "" ∧ (∀ c ∈ t.toList, c ≠ '[' ∧ c ≠ ']' ∧ c ≠ separator) ∧ s.text separator = t ∧
        s.segment separator = ⟨t, (t.toList.foldl SegmentKind.refine .blank).close⟩ := by
  cases s with
  | item i => exact ⟨toString i, .inl ⟨Path.balanced_toString_nat i, rfl, rfl⟩⟩
  | entry key =>
    refine ⟨key, ?_⟩
    by_cases hneeds : Path.needsBrackets separator key = true
    · exact .inl ⟨h, if_pos hneeds, if_pos hneeds⟩
    · obtain ⟨hne, hplain⟩ := Path.plain_of_not_needsBrackets (Bool.not_eq_true _ ▸ hneeds)
      exact .inr ⟨hne, hplain, if_neg hneeds, if_neg hneeds⟩

theorem isWritten_segment (separator : Char) {s : Step} (h : s.IsBalanced) :
    (s.segment separator).IsWritten separator ∧
      (s.text separator).toList = (s.segment separator).canonical separator true := by
  obtain ⟨t, ⟨hb, htext, hsegment⟩ | ⟨hne, hplain, htext, hsegment⟩⟩ := text_cases h
  · rw [htext, hsegment]
    refine ⟨.bracketed hb, ?_⟩
    rw [Segment.canonical_of_indexed true (Path.foldl_refine_indexed _ _)
      (Path.foldl_refine_corrupted _ _)]
    simp [String.toList_append]
  · rw [htext, hsegment]
    refine ⟨.plain (by simpa using hne) hplain, ?_⟩
    rw [Segment.canonical_true_of_plain]
    rw [SegmentKind.close_indexed, Path.foldl_refine_indexed]
    rfl

end Step

namespace Path

variable {p child : Path} {s : Step}

theorem eq_appendText_of_step? (h : p.step? s = some child) :
    s.IsBalanced ∧ child = p.appendText (s.text p.separator) := by
  cases s with
  | entry key =>
    change p.atKey? key = some child at h
    obtain ⟨hb, -⟩ := (isSome_atKey?_iff p key).1 (by rw [h]; rfl)
    exact ⟨hb, (segments_of_atKey? h).1⟩
  | item i => exact ⟨trivial, (Option.some.inj h).symm⟩

theorem Built.step? (hp : p.Built) (h : p.step? s = some child) : child.Built := by
  rw [(eq_appendText_of_step? h).2]
  exact .append hp (.parse _ _)

theorem separator_of_step? (h : p.step? s = some child) : child.separator = p.separator := by
  rw [(eq_appendText_of_step? h).2, separator_appendText]

theorem isEmpty_of_step? (h : p.step? s = some child) : child.isEmpty = false := by
  rw [(eq_appendText_of_step? h).2]
  exact isEmpty_appendText (s.text_ne _)

theorem Tight.exists_step? (h : p.Tight) (hs : s.IsBalanced) : ∃ child, p.step? s = some child := by
  cases s with
  | entry key => exact Option.isSome_iff_exists.1 ((isSome_atKey?_iff p key).2 ⟨hs, h⟩)
  | item i => exact ⟨_, rfl⟩

theorem toList_render_step? (h : p.step? s = some child) : child.render.toList =
    if p.isEmpty then (s.segment p.separator).canonical p.separator true
    else p.render.toList ++ (s.segment p.separator).canonical p.separator false := by
  obtain ⟨hs, rfl⟩ := eq_appendText_of_step? h
  obtain ⟨hwritten, htext⟩ := Step.isWritten_segment p.separator hs
  have hne := s.text_ne p.separator
  cases he : p.isEmpty with
  | true =>
    rw [appendText_of_isEmpty he hne, if_pos rfl, ← htext]
    rfl
  | false =>
    have hq : (parseWith p.separator (s.text p.separator)).isEmpty = false := by
      rw [isEmpty_parseWith]
      simpa using hne
    have hstarts : (parseWith p.separator (s.text p.separator)).startsIndexed =
        ((s.text p.separator).toList.head? == some '[') := rfl
    rw [if_neg (by decide), appendText, toList_render_append he hq, List.append_assoc, joint,
      hstarts, htext]
    congr 1
    show _ ++ (s.text p.separator).toList = _
    rw [htext]
    rcases hwritten.canonical_false with ⟨-, hsame, cs, hcs⟩ | ⟨hplain, hbehind⟩
    · rw [hsame, hcs]
      rfl
    · have hhead : ((s.segment p.separator).canonical p.separator true).head? ≠ some '[' := by
        rcases hwritten.cases with ⟨hi, -⟩ | ⟨-, -, hall, -⟩
        · rw [hplain] at hi
          cases hi
        · rw [Segment.canonical_true_of_plain hplain]
          intro hbracket
          exact (hall _ (List.mem_of_head? hbracket)).1 rfl
      rw [hbehind, if_neg (by simpa using hhead)]
      rfl

/-! ## Many steps -/

theorem walk?_cons (p : Path) (s : Step) (steps : List Step) :
    p.walk? (s :: steps) = (p.step? s).bind (·.walk? steps) := List.foldlM_cons

/-- What segments look like behind a path. -/
def canonicalBehind (p : Path) (segments : List Segment) : List Char :=
  if p.isEmpty then Segment.canonicalAll p.separator segments
  else segments.flatMap (Segment.canonical p.separator false)

/-- **Steps write their segments behind the path**, as a path of these segments is rendered. -/
theorem Built.toList_render_walk? (hp : p.Built) {steps : List Step}
    (h : p.walk? steps = some child) : child.render.toList =
      p.render.toList ++ p.canonicalBehind (steps.map (Step.segment p.separator)) := by
  induction steps generalizing p with
  | nil =>
    obtain rfl : p = child := Option.some.inj h
    unfold canonicalBehind
    split <;> simp [Segment.canonicalAll]
  | cons s steps ih =>
    rw [walk?_cons] at h
    obtain ⟨next, hnext, hrest⟩ := Option.bind_eq_some_iff.1 h
    rw [ih (hp.step? hnext) hrest, canonicalBehind, isEmpty_of_step? hnext, if_neg (by decide),
      separator_of_step? hnext, toList_render_step? hnext, canonicalBehind, List.map_cons]
    cases he : p.isEmpty with
    | true =>
      rw [if_pos rfl, if_pos rfl, hp.render_of_isEmpty he]
      rfl
    | false =>
      rw [if_neg (by decide), if_neg (by decide), List.flatMap_cons, List.append_assoc]

theorem isWritten_of_walk? {steps : List Step} (h : p.walk? steps = some child) :
    ∀ s ∈ steps.map (Step.segment p.separator), s.IsWritten p.separator := by
  induction steps generalizing p with
  | nil => simp
  | cons s steps ih =>
    rw [walk?_cons] at h
    obtain ⟨next, hnext, hrest⟩ := Option.bind_eq_some_iff.1 h
    rw [List.map_cons, List.forall_mem_cons]
    refine ⟨(Step.isWritten_segment _ (eq_appendText_of_step? hnext).1).1, ?_⟩
    rw [← separator_of_step? hnext]
    exact ih hrest

/-- **The text of a path below another tells the segments of the steps.** -/
theorem Built.segments_of_render_eq (hp : p.Built) (hopen : p.separator ≠ '[')
    (hclose : p.separator ≠ ']') {steps steps' : List Step} {child' : Path}
    (h : p.walk? steps = some child) (h' : p.walk? steps' = some child')
    (hrender : child.render = child'.render) :
    steps.map (Step.segment p.separator) = steps'.map (Step.segment p.separator) := by
  have hwritten := isWritten_of_walk? h
  have hwritten' := isWritten_of_walk? h'
  have hbehind := congrArg String.toList hrender
  rw [hp.toList_render_walk? h, hp.toList_render_walk? h'] at hbehind
  have hforms := List.append_cancel_left hbehind
  unfold canonicalBehind at hforms
  cases he : p.isEmpty with
  | true =>
    rw [he, if_pos rfl, if_pos rfl] at hforms
    exact Segment.canonicalAll_injective hopen hclose hwritten hwritten' hforms
  | false =>
    rw [he, if_neg (by decide), if_neg (by decide)] at hforms
    exact Segment.canonicals_injective hopen hclose hwritten hwritten' hforms

theorem Tight.exists_walk? (h : p.Tight) {steps : List Step} (hs : ∀ s ∈ steps, s.IsBalanced) :
    ∃ child, p.walk? steps = some child := by
  induction steps generalizing p with
  | nil => exact ⟨p, rfl⟩
  | cons s steps ih =>
    obtain ⟨hfirst, hrest⟩ := List.forall_mem_cons.1 hs
    obtain ⟨next, hnext⟩ := h.exists_step? hfirst
    have htight : next.Tight := by
      intro he
      rw [isEmpty_of_step? hnext] at he
      cases he
    obtain ⟨child, hchild⟩ := ih htight hrest
    refine ⟨child, ?_⟩
    rw [walk?_cons, hnext, Option.bind_some, hchild]

end Path

/-! ## The nodes that steps lead to -/

namespace Node

variable {n m : Node} {s : Step}

theorem walk?_cons (n : Node) (s : Step) (steps : List Step) :
    n.walk? (s :: steps) = (n.step? s).bind (·.walk? steps) := List.foldlM_cons

theorem step?_cases (h : n.step? s = some m) :
    (∃ entries key, n = map entries ∧ s = .entry key ∧ Entries.get? key entries = some m) ∨
      ∃ items i, n = list items ∧ s = .item i ∧ items[i]? = some m := by
  cases s with
  | entry key =>
    obtain ⟨entries, hentries, hget⟩ := Option.bind_eq_some_iff.1 h
    cases n with
    | map found =>
      obtain rfl := Option.some.inj hentries
      exact .inl ⟨_, key, rfl, rfl, hget⟩
    | _ => cases hentries
  | item i =>
    obtain ⟨items, hitems, hget⟩ := Option.bind_eq_some_iff.1 h
    cases n with
    | list found =>
      obtain rfl := Option.some.inj hitems
      exact .inr ⟨_, i, rfl, rfl, hget⟩
    | _ => cases hitems

theorem indexable_of_step? (hn : n.indexable = true) (h : n.step? s = some m) :
    m.indexable = true := by
  rcases step?_cases h with ⟨entries, key, rfl, rfl, hget⟩ | ⟨items, i, rfl, rfl, hget⟩
  · rw [indexable] at hn
    exact indexable_of_mem_entries hn (mem_of_entries_get? hget)
  · rw [indexable, Bool.and_eq_true] at hn
    exact indexable_of_mem_items hn.2 (List.mem_of_getElem? hget)

theorem get?_of_step? {root : Node} {p child : Path} (hp : p.Built) (hget : root.get? p = some n)
    (hn : n.indexable = true) (hchild : p.step? s = some child) (h : n.step? s = some m) :
    root.get? child = some m := by
  rcases step?_cases h with ⟨entries, key, rfl, rfl, hentry⟩ | ⟨items, i, rfl, rfl, hitem⟩
  · rw [Path.get?_of_atKey? hget hchild, hentry]
  · rw [indexable, Bool.and_eq_true] at hn
    have hlength : items.length ≤ 0x10000000000000000 := of_decide_eq_true hn.1
    obtain ⟨hi, -⟩ := List.getElem?_eq_some_iff.1 hitem
    have helement : p.element i = child := Option.some.inj hchild
    rw [← helement, hp.get?_element hget (by omega), hitem]

theorem get?_of_reaches {root : Node} {p child : Path} {steps : List Step} (hp : p.Built)
    (hget : root.get? p = some n) (hn : n.indexable = true) (h : p.Reaches n steps child m) :
    root.get? child = some m := by
  obtain ⟨hchild, hm⟩ := h
  induction steps generalizing p n with
  | nil =>
    obtain rfl : p = child := Option.some.inj hchild
    obtain rfl : n = m := Option.some.inj hm
    exact hget
  | cons s steps ih =>
    rw [Path.walk?_cons] at hchild
    rw [walk?_cons] at hm
    obtain ⟨next, hnext, hrest⟩ := Option.bind_eq_some_iff.1 hchild
    obtain ⟨k, hk, hdown⟩ := Option.bind_eq_some_iff.1 hm
    exact ih (hp.step? hnext) (get?_of_step? hp hget hn hnext hk) (indexable_of_step? hn hk) hrest
      hdown

theorem step_eq_of_segment {separator : Char} {s' : Step} {m' : Node} (h : n.step? s = some m)
    (h' : n.step? s' = some m') (hsegment : s.segment separator = s'.segment separator) :
    s = s' := by
  have htext := congrArg Segment.text hsegment
  rcases step?_cases h with ⟨entries, key, rfl, rfl, -⟩ | ⟨items, i, rfl, rfl, -⟩
  · rcases step?_cases h' with ⟨_, key', -, rfl, -⟩ | ⟨_, _, hlist, -⟩
    · rw [Step.text_segment_entry, Step.text_segment_entry] at htext
      rw [htext]
    · cases hlist
  · rcases step?_cases h' with ⟨_, _, hmap, -⟩ | ⟨_, j, -, rfl, -⟩
    · cases hmap
    · have hdigits : Nat.toDigits 10 i = Nat.toDigits 10 j := by
        rw [← Nat.toList_repr, ← Nat.toList_repr]
        exact congrArg String.toList htext
      rw [← Nat.ofDigitChars_ten_toDigits (n := i), hdigits, Nat.ofDigitChars_ten_toDigits]

theorem steps_eq_of_segments {separator : Char} {steps steps' : List Step} {m' : Node}
    (h : n.walk? steps = some m) (h' : n.walk? steps' = some m')
    (hsegments : steps.map (Step.segment separator) = steps'.map (Step.segment separator)) :
    steps = steps' := by
  induction steps generalizing n steps' with
  | nil =>
    rw [List.map_nil] at hsegments
    exact (List.map_eq_nil_iff.1 hsegments.symm).symm
  | cons s steps ih =>
    cases steps' with
    | nil => cases hsegments
    | cons s' steps' =>
      rw [List.map_cons, List.map_cons, List.cons.injEq] at hsegments
      rw [walk?_cons] at h h'
      obtain ⟨k, hk, hdown⟩ := Option.bind_eq_some_iff.1 h
      obtain ⟨k', hk', hdown'⟩ := Option.bind_eq_some_iff.1 h'
      obtain rfl := step_eq_of_segment hk hk' hsegments.1
      obtain rfl : k = k' := by
        rw [hk] at hk'
        exact Option.some.inj hk'
      rw [ih hdown hdown' hsegments.2]

end Node

namespace Path

variable {p : Path}

/-- **Positions below a path are told apart by their texts.**  Different steps lead to paths with
different texts, each to the node that its steps lead to; so while the texts of some positions are
in flight, exactly these are refused. -/
theorem positions_apart {root n : Node} (hp : p.Built) (hopen : p.separator ≠ '[')
    (hclose : p.separator ≠ ']') (hroot : root.indexable = true) (hn : root.get? p = some n) :
    (p ≠ parseWith p.separator "" → ∀ steps m, n.walk? steps = some m →
      (∀ s ∈ steps, s.IsBalanced) → ∃ child, p.Reaches n steps child m) ∧
    (∀ steps child m, p.Reaches n steps child m → root.get? child = some m) ∧
    (∀ steps steps' child child' m m', p.Reaches n steps child m → p.Reaches n steps' child' m' →
      steps ≠ steps' → child.render ≠ child'.render) ∧
    ∀ (session : Session) (held : List (List Step)),
      (∀ text, text ∈ session.inFlight ↔
        ∃ steps ∈ held, ∃ child m, p.Reaches n steps child m ∧ child.render = text) →
      ∀ steps child m, p.Reaches n steps child m → ∃ after,
        Bind.enter child.render session = some (decide (steps ∉ held), after) := by
  -- the text tells the segments, and below one node the segments tell the steps
  have hapart : ∀ steps steps' child child' m m', p.Reaches n steps child m →
      p.Reaches n steps' child' m' → child.render = child'.render → steps = steps' := by
    intro steps steps' child child' m m' hreaches hreaches' hrender
    exact Node.steps_eq_of_segments hreaches.2 hreaches'.2
      (hp.segments_of_render_eq hopen hclose hreaches.1 hreaches'.1 hrender)
  refine ⟨?_, ?_, ?_, ?_⟩
  · intro hne steps m hm hbalanced
    obtain ⟨child, hchild⟩ := (hp.tight_iff.2 hne).exists_walk? hbalanced
    exact ⟨child, hchild, hm⟩
  · intro steps child m hreaches
    exact Node.get?_of_reaches hp hn (Node.indexable_of_get? hroot hn) hreaches
  · intro steps steps' child child' m m' hreaches hreaches' hne hrender
    exact hne (hapart _ _ _ _ _ _ hreaches hreaches' hrender)
  · intro session held hheld steps child m hreaches
    have hmem : child.render ∈ session.inFlight ↔ steps ∈ held := by
      rw [hheld]
      constructor
      · rintro ⟨steps', hsteps', child', m', hreaches', hrender⟩
        rwa [hapart _ _ _ _ _ _ hreaches hreaches' hrender.symm]
      · intro hsteps
        exact ⟨steps, hsteps, child, m, hreaches, rfl⟩
    rw [Bind.enter_eq]
    by_cases hsteps : steps ∈ held
    · rw [if_pos (List.contains_iff_mem.2 (hmem.2 hsteps)), decide_eq_false (not_not_intro hsteps)]
      exact ⟨_, rfl⟩
    · rw [if_neg fun h => hsteps (hmem.1 (List.contains_iff_mem.1 h)), decide_eq_true hsteps]
      exact ⟨_, rfl⟩

end Path

namespace Sample

def shelf : Node :=
  .map [("", .list [.null, .int 3]), ("b", .map [("c", .int 2)]), ("b.c", .int 1)]

def board : Node := .map [("a", shelf)]

/-- A key that holds the separator, two keys without it, and an item below the empty key. -/
theorem board_positions : ((Path.parse "a").Built ∧ board.indexable = true ∧
      board.get? (Path.parse "a") = some shelf) ∧
    ∃ x y z, (Path.parse "a").Reaches shelf [.entry "b.c"] x (.int 1) ∧ x.render = "a[b.c]" ∧
      (Path.parse "a").Reaches shelf [.entry "b", .entry "c"] y (.int 2) ∧ y.render = "a.b.c" ∧
      (Path.parse "a").Reaches shelf [.entry "", .item 1] z (.int 3) ∧
      board.get? z = some (.int 3) ∧ x.render ≠ z.render ∧
      ∃ after, Bind.enter y.render ⟨[x.render], []⟩ = some (true, after) := by
  have hbuilt : (Path.parse "a").Built := .parse '.' "a"
  have hindexable : board.indexable = true := by decide
  have hshelf : board.get? (Path.parse "a") = some shelf := rfl
  obtain ⟨hpath, hnode, happart, henter⟩ :=
    Path.positions_apart hbuilt (by decide) (by decide) hindexable hshelf
  have hx : (Path.parse "a").Reaches shelf [.entry "b.c"] ((Path.parse "a").appendText "[b.c]")
      (.int 1) := ⟨by decide, rfl⟩
  have hy : (Path.parse "a").Reaches shelf [.entry "b", .entry "c"]
      (((Path.parse "a").appendText "b").appendText "c") (.int 2) := ⟨by decide, rfl⟩
  obtain ⟨z, hz⟩ := hpath (by decide) [.entry "", .item 1] (.int 3) rfl
    (by simp [Step.IsBalanced, balanced_of_forall_ne])
  refine ⟨⟨hbuilt, hindexable, hshelf⟩, _, _, z, hx, by decide, hy, by decide, hz,
    hnode _ _ _ hz, happart _ _ _ _ _ _ hx hz (by decide), ?_⟩
  refine henter _ [[.entry "b.c"]] (fun text => ?_) _ _ _ hy
  rw [List.mem_singleton]
  constructor
  · rintro rfl
    exact ⟨_, List.mem_singleton.2 rfl, _, _, hx, rfl⟩
  · rintro ⟨steps, hsteps, child, m, hreaches, rfl⟩
    rw [List.mem_singleton.1 hsteps] at hreaches
    rw [Option.some.inj (hreaches.1.symm.trans hx.1)]

end Sample

end ConfigBind
