import ConfigBind.Proofs.Path.Ranges

/-!
# Paths over a shared text stay in bounds

`Table.Holds` is how a table keeps a path: the ranges of the table spell segments that lie in its
text one behind the other (`Records`), and those in the window are the segments of the path.

Parsing makes such a table, moving the window keeps it (`Holds.slice`, `Holds.take`), and so does
joining, which writes both sides into a new text and records where the segments come to lie
(`Holds.write?`, `Holds.append?`).  So nothing that is done with a path cuts out of bounds or inside
a character, and every answer is that of the path which is kept.

* `Table.Built.holds`: every table that can be built keeps a path that can be built.
* `tables_in_bounds`: the ranges of a text are in bounds and in order, the last one alone may be
  corrupted, and all that is built from them can be cut, rendered and joined.
-/

namespace ConfigBind

namespace Path

/-! ## Ranges that spell segments -/

/-- The range cuts the text of the segment out of a text. -/
def Range.Spells (r : Range) (cs : List Char) (s : Segment) : Prop :=
  Text.cut? cs r.start r.stop = some s.text.toList ∧ r.kind = s.kind

namespace Range.Spells

variable {r : Range} {cs : List Char} {s : Segment}

theorem append (h : r.Spells cs s) (ds : List Char) : r.Spells (cs ++ ds) s := by
  obtain ⟨hcut, hkind⟩ := h
  obtain ⟨before, after, rfl, hstart, hstop⟩ := Text.cut?_eq_some_iff.1 hcut
  refine ⟨Text.cut?_eq_some_iff.2 ⟨before, after ++ ds, ?_, hstart, hstop⟩, hkind⟩
  simp only [List.append_assoc]

theorem shift (h : r.Spells cs s) (ds : List Char) :
    (r.shift (Text.bytes ds)).Spells (ds ++ cs) s := by
  obtain ⟨hcut, hkind⟩ := h
  obtain ⟨before, after, rfl, hstart, hstop⟩ := Text.cut?_eq_some_iff.1 hcut
  refine ⟨Text.cut?_eq_some_iff.2 ⟨ds ++ before, after, ?_, ?_, ?_⟩, hkind⟩
  · rw [List.append_assoc]
  · rw [Text.bytes_append, Range.shift, hstart, Nat.add_comm]
  · show r.stop + Text.bytes ds = _
    rw [Text.bytes_append, hstop]
    omega

theorem stop_le (h : r.Spells cs s) : r.stop ≤ Text.bytes cs := by
  obtain ⟨before, after, rfl, -, hstop⟩ := Text.cut?_eq_some_iff.1 h.1
  simp only [Text.bytes_append]
  omega

end Range.Spells

theorem exists_spells_of_mem {cs : List Char} {ranges : List Range} {segments : List Segment}
    (h : List.Forall₂ (fun r s => Range.Spells r cs s) ranges segments) {r : Range}
    (hr : r ∈ ranges) : ∃ s, r.Spells cs s := by
  induction h with
  | nil => cases hr
  | cons hs _ ih =>
    rcases List.mem_cons.1 hr with rfl | hr
    · exact ⟨_, hs⟩
    · exact ih hr

/-- Behind `before`, the segments were written as `rendered`, and the ranges are where they came to
lie. -/
structure Records (before rendered : List Char) (ranges : List Range) (segments : List Segment) :
    Prop where
  spells : List.Forall₂ (fun r s => r.Spells (before ++ rendered) s) ranges segments
  ordered : ranges.Pairwise fun r r' => r.stop ≤ r'.start
  inside : ∀ r ∈ ranges, Text.bytes before ≤ r.start ∧ r.stop ≤ Text.bytes (before ++ rendered)

namespace Records

variable {before rendered : List Char} {ranges : List Range} {segments : List Segment}

theorem nil (before rendered : List Char) : Records before rendered [] [] where
  spells := .nil
  ordered := .nil
  inside := by simp

theorem singleton (before front back : List Char) (s : Segment) :
    Records before (front ++ s.text.toList ++ back)
      [⟨Text.bytes (before ++ front), Text.bytes (before ++ front) + Text.bytes s.text.toList,
        s.kind⟩] [s] where
  spells := by
    refine .cons ⟨Text.cut?_eq_some_iff.2 ⟨before ++ front, back, ?_, rfl, rfl⟩, rfl⟩ .nil
    simp only [List.append_assoc]
  ordered := List.pairwise_singleton _ _
  inside := by
    intro r hr
    rw [List.mem_singleton.1 hr]
    simp only [Text.bytes_append]
    omega

theorem append {rendered' : List Char} {ranges' : List Range} {segments' : List Segment}
    (h : Records before rendered ranges segments)
    (h' : Records (before ++ rendered) rendered' ranges' segments') :
    Records before (rendered ++ rendered') (ranges ++ ranges') (segments ++ segments') where
  spells := by
    have hleft := h.spells.imp fun r s hs => hs.append rendered'
    have hright := h'.spells
    rw [List.append_assoc] at hleft hright
    exact List.rel_append hleft hright
  ordered := by
    refine List.pairwise_append.2 ⟨h.ordered, h'.ordered, fun r hr r' hr' => ?_⟩
    have hstop := (h.inside r hr).2
    have hstart := (h'.inside r' hr').1
    omega
  inside := by
    intro r hr
    rw [← List.append_assoc]
    rcases List.mem_append.1 hr with hr | hr
    · obtain ⟨hstart, hstop⟩ := h.inside r hr
      rw [Text.bytes_append (before ++ rendered)]
      omega
    · obtain ⟨hstart, hstop⟩ := h'.inside r hr
      rw [Text.bytes_append] at hstart
      omega

theorem shift (h : Records [] rendered ranges segments) (before : List Char) :
    Records before rendered (ranges.map (Range.shift (Text.bytes before))) segments where
  spells := by
    rw [List.forall₂_map_left_iff]
    exact h.spells.imp fun r s hs => hs.shift before
  ordered := by
    refine List.pairwise_map.2 (h.ordered.imp fun hle => ?_)
    exact Nat.add_le_add_right hle _
  inside := by
    intro r' hr'
    obtain ⟨r, hr, rfl⟩ := List.mem_map.1 hr'
    have hstop := (h.inside r hr).2
    rw [List.nil_append] at hstop
    rw [Text.bytes_append]
    exact ⟨Nat.le_add_left _ _, by show r.stop + _ ≤ _; omega⟩

theorem inBounds {text : String} (h : Records [] text.toList ranges segments) {r : Range}
    (hr : r ∈ ranges) : r.InBounds text := by
  obtain ⟨s, hs⟩ := exists_spells_of_mem h.spells hr
  rw [← Range.isSome_cut?_iff]
  rw [List.nil_append] at hs
  rw [hs.1]
  rfl

end Records

/-- **Reading a text records its segments.** -/
theorem records_parse (separator : Char) (text : String) :
    Records [] text.toList (Table.parse separator text).ranges
      (parseWith separator text).segments := by
  have hranges : (Table.parse separator text).ranges =
      (scan separator text.toList).map (Span.range text.toList) := Reader.run_eq_scan _ _
  have hspells : List.Forall₂ (fun r s => Range.Spells r text.toList s)
      ((scan separator text.toList).map (Span.range text.toList))
      ((scan separator text.toList).map Span.segment) := by
    rw [List.forall₂_map_left_iff, List.forall₂_map_right_iff, List.forall₂_same]
    intro span hm
    refine ⟨?_, rfl⟩
    rw [(cut_of_mem_scan hm).range]
    exact congrArg some String.toList_ofList.symm
  rw [hranges]
  refine ⟨hspells, ?_, ?_⟩
  · rw [List.pairwise_map]
    exact (ordered_scan separator text.toList).imp_of_mem fun hm _ hlt =>
      hlt.range (cut_of_mem_scan hm)
  · intro r hr
    obtain ⟨s, hs⟩ := exists_spells_of_mem hspells hr
    exact ⟨Nat.zero_le _, hs.stop_le⟩

namespace Table

/-! ## The path that a table keeps -/

/-- The segments in the window are those of the path, and so is the text if the window is all of the
table. -/
structure Holds (t : Table) (p : Path) : Prop where
  recorded : ∃ segments, Records [] t.text.toList t.ranges segments ∧
    p.segments = (segments.take t.stop).drop t.start
  start_le : t.start ≤ t.stop
  stop_le : t.stop ≤ t.ranges.length
  source : p.source = if t.isWhole then some t.text else none
  separator : p.separator = t.separator

variable {t u : Table} {p q : Path}

theorem holds_whole {text : String} {ranges : List Range} {segments : List Segment}
    (separator : Char) (h : Records [] text.toList ranges segments) :
    (whole text ranges separator).Holds ⟨segments, some text, separator⟩ where
  recorded := by
    refine ⟨segments, h, ?_⟩
    show segments = (segments.take ranges.length).drop 0
    rw [h.spells.length_eq, List.take_length, List.drop_zero]
  start_le := Nat.zero_le _
  stop_le := Nat.le_refl _
  source := by simp [isWhole, whole]
  separator := rfl

theorem holds_parse (separator : Char) (text : String) :
    (parse separator text).Holds (parseWith separator text) :=
  holds_whole separator (records_parse separator text)

theorem holds_empty : empty.Holds Path.empty := holds_whole '.' (.nil [] [])

namespace Holds

theorem spells (h : t.Holds p) :
    List.Forall₂ (fun r s => Range.Spells r t.text.toList s)
      ((t.ranges.take t.stop).drop t.start) p.segments := by
  obtain ⟨segments, hrecords, hsegments⟩ := h.recorded
  rw [hsegments]
  exact List.forall₂_drop _ (List.forall₂_take _ hrecords.spells)

theorem window?_eq (h : t.Holds p) :
    t.window? = some ((t.ranges.take t.stop).drop t.start) :=
  if_pos ⟨h.start_le, h.stop_le⟩

theorem size_eq (h : t.Holds p) : t.size = p.size := by
  have hlength := h.spells.length_eq
  have hstart := h.start_le
  have hstop := h.stop_le
  rw [List.length_drop, List.length_take] at hlength
  show t.stop - t.start = p.segments.length
  omega

theorem isEmpty_eq (h : t.Holds p) : t.isEmpty = p.isEmpty := by
  have hsize : (t.size == 0) = p.segments.isEmpty := by
    rw [h.size_eq]
    show (p.segments.length == 0) = _
    cases p.segments <;> rfl
  have hsource : (t.isWhole && t.text == "") = (p.source == some "") := by
    rw [h.source]
    cases t.isWhole <;> rfl
  rw [isEmpty, Path.isEmpty, hsize, hsource]

theorem startsIndexed?_eq (h : t.Holds p) : t.startsIndexed? = some p.startsIndexed := by
  have hspells := h.spells
  unfold startsIndexed? startsIndexed
  rw [h.source, h.window?_eq]
  cases t.isWhole with
  | true => rfl
  | false =>
    show some _ = some _
    congr 1
    revert hspells
    generalize (t.ranges.take t.stop).drop t.start = ranges
    generalize p.segments = segments
    intro hspells
    cases hspells with
    | nil => rfl
    | cons hs _ => simp [hs.2]

theorem segments?_eq (h : t.Holds p) : t.segments? = some p.segments := by
  have hcut {ranges : List Range} {segments : List Segment}
      (hs : List.Forall₂ (fun r s => Range.Spells r t.text.toList s) ranges segments) :
      ranges.mapM t.cut? = some segments := by
    induction hs with
    | nil => rfl
    | @cons r s _ _ hs _ ih =>
      have hsegment : t.cut? r = some s := by
        rw [cut?, hs.1, hs.2]
        simp
      simp [hsegment, ih]
  rw [segments?, h.window?_eq]
  exact hcut h.spells

theorem toPath?_eq (h : t.Holds p) : t.toPath? = some p := by
  rw [toPath?, h.segments?_eq, ← h.source, ← h.separator]
  rfl

/-! ## Moving the window -/

/-- **The window of a part keeps that part of the path.** -/
theorem window (h : t.Holds p) {start stop : Nat} (hle : start ≤ stop) (hstop : stop ≤ p.size) :
    Holds { t with start := t.start + start, stop := t.start + stop } (p.window start stop) := by
  obtain ⟨segments, hrecords, hsegments⟩ := h.recorded
  have hsize : t.stop - t.start = p.size := h.size_eq
  have hstart_le := h.start_le
  have hstop_le := h.stop_le
  unfold Path.window
  split
  · rename_i hall
    obtain ⟨rfl, rfl⟩ := hall
    have hsame : t.start + p.size = t.stop := by omega
    rwa [hsame]
  · rename_i hpart
    refine ⟨⟨segments, hrecords, ?_⟩, Nat.add_le_add_left hle _, ?_, ?_, h.separator⟩
    · show (p.segments.take stop).drop start =
        (segments.take (t.start + stop)).drop (t.start + start)
      rw [hsegments, drop_take_drop_take _ (by omega)]
    · show t.start + stop ≤ t.ranges.length
      omega
    · have hnot : ¬ (t.start + start = 0 ∧ t.start + stop = t.ranges.length) := by
        rintro ⟨h0, hn⟩
        exact hpart ⟨by omega, by omega⟩
      have hwhole : isWhole { t with start := t.start + start, stop := t.start + stop } = false := by
        rw [← Bool.not_eq_true]
        simpa [isWhole] using hnot
      rw [hwhole]
      rfl

theorem slice (h : t.Holds p) (start stop : Nat) :
    (∃ e, t.slice start stop = .error e ∧ p.slice start stop = .error e) ∨
      ∃ u q, t.slice start stop = .ok u ∧ p.slice start stop = .ok q ∧ u.Holds q := by
  unfold Table.slice Path.slice
  rw [h.size_eq]
  split
  · exact .inl ⟨_, rfl, rfl⟩
  · rename_i hle
    split
    · exact .inl ⟨_, rfl, rfl⟩
    · rename_i hstop
      exact .inr ⟨_, _, rfl, rfl, h.window (by omega) (by omega)⟩

theorem take (h : t.Holds p) (limit : Nat) : (t.take limit).Holds (p.take limit) := by
  have hwindow := h.window (Nat.zero_le (min limit p.size)) (Nat.min_le_right _ _)
  unfold Table.take Path.take
  rwa [h.size_eq]

/-! ## Writing a path behind a text -/

theorem writeSegment? (h : t.Holds p) {r : Range} {s : Segment} (hs : r.Spells t.text.toList s)
    (starts : Bool) (before : List Char) (ranges : List Range) :
    ∃ written, t.writeSegment? starts (before, ranges) r =
        some (before ++ s.canonical p.separator starts, ranges ++ written) ∧
      Records before (s.canonical p.separator starts) written [s] := by
  have hcut : t.cut? r = some s := by
    rw [cut?, hs.1, hs.2]
    simp
  have hcanonical : s.canonical p.separator starts =
      (if s.kind.indexed then ['['] else if starts then [] else [t.separator]) ++ s.text.toList ++
        (if s.kind.indexed && !s.kind.corrupted then [']'] else []) := by
    rw [Segment.canonical, h.separator]
    cases s.kind.indexed <;> cases s.kind.corrupted <;> simp
  rw [hcanonical]
  refine ⟨_, ?_, Records.singleton before _ _ s⟩
  simp [Table.writeSegment?, hcut]

theorem writeSegments? (h : t.Holds p) {source : List Range} {segments : List Segment}
    (hs : List.Forall₂ (fun r s => Range.Spells r t.text.toList s) source segments)
    (before : List Char) (ranges : List Range) :
    ∃ written, source.foldlM (t.writeSegment? false) (before, ranges) =
        some (before ++ segments.flatMap (Segment.canonical p.separator false),
          ranges ++ written) ∧
      Records before (segments.flatMap (Segment.canonical p.separator false)) written segments := by
  induction hs generalizing before ranges with
  | nil => exact ⟨[], by simp, .nil _ _⟩
  | @cons r s source segments hs _ ih =>
    obtain ⟨first, hfirst, hrecords⟩ := h.writeSegment? hs false before ranges
    obtain ⟨rest, hrest, hrecords'⟩ :=
      ih (before ++ s.canonical p.separator false) (ranges ++ first)
    refine ⟨first ++ rest, ?_, ?_⟩
    · rw [List.foldlM_cons, hfirst]
      show source.foldlM _ _ = _
      rw [hrest, List.flatMap_cons, List.append_assoc, List.append_assoc]
    · rw [List.flatMap_cons]
      exact hrecords.append hrecords'

/-- **Writing a path gives what it renders as, and records its segments there.** -/
theorem write? (h : t.Holds p) (before : List Char) (ranges : List Range) :
    ∃ written, t.write? (before, ranges) =
        some (before ++ p.render.toList, ranges ++ written) ∧
      Records before p.render.toList written p.segments := by
  have hsource := h.source
  unfold Table.write? render
  cases hwhole : t.isWhole with
  | true =>
    obtain ⟨segments, hrecords, hsegments⟩ := h.recorded
    obtain ⟨hstart, hstop⟩ : t.start = 0 ∧ t.stop = t.ranges.length := by
      simpa [isWhole] using hwhole
    rw [hstart, hstop, hrecords.spells.length_eq, List.take_length, List.drop_zero] at hsegments
    rw [hwhole, if_pos rfl] at hsource
    rw [if_pos rfl, hsource, hsegments]
    exact ⟨_, rfl, hrecords.shift before⟩
  | false =>
    rw [hwhole, if_neg (by decide)] at hsource
    rw [if_neg (by decide), hsource, h.window?_eq]
    have hspells := h.spells
    revert hspells
    generalize (t.ranges.take t.stop).drop t.start = source
    generalize p.segments = segments
    intro hspells
    cases hspells with
    | nil => exact ⟨[], by simp [Segment.canonicalAll], .nil _ _⟩
    | @cons r s source segments hs hrest =>
      obtain ⟨first, hfirst, hrecords⟩ := h.writeSegment? hs true before ranges
      obtain ⟨rest, hrest, hrecords'⟩ := h.writeSegments? hrest
        (before ++ s.canonical p.separator true) (ranges ++ first)
      refine ⟨first ++ rest, ?_, ?_⟩
      · show (t.writeSegment? true (before, ranges) r).bind
          (source.foldlM (t.writeSegment? false)) = some (before ++ (String.ofList _).toList, _)
        rw [hfirst, Option.bind_some, hrest, Segment.canonicalAll, String.toList_ofList,
          List.append_assoc, List.append_assoc]
      · show Records before (String.ofList _).toList _ _
        rw [Segment.canonicalAll, String.toList_ofList]
        exact hrecords.append hrecords'

theorem render?_eq (h : t.Holds p) : t.render? = some p.render := by
  obtain ⟨written, hwrite, -⟩ := h.write? [] []
  rw [render?, hwrite]
  simp

/-- **Joining goes through, and keeps the join of the paths.** -/
theorem append? (h : t.Holds p) (h' : u.Holds q) :
    ∃ v, t.append? u = some v ∧ v.Holds (p ++ q) := by
  unfold Table.append?
  rw [h.isEmpty_eq, h'.isEmpty_eq]
  cases hq : q.isEmpty with
  | true => exact ⟨t, rfl, by rwa [append_of_isEmpty_right p hq]⟩
  | false =>
    cases hp : p.isEmpty with
    | true => exact ⟨u, rfl, by rwa [append_of_isEmpty_left hq hp]⟩
    | false =>
      obtain ⟨left, hleft, hrecords⟩ := h.write? [] []
      obtain ⟨right, hright, hrecords'⟩ := h'.write? (p.render.toList ++ p.joint q) left
      have hall : Records [] (p ++ q).render.toList (left ++ right)
          (p.segments ++ q.segments) := by
        -- the joint lies between the sides and records nothing
        have hbehind : Records ([] ++ p.render.toList ++ p.joint q) q.render.toList right
            q.segments := hrecords'
        have hjoint := (Records.nil ([] ++ p.render.toList) (p.joint q)).append hbehind
        rw [toList_render_append hp hq, List.append_assoc]
        simpa using hrecords.append hjoint
      have htext : String.ofList (p.render.toList ++ p.joint q ++ q.render.toList) =
          (p ++ q).render := by
        rw [← toList_render_append hp hq, String.ofList_toList]
      refine ⟨whole (p ++ q).render (left ++ right) t.separator, ?_, ?_⟩
      · simp only [Bool.false_eq_true, if_false, hleft, h'.startsIndexed?_eq]
        show (u.write? (p.render.toList ++ (if q.startsIndexed = true then [] else [t.separator]),
          left)).bind _ = _
        rw [← h.separator, ← joint, hright, Option.bind_some, htext]
        rfl
      · have hjoin : p ++ q = ⟨p.segments ++ q.segments, some (p ++ q).render, t.separator⟩ := by
          rw [append_of_not_isEmpty hq hp, h.separator]
          rfl
        rw [hjoin]
        exact holds_whole t.separator hall

end Holds

/-! ## The tables that can be built -/

inductive Built : Table → Prop
  | empty : Built empty
  | parse (separator : Char) (text : String) : Built (parse separator text)
  | slice {t u : Table} {start stop : Nat} (ht : Built t) (h : t.slice start stop = .ok u) : Built u
  | take {t : Table} (ht : Built t) (limit : Nat) : Built (t.take limit)
  | append {t u v : Table} (ht : Built t) (hu : Built u) (h : t.append? u = some v) : Built v

/-- The ranges lie in the text one behind the other, and the window lies in the table. -/
structure Sound (t : Table) : Prop where
  inBounds : ∀ r ∈ t.ranges, r.InBounds t.text
  ordered : t.ranges.Pairwise fun r r' => r.stop ≤ r'.start
  start_le : t.start ≤ t.stop
  stop_le : t.stop ≤ t.ranges.length

theorem Holds.sound (h : t.Holds p) : t.Sound where
  inBounds := by
    obtain ⟨segments, hrecords, -⟩ := h.recorded
    exact fun r hr => hrecords.inBounds hr
  ordered := by
    obtain ⟨segments, hrecords, -⟩ := h.recorded
    exact hrecords.ordered
  start_le := h.start_le
  stop_le := h.stop_le

/-- **Every table that can be built keeps a path that can be built.** -/
theorem Built.holds (h : t.Built) : ∃ p : Path, p.Built ∧ t.Holds p := by
  induction h with
  | empty => exact ⟨_, .empty, holds_empty⟩
  | parse separator text => exact ⟨_, .parse separator text, holds_parse separator text⟩
  | @slice t u start stop _ hslice ih =>
    obtain ⟨p, hbuilt, hp⟩ := ih
    rcases hp.slice start stop with ⟨e, herror, -⟩ | ⟨u', q, hu, hq, hholds⟩
    · rw [herror] at hslice
      cases hslice
    · rw [hu] at hslice
      obtain rfl := Except.ok.inj hslice
      exact ⟨q, hbuilt.slice hq, hholds⟩
  | take _ limit ih =>
    obtain ⟨p, hbuilt, hp⟩ := ih
    exact ⟨_, hbuilt.take limit, hp.take limit⟩
  | append _ _ happend iht ihu =>
    obtain ⟨p, hbuilt, hp⟩ := iht
    obtain ⟨q, hbuilt', hq⟩ := ihu
    obtain ⟨v', hv, hholds⟩ := hp.append? hq
    rw [hv] at happend
    rw [← Option.some.inj happend]
    exact ⟨_, hbuilt.append hbuilt', hholds⟩

end Table

/-- **The ranges of a text are in bounds and in order.**  There is one at least, and the last one
alone may be corrupted: it is if the brackets of the text do not match.  Whatever is built from such
texts stays in bounds, so that it can be cut, rendered and joined, as the path that it keeps. -/
theorem tables_in_bounds (separator : Char) (text : String) :
    ((∃ front last, (Table.parse separator text).ranges = front ++ [last] ∧
        (∀ r ∈ front, r.kind.corrupted = false) ∧
        (last.kind.corrupted = true ↔ ¬ Balanced text.toList)) ∧
      (∀ r ∈ (Table.parse separator text).ranges, r.InBounds text) ∧
      (Table.parse separator text).ranges.Pairwise fun r r' => r.stop ≤ r'.start) ∧
    ∀ t : Table, t.Built → t.Sound ∧ ∃ p : Path, p.Built ∧
      (t.size = p.size ∧ t.isEmpty = p.isEmpty) ∧
      (t.segments? = some p.segments ∧ t.toPath? = some p) ∧
      (t.startsIndexed? = some p.startsIndexed ∧ t.render? = some p.render) ∧
      (∀ start stop, (t.slice start stop).map Table.toPath? = (p.slice start stop).map some) ∧
      ∀ u : Table, u.Built → ∃ v q, u.toPath? = some q ∧ t.append? u = some v ∧
        v.toPath? = some (p ++ q) := by
  have hparse := (Table.holds_parse separator text).sound
  refine ⟨⟨?_, hparse.inBounds, hparse.ordered⟩, fun t ht => ?_⟩
  · obtain ⟨front, last, hscan, hfront, hlast⟩ := corrupted_scan separator text.toList
    refine ⟨front.map (Span.range text.toList), last.range text.toList, ?_, ?_, hlast⟩
    · show Reader.initial.run separator 0 text.toList = _
      rw [Reader.run_eq_scan, hscan, List.map_append, List.map_singleton]
    · intro r hr
      obtain ⟨span, hspan, rfl⟩ := List.mem_map.1 hr
      exact hfront span hspan
  · obtain ⟨p, hbuilt, hp⟩ := ht.holds
    refine ⟨hp.sound, p, hbuilt, ⟨hp.size_eq, hp.isEmpty_eq⟩, ⟨hp.segments?_eq, hp.toPath?_eq⟩,
      ⟨hp.startsIndexed?_eq, hp.render?_eq⟩, fun start stop => ?_, fun u hu => ?_⟩
    · rcases hp.slice start stop with ⟨e, hu, hq⟩ | ⟨u, q, hu, hq, hholds⟩
      · rw [hu, hq]
        rfl
      · rw [hu, hq]
        exact congrArg Except.ok hholds.toPath?_eq
    · obtain ⟨q, -, hq⟩ := hu.holds
      obtain ⟨v, hv, hholds⟩ := hp.append? hq
      exact ⟨v, q, hq.toPath?_eq, hv, hholds.toPath?_eq⟩

end Path

namespace Sample

def torn : Path.Table where
  text := "é]a[→ü"
  ranges := [⟨0, 5, ⟨true, false, false, false, false⟩⟩, ⟨8, 10, ⟨false, false, false, false, true⟩⟩]
  start := 1
  stop := 2
  separator := '→'

/-- The segment is corrupted, and it can be cut and joined. -/
theorem torn_in_bounds : (Path.Table.parse '→' "é]a[→ü").slice 1 2 = .ok torn ∧ torn.Built ∧
    torn.Sound ∧ torn.segments? = some [⟨"ü", ⟨false, false, false, false, true⟩⟩] ∧
    ∃ v, torn.append? torn = some v ∧ v.Sound ∧ v.render? = some "ü→ü" := by
  have hslice : (Path.Table.parse '→' "é]a[→ü").slice 1 2 = .ok torn := by decide
  have hbuilt : torn.Built := .slice (.parse '→' "é]a[→ü") hslice
  obtain ⟨-, hbounds⟩ := Path.tables_in_bounds '→' "é]a[→ü"
  obtain ⟨hsound, p, -, -, -, -, -, hjoin⟩ := hbounds torn hbuilt
  obtain ⟨v, q, -, hv, -⟩ := hjoin torn hbuilt
  have hrender : (torn.append? torn).bind Path.Table.render? = some "ü→ü" := by decide
  rw [hv] at hrender
  exact ⟨hslice, hbuilt, hsound, by decide, v, hv, (hbounds v (hbuilt.append hbuilt hv)).1, hrender⟩

end Sample

end ConfigBind
