import ConfigBind.Proofs.Path.Emptiness

/-!
# Cutting and joining paths

A part of a path is a window of its segments, and a window of a window is again one of the path,
also where it happens to be all of it (`window_window`).  Neighbouring windows join to the window of
both (`segments_append_windows`), since a window is tight if its path renders as something.

Joining is associative wherever the path in the middle says by its segments what it shows in its
text, that is, unless it starts bare (`append_assoc`).  The path without segments is neutral.

* `cut_and_join`: the laws of cutting and joining.
-/

namespace ConfigBind

namespace Path

variable {separator : Char} {p q : Path}

/-! ## Windows -/

theorem segments_window (p : Path) (start stop : Nat) :
    (p.window start stop).segments = (p.segments.take stop).drop start := by
  unfold window
  split
  · rename_i hall
    rw [hall.1, hall.2, size, List.take_length, List.drop_zero]
  · rfl

theorem size_window {start stop : Nat} (hstop : stop ≤ p.size) :
    (p.window start stop).size = stop - start := by
  rw [size] at hstop ⊢
  rw [segments_window, List.length_drop, List.length_take]
  omega

theorem segments_neighbouring_windows {i j k : Nat} (hij : i ≤ j) (hjk : j ≤ k) (hk : k ≤ p.size) :
    (p.window i j).segments ++ (p.window j k).segments = (p.window i k).segments := by
  have htake : p.segments.take j = (p.segments.take k).take j := by
    rw [List.take_take, Nat.min_eq_left hjk]
  have hlength : i ≤ ((p.segments.take k).take j).length := by
    rw [size] at hk
    rw [List.length_take, List.length_take]
    omega
  rw [segments_window, segments_window, segments_window, htake,
    ← List.drop_append_of_le_length hlength, List.take_append_drop]

/-- **A window of a window is a window of the path.**  It keeps the text of the path if it is all
of it, and so both windows are. -/
theorem window_window {start stop start' stop' : Nat} (hstop : stop ≤ p.size)
    (hin : start + stop' ≤ stop) :
    (p.window start stop).window start' stop' = p.window (start + start') (start + stop') := by
  by_cases hall : start = 0 ∧ stop = p.size
  · obtain ⟨rfl, rfl⟩ := hall
    have hsame : p.window 0 p.size = p := if_pos ⟨rfl, rfl⟩
    rw [hsame, Nat.zero_add, Nat.zero_add]
  · have hfirst : p.window start stop =
        { p with segments := (p.segments.take stop).drop start, source := none } := if_neg hall
    by_cases hall' : start' = 0 ∧ stop' = (p.window start stop).size
    · have hsame : (p.window start stop).window start' stop' = p.window start stop := if_pos hall'
      obtain ⟨hzero, hsize⟩ := hall'
      rw [size_window hstop] at hsize
      have hend : start + stop' = stop := by omega
      rw [hsame, hzero, hend, Nat.add_zero]
    · have hpart : ¬ (start + start' = 0 ∧ start + stop' = p.size) := by
        rintro ⟨hzero, hsize⟩
        exact hall ⟨by omega, by omega⟩
      have hcut : p.window (start + start') (start + stop') =
          { p with segments := (p.segments.take (start + stop')).drop (start + start'),
                   source := none } := if_neg hpart
      have hsecond : (p.window start stop).window start' stop' =
          { p.window start stop with
            segments := ((p.window start stop).segments.take stop').drop start'
            source := none } := if_neg hall'
      rw [hsecond, hcut, segments_window, drop_take_drop_take p.segments hin, hfirst]

/-! ## Joining windows -/

theorem tight_window (h : p.render ≠ "") (start stop : Nat) : (p.window start stop).Tight := by
  intro he
  unfold window at he ⊢
  split
  · rename_i hall
    rw [if_pos hall, isEmpty, Bool.or_eq_true, List.isEmpty_iff, beq_iff_eq] at he
    refine he.resolve_right fun hsource => h ?_
    rw [render, hsource]
  · rename_i hpart
    rw [if_neg hpart] at he
    simpa [isEmpty] using he

/-- **Neighbouring windows join to the segments of both.** -/
theorem segments_append_windows (h : p.render ≠ "") {i j k : Nat} (hij : i ≤ j) (hjk : j ≤ k)
    (hk : k ≤ p.size) :
    (p.window i j ++ p.window j k).segments = (p.window i k).segments := by
  rw [(tight_window h i j).segments_append (tight_window h j k),
    segments_neighbouring_windows hij hjk hk]

/-! ## Joining three paths -/

theorem startsIndexed_append {r : Path} (h : q.Built) (hbare : q.startsBare = false)
    (hq : q.isEmpty = false) (hr : r.isEmpty = false) :
    (q ++ r).startsIndexed = q.startsIndexed := by
  have hrender : q.render.toList ≠ [] := by
    intro hnil
    have hempty : q.isEmpty = true :=
      h.isEmpty_iff.2 ⟨by simpa using hnil, by rw [isBare, hbare, Bool.false_and]⟩
    rw [hq] at hempty
    cases hempty
  have hsource : (q ++ r).source = some (q ++ r).render := by
    rw [append_of_not_isEmpty hr hq]
    rfl
  rw [Bool.eq_iff_iff, h.startsIndexed_iff, startsIndexed, hsource]
  simp only [beq_iff_eq]
  rw [toList_render_append hq hr, List.append_assoc, List.head?_append_of_ne_nil _ hrender]
  exact (and_iff_left hbare).symm

/-- **Joining is associative, unless the path in the middle starts bare.** -/
theorem append_assoc (h : q.Built) (hbare : q.startsBare = false)
    (hseparator : p.isEmpty = false → q.isEmpty = false → p.separator = q.separator) (r : Path) :
    p ++ q ++ r = p ++ (q ++ r) := by
  cases hr : r.isEmpty with
  | true => rw [append_of_isEmpty_right (p ++ q) hr, append_of_isEmpty_right q hr]
  | false =>
    cases hq : q.isEmpty with
    | true => rw [append_of_isEmpty_right p hq, append_of_isEmpty_left hr hq]
    | false =>
      cases hp : p.isEmpty with
      | true =>
        rw [append_of_isEmpty_left hq hp, append_of_isEmpty_left (isEmpty_append hr) hp]
      | false =>
        have hstarts := startsIndexed_append h hbare hq hr
        rw [append_of_not_isEmpty hr (isEmpty_append hq),
          append_of_not_isEmpty (isEmpty_append hr) hp, hstarts, append_of_not_isEmpty hq hp,
          append_of_not_isEmpty hr hq, ← hseparator hp hq]
        simp only [render, List.append_assoc, String.append_assoc]

/-- The separator goes in front of a part that starts bare, but not once the part is joined on. -/
example : (parse "a" ++ (parse "." ++ parse "[0]b").take 2) ++ parse "c" ≠
    parse "a" ++ ((parse "." ++ parse "[0]b").take 2 ++ parse "c") := by
  decide

theorem append_empty (p : Path) : p ++ Path.empty = p := append_of_isEmpty_right p rfl

theorem Composed.built (h : p.Composed separator) : p.Built := by
  induction h with
  | @parse text _ => exact .parse separator text
  | slice _ h ih => exact ih.slice h
  | drop _ h ih => exact ih.slice h
  | take _ limit ih => exact ih.take limit
  | append _ _ ihp ihq => exact ihp.append ihq
  | appendText _ _ ih => exact ih.append (.parse _ _)
  | prependText _ _ ih => exact .append (.parse _ _) ih

/-- **The laws of cutting and joining.**  A part can be taken if its ends are in order and in range,
and a part of a part is a part.  Neighbouring parts join to the part that they make up, and paths
that are not empty join to the segments of both.  On the paths of legible texts joining is
associative, and the path without segments is neutral. -/
theorem cut_and_join (p : Path) :
    ((∀ start stop, (∃ q, p.slice start stop = .ok q) ↔ start ≤ stop ∧ stop ≤ p.size) ∧
      ∀ start stop q, p.slice start stop = .ok q → ∀ start' stop',
        ((∃ r, q.slice start' stop' = .ok r) ↔ start' ≤ stop' ∧ stop' ≤ stop - start) ∧
        ((∃ r, q.slice start' stop' = .ok r) →
          q.slice start' stop' = p.slice (start + start') (start + stop'))) ∧
    (p.render ≠ "" → ∀ i j k, i ≤ j → j ≤ k → k ≤ p.size → ∃ x y z,
      p.slice i j = .ok x ∧ p.slice j k = .ok y ∧ p.slice i k = .ok z ∧
      (x ++ y).segments = z.segments) ∧
    (∀ q : Path, p.isEmpty = false → q.isEmpty = false →
      (p ++ q).segments = p.segments ++ q.segments) ∧
    ∀ separator, separator ≠ '[' → separator ≠ ']' → p.Composed separator →
      (∀ q r : Path, q.Composed separator → r.Composed separator →
        p ++ q ++ r = p ++ (q ++ r)) ∧
      p ++ Path.empty = p ∧ (Path.empty ++ p).segments = p.segments ∧
      (Path.empty ++ p).render = p.render := by
  have hslice (p : Path) (start stop : Nat) :
      (∃ q, p.slice start stop = .ok q) ↔ start ≤ stop ∧ stop ≤ p.size := by
    constructor
    · rintro ⟨q, hq⟩
      obtain ⟨hle, hstop, -⟩ := slice_eq_ok_iff.1 hq
      exact ⟨hle, hstop⟩
    · rintro ⟨hle, hstop⟩
      exact ⟨_, slice_eq_ok_iff.2 ⟨hle, hstop, rfl⟩⟩
  refine ⟨⟨hslice p, ?_⟩, ?_, fun q hp hq => segments_append hp hq, ?_⟩
  · intro start stop q hq start' stop'
    obtain ⟨hle, hstop, rfl⟩ := slice_eq_ok_iff.1 hq
    have hpart := hslice (p.window start stop) start' stop'
    rw [size_window hstop] at hpart
    refine ⟨hpart, fun hr => ?_⟩
    obtain ⟨hle', hstop'⟩ := hpart.1 hr
    have hout : p.slice (start + start') (start + stop') =
        .ok (p.window (start + start') (start + stop')) :=
      slice_eq_ok_iff.2 ⟨by omega, by omega, rfl⟩
    have hin : (p.window start stop).slice start' stop' =
        .ok ((p.window start stop).window start' stop') :=
      slice_eq_ok_iff.2 ⟨hle', by rwa [size_window hstop], rfl⟩
    rw [hout, hin, window_window hstop (by omega)]
  · intro hrender i j k hij hjk hk
    refine ⟨p.window i j, p.window j k, p.window i k, slice_eq_ok_iff.2 ⟨hij, by omega, rfl⟩,
      slice_eq_ok_iff.2 ⟨hjk, hk, rfl⟩, slice_eq_ok_iff.2 ⟨by omega, hk, rfl⟩, ?_⟩
    exact segments_append_windows hrender hij hjk hk
  · intro separator hopen hclose hp
    have hclean := hp.clean hopen hclose
    refine ⟨fun q r hq _ => ?_, append_empty p, ?_⟩
    · -- composed paths have one separator, and none of them starts bare
      have hseparator : p.separator = q.separator := by
        rw [hclean.separator_eq, (hq.clean hopen hclose).separator_eq]
      exact append_assoc hq.built (hq.startsBare_eq_false hopen hclose) (fun _ _ => hseparator) r
    · cases he : p.isEmpty with
      | true =>
        rw [append_of_isEmpty_right Path.empty he, hclean.isEmpty_iff.1 he,
          hp.built.render_of_isEmpty he]
        exact ⟨rfl, rfl⟩
      | false =>
        rw [append_of_isEmpty_left he rfl]
        exact ⟨rfl, rfl⟩

end Path

namespace Sample

def rack : Path := Path.parse "rack[eu.west].hosts[0]"

/-- Parts of parts, joined with each other and with the whole. -/
theorem rack_in_parts : (rack.render ≠ "" ∧ rack.size = 4 ∧ rack.Composed '.') ∧
    (∃ x y z, rack.slice 1 2 = .ok x ∧ rack.slice 2 4 = .ok y ∧ rack.slice 1 4 = .ok z ∧
      (x ++ y).segments = z.segments ∧ z.slice 1 3 = rack.slice 2 4) ∧
    rack ++ rack ++ rack = rack ++ (rack ++ rack) := by
  have hrender : rack.render ≠ "" := by decide
  have hsize : rack.size = 4 := by decide
  have hcomposed : rack.Composed '.' :=
    .parse ((Path.legible_iff (by decide) (by decide)).2 ⟨by decide, 'r', by decide, by decide⟩)
  obtain ⟨⟨-, hparts⟩, hjoin, -, hlaws⟩ := Path.cut_and_join rack
  obtain ⟨x, y, z, hx, hy, hz, hsegments⟩ :=
    hjoin hrender 1 2 4 (by decide) (by decide) (by decide)
  obtain ⟨hpart, hsame⟩ := hparts 1 4 z hz 1 3
  refine ⟨⟨hrender, hsize, hcomposed⟩, ⟨x, y, z, hx, hy, hz, hsegments, ?_⟩, ?_⟩
  · exact hsame (hpart.2 ⟨by decide, by decide⟩)
  · exact (hlaws '.' (by decide) (by decide) hcomposed).1 rack rack hcomposed hcomposed

end Sample

end ConfigBind
