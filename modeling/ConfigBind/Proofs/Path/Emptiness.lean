import ConfigBind.Proofs.Path.Reading

/-!
# Paths that render as nothing

All of a text answers from the text whether it is empty and whether it starts with a bracket.  A
part of a path has no text of its own and answers from its segments: it is empty if there are none,
and it starts with a bracket if the first of them is bracketed.

The two ways agree unless the part begins with a plain segment without text (`Path.startsBare`).
Such a part does not count as empty, though it may render as nothing (`Path.isBare`), and does not
count as starting with a bracket, though it renders with one if a bracketed segment comes next.  A
text that is all separators and a text whose brackets do not match can give such segments; legible
texts do not.

* `Built.unopened`: no plain segment begins with an opening bracket, so that only what is bracketed
  renders with one in front.
* `render_append`: when a path is empty, and what a join renders as.
-/

namespace ConfigBind

/-! ## Plain text does not begin with an opening bracket -/

def Unopened (cs : List Char) (k : SegmentKind) : Prop :=
  k.indexed = false → cs.head? ≠ some '['

section

variable {cs : List Char} {k k' : SegmentKind}

theorem unopened_nil (k : SegmentKind) : Unopened [] k := by
  intro _ h
  cases h

theorem Unopened.congr (h : Unopened cs k) (hk : k'.indexed = k.indexed) : Unopened cs k' :=
  fun hi => h (hk ▸ hi)

theorem Unopened.push (h : Unopened cs k) (hk : k'.indexed = k.indexed) {c : Char}
    (hc : k.indexed = false → cs = [] → c ≠ '[') : Unopened (cs ++ [c]) k' := by
  intro hi
  rw [hk] at hi
  cases cs with
  | nil =>
    intro heq
    exact hc hi rfl (Option.some.inj heq)
  | cons d ds => exact h hi

end

namespace Scanner

variable {separator : Char} {s : Scanner}

/-- What is open is not plain text behind an opening bracket.  Below the outermost level something
is open: the bracket that led there. -/
structure Guarded (s : Scanner) : Prop where
  marked : s.Marked
  below : s.depth < 0 → s.pending ≠ []
  unopened : Unopened s.pending s.kind

theorem guarded_initial : initial.Guarded where
  marked := fun h => absurd h (by decide)
  below := fun h => absurd h (by decide)
  unopened := unopened_nil _

theorem Guarded.plain (h : s.Guarded) : ∀ span ∈ s.plain, Unopened span.text span.kind := by
  intro span hm
  obtain ⟨-, rfl⟩ := eq_of_mem_plain hm
  exact h.unopened.congr (SegmentKind.close_indexed _)

theorem Guarded.step (h : s.Guarded) (separator c : Char) : (s.step separator c).2.Guarded ∧
    ∀ span ∈ (s.step separator c).1, Unopened span.text span.kind := by
  -- The first part of the guard is known; the cases below are about the other two.
  suffices hrest : ((s.step separator c).2.depth < 0 → (s.step separator c).2.pending ≠ []) ∧
      Unopened (s.step separator c).2.pending (s.step separator c).2.kind ∧
      ∀ span ∈ (s.step separator c).1, Unopened span.text span.kind by
    obtain ⟨hbelow, hunopened, hspans⟩ := hrest
    exact ⟨⟨(h.marked.step separator c).1, hbelow, hunopened⟩, hspans⟩
  have hnone : ∀ span ∈ ([] : List Span), Unopened span.text span.kind := by
    intro span hm
    cases hm
  have hpush (depth : Int) : depth < 0 → s.pending ++ [c] ≠ [] := by
    intro _
    simp
  unfold Scanner.step
  split
  · split
    · exact ⟨fun (hd : (1 : Int) < 0) => absurd hd (by decide), unopened_nil _, h.plain⟩
    · rename_i hd
      refine ⟨hpush _, h.unopened.push rfl fun hi hp => ?_, hnone⟩
      -- Plain text is open below the outermost level only, and there it is not empty.
      have hbelow : s.depth < 0 := by
        have hnot : ¬ 1 ≤ s.depth := fun h1 => by simp [h.marked h1] at hi
        omega
      exact absurd hp (h.below hbelow)
  · rename_i hopen
    split
    · split
      · refine ⟨fun (hd : (0 : Int) < 0) => absurd hd (by decide), unopened_nil _, ?_⟩
        intro span hm
        rw [List.mem_singleton.1 hm]
        exact h.unopened
      · exact ⟨hpush _, h.unopened.push rfl fun _ _ => hopen, hnone⟩
    · split
      · rename_i hsep
        refine ⟨fun hd => ?_, unopened_nil _, h.plain⟩
        change s.depth < 0 at hd
        omega
      · exact ⟨hpush _, h.unopened.push (SegmentKind.refine_indexed _ _) fun _ _ => hopen, hnone⟩

theorem Guarded.finish (h : s.Guarded) (found : Bool) :
    ∀ span ∈ s.finish found, Unopened span.text span.kind := by
  intro span hm
  rcases finish_cases s found with hnone | ⟨k, hone, hindexed, -⟩
  · rw [hnone] at hm
    cases hm
  · rw [hone] at hm
    rw [List.mem_singleton.1 hm]
    exact h.unopened.congr hindexed

theorem Guarded.run (h : s.Guarded) (found : Bool) (cs : List Char) :
    ∀ span ∈ s.run separator found cs, Unopened span.text span.kind := by
  obtain ⟨hafter, hemitted⟩ := forall_emitted_of_step separator (I := Guarded)
    (fun s c hs => hs.step separator c) h cs
  intro span hm
  rw [run_eq] at hm
  rcases List.mem_append.1 hm with hm | hm
  · exact hemitted span hm
  · exact hafter.finish _ span hm

end Scanner

namespace Segment

variable {separator : Char} {s : Segment} {rest : List Segment}

theorem canonical_false_ne_nil (s : Segment) : s.canonical separator false ≠ [] := by
  unfold canonical
  split
  · simp
  · simp

theorem canonicalAll_of_visible (separator : Char) (rest : List Segment)
    (hs : Unopened s.text.toList s.kind)
    (hvisible : s.kind.indexed = true ∨ s.text ≠ "") :
    canonicalAll separator (s :: rest) ≠ [] ∧
      ((canonicalAll separator (s :: rest)).head? = some '[' ↔ s.kind.indexed = true) := by
  rw [canonicalAll]
  cases hi : s.kind.indexed with
  | true =>
    have hfirst : ∃ cs, s.canonical separator true = '[' :: cs := by
      rw [canonical, hi, if_pos rfl]
      exact ⟨_, rfl⟩
    obtain ⟨cs, hcs⟩ := hfirst
    rw [hcs]
    simp
  | false =>
    have htext : s.text.toList ≠ [] := by
      rw [hi] at hvisible
      simpa using hvisible
    rw [canonical_true_of_plain hi]
    refine ⟨List.append_ne_nil_of_left_ne_nil htext _, ?_⟩
    rw [List.head?_append_of_ne_nil _ htext]
    exact iff_of_false (hs hi) (by decide)

theorem canonicalAll_of_bare (hi : s.kind.indexed = false) (ht : s.text = "") :
    canonicalAll separator (s :: rest) = [] ↔ rest = [] := by
  rw [canonicalAll, canonical_true_of_plain hi, ht]
  cases rest with
  | nil => simp
  | cons t rest => simp [canonical_false_ne_nil]

end Segment

namespace Path

variable {separator : Char} {p q : Path}

theorem Built.unopened (h : p.Built) : ∀ s ∈ p.segments, Unopened s.text.toList s.kind := by
  induction h with
  | empty =>
    intro s hs
    cases hs
  | parse separator text =>
    intro s hs
    obtain ⟨span, hm, rfl⟩ := List.mem_map.1 hs
    rw [String.toList_ofList]
    exact Scanner.guarded_initial.run false _ span hm
  | @window p start stop _ _ _ ih =>
    unfold Path.window
    split
    · exact ih
    · intro s hs
      exact ih s (List.mem_of_mem_take (List.mem_of_mem_drop hs))
  | @append p q _ _ ihp ihq =>
    cases hq : q.isEmpty with
    | true => rwa [append_of_isEmpty_right p hq]
    | false =>
      cases hp : p.isEmpty with
      | true => rwa [append_of_isEmpty_left hq hp]
      | false =>
        rw [append_of_not_isEmpty hq hp]
        intro s hs
        exact (List.mem_append.1 hs).elim (ihp s) (ihq s)

/-! ## Bare parts -/

/-- The path is a part of another that begins with a plain segment without text. -/
def startsBare (p : Path) : Bool :=
  p.source.isNone && p.segments.head?.any fun s => !s.kind.indexed && s.text == ""

/-- The path is a part of another, and a plain segment without text is all of it. -/
def isBare (p : Path) : Bool := p.startsBare && p.size == 1

theorem startsBare_of_source {text : String} (h : p.source = some text) : p.startsBare = false := by
  rw [startsBare, h]
  rfl

/-- **A path is empty if it renders as nothing, unless it is bare.** -/
theorem Built.isEmpty_iff (h : p.Built) :
    p.isEmpty = true ↔ p.render = "" ∧ p.isBare = false := by
  cases hsource : p.source with
  | some text =>
    have hbare : p.isBare = false := by rw [isBare, startsBare_of_source hsource, Bool.false_and]
    refine ⟨fun he => ⟨h.render_of_isEmpty he, hbare⟩, fun hr => ?_⟩
    have htext : text = "" := by
      have hr := hr.1
      rwa [render, hsource] at hr
    rw [isEmpty, hsource, htext]
    simp
  | none =>
    have hrender : p.render = "" ↔ Segment.canonicalAll p.separator p.segments = [] := by
      rw [render, hsource]
      simp
    have hempty : p.isEmpty = p.segments.isEmpty := by
      rw [isEmpty, hsource]
      simp
    rw [hrender, hempty, isBare, startsBare, hsource, size]
    cases hsegments : p.segments with
    | nil => simp [Segment.canonicalAll]
    | cons s rest =>
      have hs := h.unopened s (by simp [hsegments])
      by_cases hvisible : s.kind.indexed = true ∨ s.text ≠ ""
      · have hne := (Segment.canonicalAll_of_visible p.separator rest hs hvisible).1
        simp [hne]
      · rw [not_or, Bool.not_eq_true, not_not] at hvisible
        rw [Segment.canonicalAll_of_bare hvisible.1 hvisible.2]
        simp [hvisible.1, hvisible.2]

/-- **A path starts with a bracket if it renders with one in front, unless it starts bare.** -/
theorem Built.startsIndexed_iff (h : p.Built) :
    p.startsIndexed = true ↔ p.render.toList.head? = some '[' ∧ p.startsBare = false := by
  cases hsource : p.source with
  | some text =>
    rw [startsIndexed, render, hsource, startsBare_of_source hsource]
    simp
  | none =>
    rw [startsIndexed, render, hsource, startsBare, hsource, String.toList_ofList]
    cases hsegments : p.segments with
    | nil => simp [Segment.canonicalAll]
    | cons s rest =>
      have hs := h.unopened s (by simp [hsegments])
      by_cases hvisible : s.kind.indexed = true ∨ s.text ≠ ""
      · have hhead := (Segment.canonicalAll_of_visible p.separator rest hs hvisible).2
        have hbare : (!s.kind.indexed && s.text == "") = false := by
          rcases hvisible with hi | ht
          · simp [hi]
          · simp [ht]
        dsimp only
        rw [hhead]
        simp [hbare]
      · rw [not_or, Bool.not_eq_true, not_not] at hvisible
        simp [hvisible.1, hvisible.2]

theorem Composed.startsBare_eq_false (hopen : separator ≠ '[') (hclose : separator ≠ ']')
    (h : p.Composed separator) : p.startsBare = false := by
  rw [startsBare, Bool.and_eq_false_iff]
  refine .inr ?_
  cases hsegments : p.segments with
  | nil => rfl
  | cons s rest =>
    have hs := (h.clean hopen hclose).written s (by simp [hsegments])
    rcases hs.cases with ⟨hi, -⟩ | ⟨-, htext, -⟩
    · simp [hi]
    · have hne : s.text ≠ "" := by simpa using htext
      simp [hne]

/-- **A path is empty if it renders as nothing, and a join renders as its sides with the separator
in between**, unless one of them is empty or the right one starts with a bracket.  A part that
starts bare is excepted: it is not empty though it may render as nothing, and the separator goes
before it though it may render with a bracket in front.  Paths of legible texts do not start so. -/
theorem render_append (hp : p.Built) (hq : q.Built) :
    (p.isEmpty = true ↔ p.render = "" ∧ p.isBare = false) ∧
      (p ++ q).render = p.render ++
        (if p.render = "" ∧ p.isBare = false ∨ q.render = "" ∧ q.isBare = false ∨
            q.render.toList.head? = some '[' ∧ q.startsBare = false
          then "" else p.separator.toString) ++ q.render ∧
      ∀ separator, separator ≠ '[' → separator ≠ ']' → p.Composed separator →
        p.startsBare = false := by
  refine ⟨hp.isEmpty_iff, ?_, fun separator hopen hclose h => h.startsBare_eq_false hopen hclose⟩
  simp only [← hp.isEmpty_iff, ← hq.isEmpty_iff, ← hq.startsIndexed_iff]
  cases he : q.isEmpty with
  | true =>
    rw [append_of_isEmpty_right p he, hq.render_of_isEmpty he]
    simp
  | false =>
    cases he' : p.isEmpty with
    | true =>
      rw [append_of_isEmpty_left he he', hp.render_of_isEmpty he']
      simp
    | false =>
      rw [append_of_not_isEmpty he he']
      simp [render]

end Path

namespace Sample

def dot : Path := (Path.parse "." ++ Path.parse "a").take 1

theorem dot_built : dot.Built :=
  .take (.append (.parse '.' ".") (.parse '.' "a")) 1

def dotted : Path := (Path.parse "." ++ Path.parse "[0]a").take 2

theorem dotted_built : dotted.Built :=
  .take (.append (.parse '.' ".") (.parse '.' "[0]a")) 2

/-- The separator goes in front of a bracket. -/
theorem server_dotted : ((Path.parse "server").Built ∧ dotted.Built) ∧ dotted.render = "[0]" ∧
    (Path.parse "server" ++ dotted).render = "server.[0]" := by
  have hserver : (Path.parse "server").Built := .parse '.' "server"
  have hrender : dotted.render = "[0]" := by decide
  obtain ⟨-, hjoin, -⟩ := Path.render_append hserver dotted_built
  refine ⟨⟨hserver, dotted_built⟩, hrender, ?_⟩
  rw [hjoin, if_neg (by decide), hrender]
  rfl

end Sample

/-- A part without text does not count as empty, and a join goes on behind it with the separator. -/
theorem dot_is_not_empty : Sample.dot.Built ∧
    ¬ (Sample.dot.isEmpty = true ↔ Sample.dot.render = "") ∧
    (Sample.dot ++ Path.parse "b").render = ".b" :=
  ⟨Sample.dot_built, by decide, by decide⟩

end ConfigBind
