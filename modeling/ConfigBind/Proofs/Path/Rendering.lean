import ConfigBind.Proofs.Path.Children
import ConfigBind.Proofs.Path.Joints

/-!
# Reading a rendered path

Paths are cut and joined without being parsed again: a part of a path keeps segments without a text,
and a join moves the spans of its right side behind the left one.  `Path.spans` are the spans that a
path carries so, in the text that it renders as.

A path is `Clean` if its segments are written as its text, or its canonical form, writes them.
Texts that are `Legible` parse to clean paths, and cutting and joining keep them clean
(`Clean.window`, `Clean.append`).

* `Segment.scan_canonicalAll`: the canonical form of written segments has the spans that are
  recorded as it is written.
* `Path.spans_append`: the spans of a join are those of its left side and those of its right side,
  moved behind the left one.
* `Path.segments_parseWith_render`: parsing what a path renders as gives its segments back.
-/

namespace ConfigBind

def Span.segment (s : Span) : Segment := ⟨String.ofList s.text, s.kind⟩

theorem Span.map_segment_shift (n : Nat) (spans : List Span) :
    (spans.map (Span.shift n)).map Span.segment = spans.map Span.segment := by
  rw [List.map_map]
  rfl

/-! ## Canonical forms -/

theorem Written.cases {separator : Char} {cs : List Char} {k : SegmentKind}
    (h : Written separator cs k) :
    k.indexed = true ∧ k.corrupted = false ∧ Balanced cs ∧
        k = cs.foldl SegmentKind.refine .bracketed ∨
      k.indexed = false ∧ cs ≠ [] ∧ (∀ c ∈ cs, c ≠ '[' ∧ c ≠ ']' ∧ c ≠ separator) ∧
        k = (cs.foldl SegmentKind.refine .blank).close := by
  cases h with
  | bracketed hb =>
    exact .inl ⟨Path.foldl_refine_indexed _ _, Path.foldl_refine_corrupted _ _, hb, rfl⟩
  | plain hne hall =>
    refine .inr ⟨?_, hne, hall, rfl⟩
    rw [SegmentKind.close_indexed, Path.foldl_refine_indexed]
    rfl

namespace Segment

variable {separator : Char}

theorem canonical_of_indexed (starts : Bool) {s : Segment} (hi : s.kind.indexed = true)
    (hc : s.kind.corrupted = false) :
    s.canonical separator starts = '[' :: s.text.toList ++ [']'] := by
  simp [canonical, hi, hc]

theorem canonical_true_of_plain {s : Segment} (hi : s.kind.indexed = false) :
    s.canonical separator true = s.text.toList := by
  simp [canonical, hi]

theorem canonical_false_of_plain {s : Segment} (hi : s.kind.indexed = false) :
    s.canonical separator false = separator :: s.text.toList := by
  simp [canonical, hi]

/-- The segment is written as paths with the separator write segments. -/
def IsWritten (separator : Char) (s : Segment) : Prop := Written separator s.text.toList s.kind

theorem IsWritten.cases {s : Segment} (h : s.IsWritten separator) :
    s.kind.indexed = true ∧ s.kind.corrupted = false ∧ Balanced s.text.toList ∧
        s.kind = s.text.toList.foldl SegmentKind.refine .bracketed ∨
      s.kind.indexed = false ∧ s.text.toList ≠ [] ∧
        (∀ c ∈ s.text.toList, c ≠ '[' ∧ c ≠ ']' ∧ c ≠ separator) ∧
        s.kind = (s.text.toList.foldl SegmentKind.refine .blank).close :=
  Written.cases h

/-- The spans of segments that follow others, recorded as their canonical form is written from a
position on.  Before each of them stands one character, a bracket or the separator. -/
def spansFrom (separator : Char) (position : Nat) : List Segment → List Span
  | [] => []
  | s :: rest => ⟨position + 1, s.text.toList, s.kind⟩ ::
      spansFrom separator (position + (s.canonical separator false).length) rest

/-- The spans of segments, recorded as their canonical form is written. -/
def spansAll (separator : Char) : List Segment → List Span
  | [] => []
  | s :: rest => ⟨if s.kind.indexed then 1 else 0, s.text.toList, s.kind⟩ ::
      spansFrom separator (s.canonical separator true).length rest

theorem map_segment_spansFrom (position : Nat) (segments : List Segment) :
    (spansFrom separator position segments).map Span.segment = segments := by
  induction segments generalizing position with
  | nil => rfl
  | cons s rest ih => simp [spansFrom, Span.segment, ih]

theorem map_segment_spansAll (segments : List Segment) :
    (spansAll separator segments).map Span.segment = segments := by
  cases segments with
  | nil => rfl
  | cons s rest => simp [spansAll, Span.segment, map_segment_spansFrom]

theorem IsWritten.canonical_true {s : Segment} (h : s.IsWritten separator) :
    Balanced (s.canonical separator true) ∧ (∃ c ∈ s.canonical separator true, c ≠ separator) ∧
      scan separator (s.canonical separator true) =
        [⟨if s.kind.indexed then 1 else 0, s.text.toList, s.kind⟩] := by
  rcases h.cases with ⟨hi, hc, hb, hk⟩ | ⟨hi, hne, hall, hk⟩
  · rw [canonical_of_indexed true hi hc, if_pos hi]
    refine ⟨balanced_bracketed hb, ?_, ?_⟩
    · by_cases hsep : separator = '['
      · exact ⟨']', by simp, by rw [hsep]; decide⟩
      · exact ⟨'[', by simp, Ne.symm hsep⟩
    · rw [scan_bracketed separator hb, ← hk]
  · rw [canonical_true_of_plain hi, hi, if_neg (by decide)]
    refine ⟨balanced_of_forall_ne (fun hm => (hall _ hm).1 rfl) fun hm => (hall _ hm).2.1 rfl,
      ?_, ?_⟩
    · obtain ⟨c, hm⟩ := List.exists_mem_of_ne_nil _ hne
      exact ⟨c, hm, (hall c hm).2.2⟩
    · rw [scan_plain separator hne hall, ← hk]

theorem IsWritten.canonical_false {s : Segment} (h : s.IsWritten separator) :
    s.kind.indexed = true ∧ s.canonical separator false = s.canonical separator true ∧
        (∃ cs, s.canonical separator true = '[' :: cs) ∨
      s.kind.indexed = false ∧
        s.canonical separator false = separator :: s.canonical separator true := by
  rcases h.cases with ⟨hi, hc, -⟩ | ⟨hi, -⟩
  · rw [canonical_of_indexed false hi hc, canonical_of_indexed true hi hc]
    exact .inl ⟨hi, rfl, _, rfl⟩
  · rw [canonical_true_of_plain hi, canonical_false_of_plain hi]
    exact .inr ⟨hi, rfl⟩

theorem IsWritten.scan_append_canonical {s : Segment} (h : s.IsWritten separator)
    (hopen : separator ≠ '[') (hclose : separator ≠ ']') {xs : List Char} (hb : Balanced xs)
    (hx : ∃ c ∈ xs, c ≠ separator) :
    Balanced (xs ++ s.canonical separator false) ∧
      scan separator (xs ++ s.canonical separator false) =
        scan separator xs ++ [⟨xs.length + 1, s.text.toList, s.kind⟩] := by
  obtain ⟨hbs, hs, hscan⟩ := h.canonical_true
  rcases h.canonical_false with ⟨hi, heq, cs, hcs⟩ | ⟨hi, heq⟩
  · rw [heq]
    refine ⟨balanced_append hb hbs, ?_⟩
    rw [scan_append hopen hclose hb hx hbs hs ⟨'[', cs, hcs, .inl rfl⟩, hscan, if_pos hi]
    simp [Span.shift, Nat.add_comm]
  · rw [heq]
    refine ⟨balanced_append hb (balanced_cons hopen hclose hbs), ?_⟩
    rw [scan_append_separator hopen hclose hb hx hbs hs, hscan, hi]
    simp [Span.shift]

theorem scan_append_canonicals (hopen : separator ≠ '[') (hclose : separator ≠ ']')
    {xs : List Char} (hb : Balanced xs) (hx : ∃ c ∈ xs, c ≠ separator) {segments : List Segment}
    (h : ∀ s ∈ segments, s.IsWritten separator) :
    Balanced (xs ++ segments.flatMap (canonical separator false)) ∧
      scan separator (xs ++ segments.flatMap (canonical separator false)) =
        scan separator xs ++ spansFrom separator xs.length segments := by
  induction segments generalizing xs with
  | nil => simpa [spansFrom] using hb
  | cons s rest ih =>
    obtain ⟨hs, hrest⟩ := List.forall_mem_cons.1 h
    obtain ⟨hbs, hscan⟩ := hs.scan_append_canonical hopen hclose hb hx
    have hxs : ∃ c ∈ xs ++ s.canonical separator false, c ≠ separator := by
      obtain ⟨c, hc, hne⟩ := hx
      exact ⟨c, List.mem_append_left _ hc, hne⟩
    obtain ⟨hbalanced, hall⟩ := ih hbs hxs hrest
    rw [List.flatMap_cons, ← List.append_assoc]
    refine ⟨hbalanced, ?_⟩
    rw [hall, hscan, List.length_append, List.append_assoc]
    rfl

/-- **The canonical form of written segments has the spans that are recorded as it is written.** -/
theorem scan_canonicalAll (hopen : separator ≠ '[') (hclose : separator ≠ ']')
    {segments : List Segment} (hne : segments ≠ []) (h : ∀ s ∈ segments, s.IsWritten separator) :
    Balanced (canonicalAll separator segments) ∧
      (∃ c ∈ canonicalAll separator segments, c ≠ separator) ∧
      scan separator (canonicalAll separator segments) = spansAll separator segments := by
  cases segments with
  | nil => exact absurd rfl hne
  | cons s rest =>
    obtain ⟨hs, hrest⟩ := List.forall_mem_cons.1 h
    obtain ⟨hb, hx, hscan⟩ := hs.canonical_true
    obtain ⟨hbalanced, hall⟩ := scan_append_canonicals hopen hclose hb hx hrest
    refine ⟨hbalanced, ?_, ?_⟩
    · obtain ⟨c, hc, hne⟩ := hx
      exact ⟨c, List.mem_append_left _ hc, hne⟩
    · rw [canonicalAll, hall, hscan]
      rfl

end Segment

namespace Path

variable {separator : Char} {p q : Path}

/-! ## Legible texts -/

/-- The brackets of a text match, and it has a segment.  A text that is all separators has none: its
parse stands in with one that bears no mark. -/
def Legible (separator : Char) (text : String) : Prop :=
  Balanced text.toList ∧ ∃ s ∈ (parseWith separator text).segments, s.kind.isBlank = false

theorem scan_of_forall_eq (hopen : separator ≠ '[') (hclose : separator ≠ ']') {cs : List Char}
    (h : ∀ c ∈ cs, c = separator) : scan separator cs = [⟨cs.length, [], .blank⟩] := by
  have hrun : ∀ (cs : List Char) (n : Nat), (∀ c ∈ cs, c = separator) →
      (Scanner.initial.shift n).run separator false cs = [⟨n + cs.length, [], .blank⟩] := by
    intro cs
    induction cs with
    | nil =>
      intro n _
      simp [Scanner.run, Scanner.finish, Scanner.shift, Scanner.initial]
    | cons c cs ih =>
      intro n hall
      obtain ⟨rfl, hrest⟩ := List.forall_mem_cons.1 hall
      have hstep : (Scanner.initial.shift n).step c c = ([], Scanner.initial.shift (n + 1)) := by
        simp [Scanner.step, Scanner.initial, Scanner.plain, Scanner.reopen, Scanner.shift, hopen,
          hclose]
      rw [Scanner.run, hstep]
      show (Scanner.initial.shift (n + 1)).run c false cs = _
      rw [ih (n + 1) hrest, List.length_cons]
      congr 2
      omega
  have hscan := hrun cs 0 h
  rwa [Nat.zero_add] at hscan

/-- **A text is legible if its brackets match and it is not all separators.** -/
theorem legible_iff (hopen : separator ≠ '[') (hclose : separator ≠ ']') {text : String} :
    Legible separator text ↔ Balanced text.toList ∧ ∃ c ∈ text.toList, c ≠ separator := by
  refine and_congr_right fun _ => ⟨?_, exists_not_isBlank_mem_segments⟩
  rintro ⟨s, hs, hk⟩
  by_contra hnone
  obtain ⟨span, hspan, rfl⟩ := List.mem_map.1 hs
  rw [scan_of_forall_eq hopen hclose (by simpa using hnone)] at hspan
  rw [List.mem_singleton.1 hspan] at hk
  cases hk

/-! ## The spans of a path -/

/-- The spans that a path carries: those of its text, or those recorded as it is rendered. -/
def spans (p : Path) : List Span :=
  match p.source with
  | some text => scan p.separator text.toList
  | none => Segment.spansAll p.separator p.segments

def joint (p q : Path) : List Char := if q.startsIndexed then [] else [p.separator]

theorem toList_render_append (hp : p.isEmpty = false) (hq : q.isEmpty = false) :
    (p ++ q).render.toList = p.render.toList ++ p.joint q ++ q.render.toList := by
  rw [append_of_not_isEmpty hq hp]
  show (p.render ++ _ ++ q.render).toList = _
  rw [String.toList_append, String.toList_append, joint]
  split <;> simp [Char.toString]

/-- The segments are written, and the text of the path is legible and writes them. -/
structure Clean (separator : Char) (p : Path) : Prop where
  separator_eq : p.separator = separator
  written : ∀ s ∈ p.segments, s.IsWritten separator
  source : ∀ text, p.source = some text → Balanced text.toList ∧
    (∃ c ∈ text.toList, c ≠ separator) ∧ p.segments = (parseWith separator text).segments

theorem clean_parseWith {text : String} (hb : Balanced text.toList)
    (hx : ∃ c ∈ text.toList, c ≠ separator) : Clean separator (parseWith separator text) where
  separator_eq := rfl
  written s hs := by
    obtain ⟨span, hm, rfl⟩ := List.mem_map.1 hs
    have hwritten := written_of_mem_scan hb hx hm
    show Written separator (String.ofList span.text).toList span.kind
    rwa [String.toList_ofList]
  source other h := by
    obtain rfl := Option.some.inj h
    exact ⟨hb, hx, rfl⟩

theorem Clean.window (h : p.Clean separator) (start stop : Nat) :
    Clean separator (p.window start stop) := by
  unfold Path.window
  split
  · exact h
  · refine ⟨h.separator_eq, fun s hs => h.written s ?_, fun text htext => by cases htext⟩
    exact List.mem_of_mem_take (List.mem_of_mem_drop hs)

theorem Clean.isEmpty_iff (h : p.Clean separator) : p.isEmpty = true ↔ p.segments = [] := by
  rw [isEmpty, Bool.or_eq_true, List.isEmpty_iff, beq_iff_eq]
  refine or_iff_left_of_imp fun htext => ?_
  obtain ⟨-, ⟨c, hc, -⟩, -⟩ := h.source "" htext
  simp at hc

/-- **What a clean path renders as is balanced, and has the spans of the path.** -/
theorem Clean.scan_render (h : p.Clean separator) (hopen : separator ≠ '[')
    (hclose : separator ≠ ']') (hne : p.isEmpty = false) :
    Balanced p.render.toList ∧ (∃ c ∈ p.render.toList, c ≠ separator) ∧
      scan separator p.render.toList = p.spans ∧ p.spans.map Span.segment = p.segments := by
  unfold render spans
  cases hsource : p.source with
  | some text =>
    obtain ⟨hb, hx, hsegments⟩ := h.source text hsource
    refine ⟨hb, hx, by rw [h.separator_eq], ?_⟩
    rw [hsegments, h.separator_eq]
    rfl
  | none =>
    have hnil : p.segments ≠ [] := fun hnil => by
      rw [h.isEmpty_iff.2 hnil] at hne
      cases hne
    obtain ⟨hb, hx, hscan⟩ := Segment.scan_canonicalAll hopen hclose hnil h.written
    dsimp only
    rw [h.separator_eq, String.toList_ofList]
    exact ⟨hb, hx, hscan, Segment.map_segment_spansAll _⟩

theorem toList_render_of_startsIndexed (hi : p.startsIndexed = true) :
    ∃ cs, p.render.toList = '[' :: cs := by
  unfold startsIndexed at hi
  unfold render
  cases hsource : p.source with
  | some text =>
    rw [hsource] at hi
    exact List.head?_eq_some_iff.1 (eq_of_beq hi)
  | none =>
    rw [hsource, Option.any_eq_true] at hi
    obtain ⟨s, hs, hk⟩ := hi
    obtain ⟨rest, hrest⟩ := List.head?_eq_some_iff.1 hs
    simp [hrest, Segment.canonicalAll, Segment.canonical, hk]

/-- **The spans of a join are those of its sides, the right ones moved behind the left side**, and
the join renders so that parsing finds them there. -/
theorem Clean.scan_append (h : p.Clean separator) (h' : q.Clean separator)
    (hopen : separator ≠ '[') (hclose : separator ≠ ']') (hp : p.isEmpty = false)
    (hq : q.isEmpty = false) :
    Balanced (p ++ q).render.toList ∧ (∃ c ∈ (p ++ q).render.toList, c ≠ separator) ∧
      scan separator (p ++ q).render.toList = p.spans ++
        q.spans.map (Span.shift (p.render.toList ++ p.joint q).length) := by
  obtain ⟨hb, hx, hscan, -⟩ := h.scan_render hopen hclose hp
  obtain ⟨hb', hx', hscan', -⟩ := h'.scan_render hopen hclose hq
  rw [toList_render_append hp hq, joint, h.separator_eq]
  by_cases hi : q.startsIndexed = true
  · obtain ⟨cs, hcs⟩ := toList_render_of_startsIndexed hi
    rw [if_pos hi, List.append_nil]
    refine ⟨balanced_append hb hb', ?_, ?_⟩
    · obtain ⟨c, hc, hne⟩ := hx
      exact ⟨c, List.mem_append_left _ hc, hne⟩
    · rw [ConfigBind.scan_append hopen hclose hb hx hb' hx' ⟨'[', cs, hcs, .inl rfl⟩, hscan,
        hscan']
  · rw [if_neg hi, List.append_assoc, List.singleton_append]
    refine ⟨balanced_append hb (balanced_cons hopen hclose hb'), ?_, ?_⟩
    · obtain ⟨c, hc, hne⟩ := hx
      exact ⟨c, List.mem_append_left _ hc, hne⟩
    · rw [scan_append_separator hopen hclose hb hx hb' hx', hscan, hscan', List.length_append,
        List.length_singleton]

theorem Clean.spans_append (h : p.Clean separator) (h' : q.Clean separator)
    (hopen : separator ≠ '[') (hclose : separator ≠ ']') (hp : p.isEmpty = false)
    (hq : q.isEmpty = false) : (p ++ q).spans =
      p.spans ++ q.spans.map (Span.shift (p.render.toList ++ p.joint q).length) := by
  obtain ⟨-, -, hscan⟩ := h.scan_append h' hopen hclose hp hq
  rw [← hscan, append_of_not_isEmpty hq hp, ← h.separator_eq]
  rfl

theorem Clean.append (h : p.Clean separator) (h' : q.Clean separator) (hopen : separator ≠ '[')
    (hclose : separator ≠ ']') : Clean separator (p ++ q) := by
  cases hq : q.isEmpty with
  | true => rwa [append_of_isEmpty_right p hq]
  | false =>
    cases hp : p.isEmpty with
    | true => rwa [append_of_isEmpty_left hq hp]
    | false =>
      obtain ⟨hb, hx, hscan⟩ := h.scan_append h' hopen hclose hp hq
      obtain ⟨-, -, -, hsegments⟩ := h.scan_render hopen hclose hp
      obtain ⟨-, -, -, hsegments'⟩ := h'.scan_render hopen hclose hq
      rw [append_of_not_isEmpty hq hp] at hb hx hscan ⊢
      refine ⟨h.separator_eq, fun s hs => ?_, fun text htext => ?_⟩
      · rcases List.mem_append.1 hs with hs | hs
        · exact h.written s hs
        · exact h'.written s hs
      · obtain rfl := Option.some.inj htext
        refine ⟨hb, hx, ?_⟩
        show p.segments ++ q.segments = (scan separator _).map Span.segment
        rw [← hsegments, ← hsegments', ← Span.map_segment_shift _ q.spans, ← List.map_append,
          ← hscan]
        rfl

/-! ## Composed paths -/

/-- Paths that are made of legible texts by cutting and joining. -/
inductive Composed (separator : Char) : Path → Prop
  | parse {text : String} (h : Legible separator text) :
      Composed separator (parseWith separator text)
  | slice {p q : Path} {start stop : Nat} (hp : Composed separator p)
      (h : p.slice start stop = .ok q) : Composed separator q
  | drop {p q : Path} {count : Nat} (hp : Composed separator p) (h : p.drop count = .ok q) :
      Composed separator q
  | take {p : Path} (hp : Composed separator p) (limit : Nat) : Composed separator (p.take limit)
  | append {p q : Path} (hp : Composed separator p) (hq : Composed separator q) :
      Composed separator (p ++ q)
  | appendText {p : Path} {text : String} (hp : Composed separator p)
      (h : Legible separator text) : Composed separator (p.appendText text)
  | prependText {p : Path} {text : String} (hp : Composed separator p)
      (h : Legible separator text) : Composed separator (p.prependText text)

theorem Composed.clean (hopen : separator ≠ '[') (hclose : separator ≠ ']')
    (h : p.Composed separator) : p.Clean separator := by
  have hparse {text : String} (h : Legible separator text) :
      Clean separator (parseWith separator text) := by
    obtain ⟨hb, hx⟩ := (legible_iff hopen hclose).1 h
    exact clean_parseWith hb hx
  induction h with
  | parse h => exact hparse h
  | slice _ h ih =>
    rw [(slice_eq_ok_iff.1 h).2.2]
    exact ih.window _ _
  | drop _ h ih =>
    rw [(slice_eq_ok_iff.1 h).2.2]
    exact ih.window _ _
  | take _ limit ih => exact ih.window _ _
  | append _ _ ihp ihq => exact ihp.append ihq hopen hclose
  | appendText _ h ih =>
    rw [Path.appendText, ih.separator_eq]
    exact ih.append (hparse h) hopen hclose
  | prependText _ h ih =>
    rw [Path.prependText, ih.separator_eq]
    exact (hparse h).append ih hopen hclose

theorem Clean.segments_eq_of_same (h : p.Clean separator) (h' : q.Clean separator)
    (hopen : separator ≠ '[') (hclose : separator ≠ ']') (hsame : p.same q = true) :
    p.segments = q.segments := by
  have hrender : p.render = q.render := eq_of_beq hsame
  have hvisible {p : Path} (h : p.Clean separator) (hne : p.isEmpty = false) :
      p.render.toList ≠ [] := by
    obtain ⟨-, ⟨c, hc, -⟩, -⟩ := h.scan_render hopen hclose hne
    exact List.ne_nil_of_mem hc
  have hblank {p : Path} (h : p.Clean separator) (he : p.isEmpty = true) :
      p.render.toList = [] := by
    have hnil := h.isEmpty_iff.1 he
    unfold render
    cases hsource : p.source with
    | some text =>
      obtain ⟨-, -, hsegments⟩ := h.source text hsource
      exact absurd (hsegments ▸ hnil) (segments_parseWith_ne_nil separator text)
    | none => simp [hnil, Segment.canonicalAll]
  cases hp : p.isEmpty with
  | true =>
    cases hq : q.isEmpty with
    | true => rw [h.isEmpty_iff.1 hp, h'.isEmpty_iff.1 hq]
    | false => exact absurd (hrender ▸ hblank h hp) (hvisible h' hq)
  | false =>
    cases hq : q.isEmpty with
    | true => exact absurd (hrender ▸ hblank h' hq) (hvisible h hp)
    | false =>
      obtain ⟨-, -, hscan, hsegments⟩ := h.scan_render hopen hclose hp
      obtain ⟨-, -, hscan', hsegments'⟩ := h'.scan_render hopen hclose hq
      rw [← hsegments, ← hsegments', ← hscan, ← hscan', hrender]

/-- **Parsing what a path renders as gives its segments back.**  So does every way of cutting and
joining: the spans that the path carries are those that parsing finds, each cuts its segment out of
the rendered text, and a join moves them to where they are found.  Paths that render alike have the
same segments and lead to the same node in every tree. -/
theorem segments_parseWith_render (hopen : separator ≠ '[') (hclose : separator ≠ ']')
    (hp : p.Composed separator) (hne : p.isEmpty = false) :
    (parseWith separator p.render).segments = p.segments ∧
      (p.spans = scan separator p.render.toList ∧
        ∀ span ∈ p.spans, span.Cut p.render.toList) ∧
      (∀ q, q.Composed separator → q.isEmpty = false → (p ++ q).spans =
        p.spans ++ q.spans.map (Span.shift (p.render.toList ++ p.joint q).length)) ∧
      ∀ q, q.Composed separator → p.same q = true →
        p.segments = q.segments ∧ ∀ root : Node, root.get? p = root.get? q := by
  have hclean := hp.clean hopen hclose
  obtain ⟨-, -, hscan, hsegments⟩ := hclean.scan_render hopen hclose hne
  refine ⟨?_, ⟨hscan.symm, ?_⟩, ?_, ?_⟩
  · show (scan separator p.render.toList).map Span.segment = p.segments
    rw [hscan, hsegments]
  · intro span hspan
    rw [← hscan] at hspan
    exact cut_of_mem_scan hspan
  · intro q hq hne'
    exact hclean.spans_append (hq.clean hopen hclose) hopen hclose hne hne'
  · intro q hq hsame
    have heq := hclean.segments_eq_of_same (hq.clean hopen hclose) hopen hclose hsame
    refine ⟨heq, fun root => ?_⟩
    rw [Node.get?, Node.get?, heq]

/-- A text that is all separators is not legible, and a join with it does not read back. -/
example : (parse (parse ".." ++ parse "a").render).segments ≠
    (parse ".." ++ parse "a").segments := by
  decide

end Path

namespace Sample

def hosts : Path := (Path.parse "server..hosts[0]").window 1 3 ++ Path.parse "[a.b]port"

theorem composed_hosts :
    hosts.Composed '.' ∧ (Path.parse "hosts[0][a.b]port").Composed '.' := by
  have hlegible {text : String} (hb : Balanced text.toList) (hx : ∃ c ∈ text.toList, c ≠ '.') :
      Path.Legible '.' text := (Path.legible_iff (by decide) (by decide)).2 ⟨hb, hx⟩
  have hserver : (Path.parse "server..hosts[0]").Composed '.' :=
    .parse (hlegible (by decide) ⟨'s', by decide, by decide⟩)
  have hport : (Path.parse "[a.b]port").Composed '.' :=
    .parse (hlegible (by decide) ⟨'p', by decide, by decide⟩)
  refine ⟨.append (hserver.slice (Path.slice_eq_ok_iff.2 ⟨by decide, by decide, rfl⟩)) hport, ?_⟩
  exact .parse (hlegible (by decide) ⟨'h', by decide, by decide⟩)

/-- What the joined path renders as reads back, and so does it behind itself. -/
theorem hosts_read_back :
    (hosts.Composed '.' ∧ hosts.isEmpty = false ∧
      (Path.parse "hosts[0][a.b]port").Composed '.') ∧
    hosts.render = "hosts[0][a.b]port" ∧
    (Path.parse "hosts[0][a.b]port").segments = hosts.segments ∧
    (hosts ++ hosts).spans = hosts.spans ++ hosts.spans.map (Span.shift 18) ∧
    ∀ root : Node, root.get? hosts = root.get? (.parse "hosts[0][a.b]port") := by
  have hne : hosts.isEmpty = false := by decide
  have hrender : hosts.render = "hosts[0][a.b]port" := by decide
  obtain ⟨hread, -, hjoin, hsame⟩ :=
    Path.segments_parseWith_render (by decide) (by decide) composed_hosts.1 hne
  rw [hrender] at hread
  refine ⟨⟨composed_hosts.1, hne, composed_hosts.2⟩, hrender, hread, ?_, ?_⟩
  · exact hjoin hosts composed_hosts.1 hne
  · exact (hsame _ composed_hosts.2 (by decide)).2

end Sample

end ConfigBind
