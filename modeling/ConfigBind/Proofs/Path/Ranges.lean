import ConfigBind.Path.Table
import ConfigBind.Proofs.Path.Reading
import Mathlib.Data.String.Basic

/-!
# Ranges of bytes in a text

A range of a text is in bounds if it begins and ends at boundaries of characters
(`Path.Range.InBounds`), and these are the ranges that can be cut out
(`Path.Range.isSome_cut?_iff`).

The reader of a path counts bytes where the scanner counts characters: it goes on by one byte behind
a bracket and by the size of the separator behind a separator, and finds something open if the open
segment starts before the position.  `Reader.Follows` is what the two have in common after some
characters.  So the ranges that are read are the spans of the text, measured in bytes
(`Reader.run_eq_scan`), and inherit from the spans that they are in bounds and in order.
-/

namespace ConfigBind

namespace Text

variable {cs xs ys : List Char}

@[simp] theorem bytes_nil : bytes [] = 0 := rfl

@[simp] theorem bytes_cons (c : Char) (cs : List Char) :
    bytes (c :: cs) = c.utf8Size + bytes cs := rfl

@[simp] theorem bytes_append (xs ys : List Char) : bytes (xs ++ ys) = bytes xs + bytes ys := by
  induction xs with
  | nil => simp
  | cons x xs ih => rw [List.cons_append, bytes_cons, bytes_cons, ih, Nat.add_assoc]

@[simp] theorem bytes_eq_zero_iff : bytes cs = 0 ↔ cs = [] := by
  cases cs with
  | nil => simp
  | cons c cs =>
    have := c.utf8Size_pos
    simp only [bytes_cons, reduceCtorEq, iff_false]
    omega

theorem bytes_eq_utf8ByteSize (text : String) : bytes text.toList = text.utf8ByteSize := by
  have hlen (cs : List Char) : bytes cs = String.utf8Len cs := by
    induction cs with
    | nil => rfl
    | cons c cs ih => rw [bytes_cons, String.utf8Len_cons, ih, Nat.add_comm]
  rw [hlen, ← String.utf8ByteSize_ofList, String.ofList_toList]

/-! ## Cutting a text -/

theorem splitAt?_cons (c : Char) (cs : List Char) {n : Nat} (h : 0 < n) : splitAt? (c :: cs) n =
    if c.utf8Size ≤ n then (splitAt? cs (n - c.utf8Size)).map fun (xs, ys) => (c :: xs, ys)
    else none := by
  obtain ⟨n, rfl⟩ := Nat.exists_eq_add_of_lt h
  rw [Nat.zero_add, splitAt?]

theorem splitAt?_eq_some_iff {n : Nat} :
    splitAt? cs n = some (xs, ys) ↔ cs = xs ++ ys ∧ bytes xs = n := by
  induction cs generalizing n xs ys with
  | nil =>
    cases n with
    | zero =>
      simp only [splitAt?, Option.some.injEq, Prod.mk.injEq, bytes_eq_zero_iff,
        List.nil_eq_append_iff]
      constructor
      · rintro ⟨rfl, rfl⟩
        exact ⟨⟨rfl, rfl⟩, rfl⟩
      · rintro ⟨⟨rfl, rfl⟩, -⟩
        exact ⟨rfl, rfl⟩
    | succ n =>
      simp only [splitAt?, reduceCtorEq, false_iff, not_and]
      intro h
      obtain ⟨rfl, -⟩ := List.append_eq_nil_iff.1 h.symm
      simp
  | cons c cs ih =>
    by_cases hn : n = 0
    · subst hn
      simp only [splitAt?, Option.some.injEq, Prod.mk.injEq, bytes_eq_zero_iff]
      constructor
      · rintro ⟨rfl, rfl⟩
        exact ⟨rfl, rfl⟩
      · rintro ⟨h, rfl⟩
        exact ⟨rfl, h⟩
    · have hc := c.utf8Size_pos
      rw [splitAt?_cons c cs (Nat.pos_of_ne_zero hn)]
      constructor
      · intro h
        split at h
        · rename_i hle
          obtain ⟨⟨zs, rest⟩, hsplit, heq⟩ := Option.map_eq_some_iff.1 h
          obtain ⟨rfl, hbytes⟩ := ih.1 hsplit
          obtain ⟨rfl, rfl⟩ := Prod.mk.inj heq
          refine ⟨rfl, ?_⟩
          rw [bytes_cons]
          omega
        · cases h
      · rintro ⟨h, hbytes⟩
        cases xs with
        | nil => exact absurd hbytes.symm hn
        | cons x xs =>
          obtain ⟨rfl, rfl⟩ := List.cons.inj h
          rw [bytes_cons] at hbytes
          rw [if_pos (by omega), ih.2 ⟨rfl, by omega⟩]
          rfl

/-- **What is cut out of a text stands between the two positions.** -/
theorem cut?_eq_some_iff {start stop : Nat} : cut? cs start stop = some xs ↔
    ∃ before after, cs = before ++ (xs ++ after) ∧ start = bytes before ∧
      stop = bytes before + bytes xs := by
  unfold cut?
  constructor
  · intro h
    split at h
    · cases h
    · rename_i hle
      obtain ⟨⟨before, rest⟩, hsplit, hrest⟩ := Option.bind_eq_some_iff.1 h
      obtain ⟨⟨text, after⟩, hsplit', htext⟩ := Option.bind_eq_some_iff.1 hrest
      obtain ⟨rfl, hbefore⟩ := splitAt?_eq_some_iff.1 hsplit
      obtain ⟨rfl, hsize⟩ := splitAt?_eq_some_iff.1 hsplit'
      obtain rfl := Option.some.inj htext
      exact ⟨before, after, rfl, hbefore.symm, by omega⟩
  · rintro ⟨before, after, rfl, rfl, rfl⟩
    rw [if_neg (by omega), splitAt?_eq_some_iff.2 ⟨rfl, rfl⟩, Option.bind_eq_bind,
      Option.bind_some]
    dsimp only
    rw [Nat.add_sub_cancel_left, splitAt?_eq_some_iff.2 ⟨rfl, rfl⟩]
    rfl

theorem isValid_iff {text : String} {n : Nat} : String.Pos.Raw.IsValid text ⟨n⟩ ↔
    ∃ before, before <+: text.toList ∧ bytes before = n := by
  rw [String.Pos.Raw.isValid_iff_exists_append]
  constructor
  · rintro ⟨s, t, rfl, hn⟩
    refine ⟨s.toList, ⟨t.toList, String.toList_append.symm⟩, ?_⟩
    rw [bytes_eq_utf8ByteSize]
    exact (congrArg String.Pos.Raw.byteIdx hn).symm
  · rintro ⟨before, ⟨after, h⟩, hn⟩
    refine ⟨String.ofList before, String.ofList after, ?_, ?_⟩
    · rw [← String.ofList_append, h, String.ofList_toList]
    · rw [← hn, ← String.toList_ofList (l := before), bytes_eq_utf8ByteSize, String.toList_ofList]
      rfl

end Text

namespace Path

/-! ## Ranges in bounds -/

/-- The range begins and ends at boundaries of characters of the text. -/
def Range.InBounds (r : Range) (text : String) : Prop :=
  r.start ≤ r.stop ∧ String.Pos.Raw.IsValid text ⟨r.start⟩ ∧ String.Pos.Raw.IsValid text ⟨r.stop⟩

/-- **The ranges that can be cut out of a text are those in bounds.** -/
theorem Range.isSome_cut?_iff {r : Range} {text : String} :
    (Text.cut? text.toList r.start r.stop).isSome = true ↔ r.InBounds text := by
  rw [Option.isSome_iff_exists]
  unfold InBounds
  rw [Text.isValid_iff, Text.isValid_iff]
  constructor
  · rintro ⟨xs, h⟩
    obtain ⟨before, after, htext, hstart, hstop⟩ := Text.cut?_eq_some_iff.1 h
    refine ⟨by omega, ⟨before, ⟨_, htext.symm⟩, hstart.symm⟩, before ++ xs, ⟨after, ?_⟩, ?_⟩
    · rw [htext, List.append_assoc]
    · rw [Text.bytes_append, hstop]
  · rintro ⟨hle, ⟨before, hbefore, hstart⟩, before', hbefore', hstop⟩
    -- the text before the start is a part of the text before the stop
    have hprefix : before <+: before' := by
      rcases List.prefix_or_prefix_of_prefix hbefore hbefore' with h | ⟨rest, rfl⟩
      · exact h
      · rw [Text.bytes_append] at hstart
        have hnil : rest = [] := Text.bytes_eq_zero_iff.1 (by omega)
        rw [hnil, List.append_nil]
    obtain ⟨xs, rfl⟩ := hprefix
    obtain ⟨after, htext⟩ := hbefore'
    refine ⟨xs, Text.cut?_eq_some_iff.2 ⟨before, after, ?_, hstart.symm, ?_⟩⟩
    · rw [← htext, List.append_assoc]
    · rw [← hstop, Text.bytes_append]

end Path

/-! ## Corruption -/

namespace Scanner

variable {separator : Char} {s : Scanner}

theorem corrupted_step (h : s.kind.corrupted = false) (separator c : Char) :
    (s.step separator c).2.kind.corrupted = false ∧
      ∀ span ∈ (s.step separator c).1, span.kind.corrupted = false := by
  have hplain : ∀ span ∈ s.plain, span.kind.corrupted = false := by
    intro span hm
    obtain ⟨-, rfl⟩ := eq_of_mem_plain hm
    exact (SegmentKind.close_corrupted _).trans h
  have hnone : ∀ span ∈ ([] : List Span), span.kind.corrupted = false := by simp
  unfold step
  split
  · split
    · exact ⟨rfl, hplain⟩
    · exact ⟨h, hnone⟩
  · split
    · split
      · refine ⟨rfl, fun span hm => ?_⟩
        rw [List.mem_singleton.1 hm]
        exact h
      · exact ⟨h, hnone⟩
    · split
      · exact ⟨rfl, hplain⟩
      · exact ⟨(SegmentKind.refine_corrupted _ _).trans h, hnone⟩

end Scanner

/-- **At most the last span of a text is corrupted, and it is if the brackets do not match.** -/
theorem corrupted_scan (separator : Char) (cs : List Char) :
    ∃ front last, scan separator cs = front ++ [last] ∧
      (∀ span ∈ front, span.kind.corrupted = false) ∧
      (last.kind.corrupted = true ↔ ¬ Balanced cs) := by
  -- so only the end of a text can mark a span
  have hinitial : Scanner.initial.kind.corrupted = false := rfl
  obtain ⟨hafter, hemitted⟩ := Scanner.forall_emitted_of_step separator
    (I := fun s => s.kind.corrupted = false) (fun s c hs => Scanner.corrupted_step hs separator c)
    hinitial cs
  have hne := Path.scan_ne_nil separator cs
  have hunbalanced (h : ¬ Balanced cs) := corrupted_getLast_scan separator h
  have hscan : scan separator cs = _ := Scanner.run_eq separator false cs
  rcases Scanner.finish_cases (Scanner.initial.after separator cs)
    (false || !(Scanner.initial.emitted separator cs).isEmpty) with hnone | ⟨k, hone, -, hcorrupted⟩
  · -- nothing is open at the end, so the last span is one that a character ended
    rw [hnone, List.append_nil] at hscan
    rw [hscan] at hne hunbalanced ⊢
    rcases List.eq_nil_or_concat (Scanner.initial.emitted separator cs) with hnil | ⟨front, last, h⟩
    · exact absurd hnil hne
    · rw [h, List.concat_eq_append] at hemitted hunbalanced ⊢
      have hlast := hemitted last (by simp)
      refine ⟨front, last, rfl, fun span hm => hemitted span (List.mem_append_left _ hm), ?_⟩
      refine iff_of_false (by simp [hlast]) fun hb => ?_
      obtain ⟨span, hspan, hcorrupted⟩ := hunbalanced hb
      rw [List.getLast?_concat] at hspan
      rw [← Option.some.inj hspan, hlast] at hcorrupted
      cases hcorrupted
  · refine ⟨_, _, by rw [hscan, hone], hemitted, ?_⟩
    rw [hcorrupted, or_iff_right (by simp [hafter]), Scanner.balanced_iff_after separator,
      not_and_or, Bool.not_eq_false]

/-! ## Spans in bytes -/

/-- Where a span lies in a text, in bytes. -/
def Span.range (cs : List Char) (s : Span) : Path.Range where
  start := Text.bytes (cs.take s.start)
  stop := Text.bytes (cs.take s.start) + Text.bytes s.text
  kind := s.kind

namespace Span

variable {s t : Span} {cs : List Char}

theorem Cut.range (h : s.Cut cs) :
    Text.cut? cs (s.range cs).start (s.range cs).stop = some s.text := by
  refine Text.cut?_eq_some_iff.2 ⟨cs.take s.start, (cs.drop s.start).drop s.text.length, ?_, rfl,
    rfl⟩
  have hsplit := List.take_append_drop s.text.length (cs.drop s.start)
  rw [h] at hsplit
  rw [hsplit, List.take_append_drop]

theorem Before.range (h : s.Before t) (hs : s.Cut cs) :
    (s.range cs).stop ≤ (t.range cs).start := by
  have hstop : (s.range cs).stop = Text.bytes (cs.take s.stop) := by
    show Text.bytes (cs.take s.start) + Text.bytes s.text = _
    rw [Span.stop, List.take_add, Text.bytes_append, hs]
  have hsplit : cs.take t.start = cs.take s.stop ++ (cs.drop s.stop).take (t.start - s.stop) := by
    have hle : s.stop ≤ t.start := Nat.le_of_lt h
    rw [← List.take_add, Nat.add_sub_cancel' hle]
  rw [hstop]
  show _ ≤ Text.bytes (cs.take t.start)
  rw [hsplit, Text.bytes_append]
  omega

theorem range_append (rest : List Char) (h : s.start ≤ cs.length) :
    s.range (cs ++ rest) = s.range cs := by
  rw [range, List.take_append_of_le_length h]
  rfl

end Span

namespace Path.Reader

variable {separator : Char} {r : Reader} {s : Scanner} {before : List Char}

/-! ## Reading and scanning -/

/-- After some characters, the reader and the scanner are at the same place. -/
structure Follows (r : Reader) (s : Scanner) (before : List Char) : Prop where
  depth : r.depth = s.depth
  kind : r.kind = s.kind
  stray : r.stray = s.stray
  located : s.Located before
  start : r.start = Text.bytes (before.take s.start)

theorem follows_initial : initial.Follows .initial [] where
  depth := rfl
  kind := rfl
  stray := rfl
  located := ⟨Nat.le_refl 0, rfl⟩
  start := rfl

theorem Follows.bytes_eq (h : r.Follows s before) :
    Text.bytes before = r.start + Text.bytes s.pending := by
  rw [h.start, ← h.located.2, ← Text.bytes_append, List.take_append_drop]

theorem Follows.start_lt_iff (h : r.Follows s before) :
    r.start < Text.bytes before ↔ s.pending ≠ [] := by
  have hbytes := h.bytes_eq
  have hzero : Text.bytes s.pending = 0 ↔ s.pending = [] := Text.bytes_eq_zero_iff
  constructor
  · rintro hlt hnil
    have := hzero.2 hnil
    omega
  · intro hne
    have : Text.bytes s.pending ≠ 0 := fun h0 => hne (hzero.1 h0)
    omega

theorem Follows.range_open (h : r.Follows s before) (rest : List Char) (k : SegmentKind) :
    Span.range (before ++ rest) ⟨s.start, s.pending, k⟩ =
      ⟨r.start, Text.bytes before, k⟩ := by
  rw [Span.range_append rest h.located.1, h.bytes_eq, h.start]
  rfl

@[simp] theorem depth_endPlain (r : Reader) (n : Nat) : (r.endPlain n).depth = r.depth := by
  unfold endPlain
  split <;> rfl

@[simp] theorem stray_endPlain (r : Reader) (n : Nat) : (r.endPlain n).stray = r.stray := by
  unfold endPlain
  split <;> rfl

theorem Follows.ranges_endPlain (h : r.Follows s before) (rest : List Char) :
    (r.endPlain (Text.bytes before)).ranges =
      r.ranges ++ s.plain.map (Span.range (before ++ rest)) := by
  have hopen := h.start_lt_iff
  unfold endPlain Scanner.plain
  by_cases hp : s.pending = []
  · rw [if_neg (fun hlt => hopen.1 hlt hp), hp]
    simp
  · rw [if_pos (hopen.2 hp), if_neg (by simpa using hp), List.map_singleton, h.range_open, h.kind]

theorem follows_push {r' : Reader} {s' : Scanner} {c : Char} (h : r.Follows s before)
    (hlocated : s'.Located (before ++ [c])) (hdepth : r'.depth = s'.depth)
    (hkind : r'.kind = s'.kind) (hstray : r'.stray = s'.stray) (hstart : r'.start = r.start)
    (hstart' : s'.start = s.start) : r'.Follows s' (before ++ [c]) := by
  refine ⟨hdepth, hkind, hstray, hlocated, ?_⟩
  rw [hstart, hstart', h.start, List.take_append_of_le_length h.located.1]

theorem follows_reopen {r' : Reader} {s' : Scanner} {c : Char} (h : r.Follows s before)
    (hlocated : s'.Located (before ++ [c])) (hdepth : r'.depth = s'.depth)
    (hkind : r'.kind = s'.kind) (hstray : r'.stray = s'.stray)
    (hstart : r'.start = Text.bytes before + c.utf8Size)
    (hstart' : s'.start = s.start + s.pending.length + 1) : r'.Follows s' (before ++ [c]) := by
  refine ⟨hdepth, hkind, hstray, hlocated, ?_⟩
  have hlength : s'.start = (before ++ [c]).length := by
    have hle := h.located.1
    rw [hstart', ← h.located.2, List.length_drop, List.length_append, List.length_singleton]
    omega
  rw [hstart, hlength, List.take_length, Text.bytes_append]
  simp

/-- **One character keeps the reader and the scanner together**, and ends the same segment for
both. -/
theorem Follows.step (h : r.Follows s before) (separator c : Char) (rest : List Char) :
    (r.step separator (Text.bytes before) c).Follows (s.step separator c).2 (before ++ [c]) ∧
      (r.step separator (Text.bytes before) c).ranges =
        r.ranges ++ (s.step separator c).1.map (Span.range (before ++ c :: rest)) := by
  have hlocated : (s.step separator c).2.Located (before ++ [c]) := (h.located.step c []).1
  have hplain := h.ranges_endPlain (c :: rest)
  have hnone (ranges : List Range) : ranges = ranges ++ ([] : List Span).map
      (Span.range (before ++ c :: rest)) := by simp
  -- both make the same tests on the character and on the depth, case by case
  revert hlocated
  unfold Reader.step Scanner.step
  rw [h.depth]
  split
  · rename_i hc
    subst hc
    split
    · intro hlocated
      have hstray := (stray_endPlain r (Text.bytes before)).trans h.stray
      exact ⟨follows_reopen h hlocated rfl rfl hstray rfl rfl, hplain⟩
    · intro hlocated
      exact ⟨follows_push h hlocated rfl h.kind h.stray rfl rfl, hnone _⟩
  · split
    · rename_i hc
      subst hc
      by_cases hone : s.depth = 1
      · have hneg : ¬ s.depth - 1 < 0 := by omega
        have hzero : s.depth - 1 = 0 := by omega
        rw [if_neg hneg, if_pos hzero, if_pos hone]
        intro hlocated
        refine ⟨follows_reopen h hlocated rfl rfl h.stray rfl rfl, ?_⟩
        rw [List.map_singleton, h.range_open, h.kind]
      · rw [if_neg hone]
        intro hlocated
        by_cases hneg : s.depth - 1 < 0
        · have hle : s.depth ≤ 0 := by omega
          rw [if_pos hneg]
          exact ⟨follows_push h hlocated rfl h.kind (by simp [hle]) rfl rfl, hnone _⟩
        · have hle : ¬ s.depth ≤ 0 := by omega
          have hzero : ¬ s.depth - 1 = 0 := by omega
          rw [if_neg hneg, if_neg hzero]
          exact ⟨follows_push h hlocated rfl h.kind (by simpa [hle] using h.stray) rfl rfl,
            hnone _⟩
    · split
      · intro hlocated
        have hdepth := (depth_endPlain r (Text.bytes before)).trans h.depth
        have hstray := (stray_endPlain r (Text.bytes before)).trans h.stray
        exact ⟨follows_reopen h hlocated hdepth rfl hstray rfl rfl, hplain⟩
      · intro hlocated
        have hkind := congrArg (·.refine c) h.kind
        exact ⟨follows_push h hlocated rfl hkind h.stray rfl rfl, hnone _⟩

theorem Follows.finish (h : r.Follows s before) {found : Bool}
    (hfound : found = !r.ranges.isEmpty) : r.finish (Text.bytes before) =
      r.ranges ++ (s.finish found).map (Span.range before) := by
  have hopen := h.start_lt_iff
  have hrange (k : SegmentKind) : Span.range before ⟨s.start, s.pending, k⟩ =
      ⟨r.start, Text.bytes before, k⟩ := by
    have hrange := h.range_open [] k
    rwa [List.append_nil] at hrange
  unfold Reader.finish Scanner.finish
  rw [h.depth, h.kind, h.stray]
  generalize (if s.depth ≠ 0 ∨ s.stray = true then _ else s.kind) = kind
  dsimp only
  by_cases hp : s.pending = []
  · rw [if_neg (fun hlt => hopen.1 hlt hp)]
    rw [hp] at hrange ⊢
    subst hfound
    by_cases hk : (!kind.isBlank || r.ranges.isEmpty) = true
    · simp [hk, hrange]
    · simp [hk]
  · rw [if_pos (hopen.2 hp)]
    simp [hp, hrange]

/-- **What is read are the spans of the text, in bytes.** -/
theorem Follows.run (h : r.Follows s before) {found : Bool} (hfound : found = !r.ranges.isEmpty)
    (cs : List Char) : r.run separator (Text.bytes before) cs =
      r.ranges ++ (s.run separator found cs).map (Span.range (before ++ cs)) := by
  induction cs generalizing r s before found with
  | nil =>
    rw [List.append_nil]
    exact h.finish hfound
  | cons c cs ih =>
    obtain ⟨hnext, hranges⟩ := h.step separator c cs
    have hbytes : Text.bytes before + c.utf8Size = Text.bytes (before ++ [c]) := by simp
    have hfound' : (found || !(s.step separator c).1.isEmpty) =
        !(r.step separator (Text.bytes before) c).ranges.isEmpty := by
      rw [hranges, hfound]
      cases r.ranges <;> cases (s.step separator c).1 <;> simp
    rw [Reader.run, hbytes, Scanner.run_cons, ih hnext hfound', hranges, List.append_assoc,
      List.append_assoc, List.map_append, List.singleton_append]

end Path.Reader

namespace Path

theorem Reader.run_eq_scan (separator : Char) (cs : List Char) :
    Reader.initial.run separator 0 cs = (scan separator cs).map (Span.range cs) :=
  Reader.follows_initial.run rfl cs

end Path

end ConfigBind
