import ConfigBind.Proofs.Path.Rendering
import Mathlib.Data.List.Sort

/-!
# The segments of a balanced text

What a balanced text says as a path can be read off without a scan: its segments are what its
outermost brackets enclose, and the longest runs outside brackets of characters that are neither a
bracket nor the separator.  The kind of a segment is known from its text and from whether it is in
brackets (`SegmentKind.IsOf`).

The scanner finds exactly these segments, in the order of the text.  It finds all of them because a
scan stands outside brackets, with nothing open, wherever one begins (`Scanner.mem_of_isRun`,
`Scanner.mem_emitted_of_isEnclosed`).  It finds no other because a span that is open begins behind a
bracket or a separator (`Scanner.Anchored`).

* `Scanner.ordered_run`: the spans of any text, balanced or not, lie one behind the other.
* `reading_of_balanced`: the scan of a balanced text is its only reading.
-/

namespace ConfigBind

/-! ## The kind of a text -/

/-- A digit comes before any letter. -/
def DigitFirst (cs : List Char) : Prop :=
  ∃ before d after, cs = before ++ d :: after ∧ d.isDigit = true ∧
    ∀ c ∈ before, c.isAlpha = false

theorem not_digitFirst_nil : ¬ DigitFirst [] := by
  rintro ⟨before, d, after, h, -⟩
  cases before <;> cases h

theorem digitFirst_cons {c : Char} {cs : List Char} :
    DigitFirst (c :: cs) ↔ c.isDigit = true ∨ c.isAlpha = false ∧ DigitFirst cs := by
  constructor
  · rintro ⟨before, d, after, h, hd, hbefore⟩
    cases before with
    | nil =>
      obtain ⟨rfl, rfl⟩ := List.cons.inj h
      exact .inl hd
    | cons x before =>
      obtain ⟨rfl, rfl⟩ := List.cons.inj h
      obtain ⟨hx, hbefore⟩ := List.forall_mem_cons.1 hbefore
      exact .inr ⟨hx, before, d, after, rfl, hd, hbefore⟩
  · rintro (hd | ⟨hc, before, d, after, rfl, hd, hbefore⟩)
    · exact ⟨[], c, cs, rfl, hd, by simp⟩
    · exact ⟨c :: before, d, after, rfl, hd, List.forall_mem_cons.2 ⟨hc, hbefore⟩⟩

theorem digitFirst_of_mem {d : Char} {cs : List Char} (hd : d ∈ cs) (hdigit : d.isDigit = true)
    (h : ∀ c ∈ cs, c.isAlpha = false) : DigitFirst cs := by
  obtain ⟨before, after, rfl⟩ := List.append_of_mem hd
  exact ⟨before, d, after, rfl, hdigit, fun c hc => h c (List.mem_append_left _ hc)⟩

namespace SegmentKind

/-- The kind that a segment has by its text, and by whether it is in brackets. -/
structure IsOf (bracketed : Bool) (cs : List Char) (k : SegmentKind) : Prop where
  named : k.named = true ↔ (∃ c ∈ cs, c.isAlpha = true) ∨
    bracketed = false ∧ ∀ c ∈ cs, c.isAlpha = false ∧ c.isDigit = false ∧ c ≠ '-'
  indexed : k.indexed = bracketed
  numeric : k.numeric = true ↔ DigitFirst cs
  dashed : k.dashed = true ↔ '-' ∈ cs
  corrupted : k.corrupted = false

theorem IsOf.unique {bracketed : Bool} {cs : List Char} {k k' : SegmentKind}
    (h : k.IsOf bracketed cs) (h' : k'.IsOf bracketed cs) : k = k' := by
  obtain ⟨named, indexed, numeric, dashed, corrupted⟩ := k
  obtain ⟨named', indexed', numeric', dashed', corrupted'⟩ := k'
  have hnamed : named = named' := Bool.eq_iff_iff.2 (h.named.trans h'.named.symm)
  have hindexed : indexed = indexed' := h.indexed.trans h'.indexed.symm
  have hnumeric : numeric = numeric' := Bool.eq_iff_iff.2 (h.numeric.trans h'.numeric.symm)
  have hdashed : dashed = dashed' := Bool.eq_iff_iff.2 (h.dashed.trans h'.dashed.symm)
  have hcorrupted : corrupted = corrupted' := h.corrupted.trans h'.corrupted.symm
  rw [hnamed, hindexed, hnumeric, hdashed, hcorrupted]

theorem isDigit_of_isAlpha {c : Char} (h : c.isAlpha = true) : c.isDigit = false := by
  have halpha : 65 ≤ c.toNat ∧ c.toNat ≤ 90 ∨ 97 ≤ c.toNat ∧ c.toNat ≤ 122 := by
    change (decide (65 ≤ c.val ∧ c.val ≤ 90) ||
      decide (97 ≤ c.val) && decide (c.val ≤ 122)) = true at h
    simpa [UInt32.le_iff_toNat_le] using h
  change (decide (48 ≤ c.val) && decide (c.val ≤ 57)) = false
  rw [← Bool.not_eq_true, Bool.and_eq_true, decide_eq_true_eq, decide_eq_true_eq]
  rintro ⟨-, hle⟩
  have hdigit : c.toNat ≤ 57 := UInt32.le_iff_toNat_le.1 hle
  omega

theorem named_refine (k : SegmentKind) (c : Char) :
    (k.refine c).named = (k.named || c.isAlpha) := by
  unfold refine
  split
  · simp [*]
  · split
    · simp [*]
    · split <;> simp [*]

theorem dashed_refine (k : SegmentKind) (c : Char) :
    (k.refine c).dashed = true ↔ k.dashed = true ∨ c = '-' := by
  unfold refine
  split
  · rename_i h
    have hc : c ≠ '-' := by
      rintro rfl
      cases h
    simp [hc]
  · split
    · rename_i h
      have hc : c ≠ '-' := by
        rintro rfl
        cases h
      simp [hc]
    · split <;> simp [*]

theorem numeric_refine (k : SegmentKind) (c : Char) :
    (k.refine c).numeric = true ↔ k.numeric = true ∨ c.isDigit = true ∧ k.named = false := by
  unfold refine
  split
  · rename_i h
    simp [isDigit_of_isAlpha h]
  · split
    · rename_i h
      simp only [Bool.and_eq_true, Bool.not_eq_true'] at h
      simp [h]
    · rename_i h
      simp only [Bool.and_eq_true, Bool.not_eq_true'] at h
      split <;> simp [h]

theorem named_foldl (k : SegmentKind) (cs : List Char) :
    (cs.foldl refine k).named = true ↔ k.named = true ∨ ∃ c ∈ cs, c.isAlpha = true := by
  induction cs generalizing k with
  | nil => simp
  | cons c cs ih =>
    rw [List.foldl_cons, ih, named_refine, Bool.or_eq_true, List.exists_mem_cons_iff, or_assoc]

theorem dashed_foldl (k : SegmentKind) (cs : List Char) :
    (cs.foldl refine k).dashed = true ↔ k.dashed = true ∨ '-' ∈ cs := by
  induction cs generalizing k with
  | nil => simp
  | cons c cs ih =>
    rw [List.foldl_cons, ih, dashed_refine, List.mem_cons, or_assoc, eq_comm (a := c)]

theorem numeric_foldl (k : SegmentKind) (cs : List Char) : (cs.foldl refine k).numeric = true ↔
    k.numeric = true ∨ k.named = false ∧ DigitFirst cs := by
  induction cs generalizing k with
  | nil => simp [not_digitFirst_nil]
  | cons c cs ih =>
    rw [List.foldl_cons, ih, numeric_refine, named_refine, digitFirst_cons]
    cases k.named <;> simp [or_assoc]

theorem isOf_bracketed (cs : List Char) : IsOf true cs (cs.foldl refine .bracketed) where
  named := by simp [named_foldl, bracketed, blank]
  indexed := Path.foldl_refine_indexed _ _
  numeric := by simp [numeric_foldl, bracketed, blank]
  dashed := by simp [dashed_foldl, bracketed, blank]
  corrupted := Path.foldl_refine_corrupted _ _

theorem named_plain (cs : List Char) :
    (cs.foldl refine .blank).named = true ↔ ∃ c ∈ cs, c.isAlpha = true := by
  simp [named_foldl, blank]

theorem numeric_plain (cs : List Char) :
    (cs.foldl refine .blank).numeric = true ↔ DigitFirst cs := by
  simp [numeric_foldl, blank]

theorem dashed_plain (cs : List Char) : (cs.foldl refine .blank).dashed = true ↔ '-' ∈ cs := by
  simp [dashed_foldl, blank]

theorem isBlank_plain_iff (cs : List Char) : (cs.foldl refine .blank).isBlank = true ↔
    ∀ c ∈ cs, c.isAlpha = false ∧ c.isDigit = false ∧ c ≠ '-' := by
  constructor
  · intro hblank
    rw [isBlank, beq_iff_eq] at hblank
    have hletter : ∀ c ∈ cs, c.isAlpha = false := by
      intro c hc
      rw [← Bool.not_eq_true]
      intro ha
      cases hblank ▸ (named_plain cs).2 ⟨c, hc, ha⟩
    intro c hc
    refine ⟨hletter c hc, ?_, ?_⟩
    · rw [← Bool.not_eq_true]
      intro hd
      cases hblank ▸ (numeric_plain cs).2 (digitFirst_of_mem hc hd hletter)
    · rintro rfl
      cases hblank ▸ (dashed_plain cs).2 hc
  · intro hnone
    have hnamed : (cs.foldl refine .blank).named = false := by
      rw [← Bool.not_eq_true, named_plain]
      rintro ⟨c, hc, ha⟩
      rw [(hnone c hc).1] at ha
      cases ha
    have hnumeric : (cs.foldl refine .blank).numeric = false := by
      rw [← Bool.not_eq_true, numeric_plain]
      rintro ⟨before, d, after, rfl, hd, -⟩
      rw [(hnone d (by simp)).2.1] at hd
      cases hd
    have hdashed : (cs.foldl refine .blank).dashed = false := by
      rw [← Bool.not_eq_true, dashed_plain]
      intro hc
      exact (hnone _ hc).2.2 rfl
    rw [isBlank, beq_iff_eq]
    calc cs.foldl refine .blank
        = ⟨(cs.foldl refine .blank).named, (cs.foldl refine .blank).indexed,
            (cs.foldl refine .blank).numeric, (cs.foldl refine .blank).dashed,
            (cs.foldl refine .blank).corrupted⟩ := rfl
      _ = .blank := by
        rw [hnamed, hnumeric, hdashed, Path.foldl_refine_indexed, Path.foldl_refine_corrupted]
        rfl

theorem isOf_plain (cs : List Char) : IsOf false cs (cs.foldl refine .blank).close := by
  have hmarks := isBlank_plain_iff cs
  have hnumeric := numeric_plain cs
  have hdashed := dashed_plain cs
  unfold close
  -- the closing step sets a mark only where the text gave none
  split
  · rename_i hblank
    have hnone := hmarks.1 hblank
    rw [isBlank, beq_iff_eq] at hblank
    rw [hblank] at hnumeric hdashed
    exact ⟨by simpa using .inr hnone, rfl, hnumeric, hdashed, rfl⟩
  · rename_i hblank
    refine ⟨?_, Path.foldl_refine_indexed _ _, hnumeric, hdashed, Path.foldl_refine_corrupted _ _⟩
    rw [named_plain, ← hmarks]
    simp [hblank]

end SegmentKind

/-! ## Segments of a text -/

/-- Outside brackets, the character belongs to a segment. -/
def IsPlain (separator c : Char) : Prop := c ≠ '[' ∧ c ≠ ']' ∧ c ≠ separator

namespace Span

/-- The span is what an outermost pair of brackets encloses. -/
def IsEnclosed (s : Span) (cs : List Char) : Prop :=
  ∃ before after, cs = before ++ '[' :: (s.text ++ ']' :: after) ∧ openBrackets before = 0 ∧
    Balanced s.text ∧ s.start = before.length + 1

/-- The span is a longest run of characters that belong to a segment outside brackets. -/
def IsRun (separator : Char) (s : Span) (cs : List Char) : Prop :=
  s.text ≠ [] ∧ (∀ c ∈ s.text, IsPlain separator c) ∧
    ∃ before after, cs = before ++ (s.text ++ after) ∧ openBrackets before = 0 ∧
      (∀ c, before.getLast? = some c → ¬ IsPlain separator c) ∧
      (∀ c, after.head? = some c → ¬ IsPlain separator c) ∧ s.start = before.length

/-- The span is a segment of the text, and has the kind of its text. -/
inductive IsSegment (separator : Char) (cs : List Char) (s : Span) : Prop
  | enclosed (h : s.IsEnclosed cs) (hk : s.kind.IsOf true s.text)
  | run (h : s.IsRun separator cs) (hk : s.kind.IsOf false s.text)

/-- The span ends before the other one starts. -/
def Before (s t : Span) : Prop := s.stop < t.start

theorem start_le_stop (s : Span) : s.start ≤ s.stop := Nat.le_add_right _ _

instance : Std.Irrefl Before where
  irrefl s h := by
    have hle := s.start_le_stop
    unfold Before at h
    omega

instance : Std.Antisymm Before where
  antisymm s t h h' := by
    have hs := s.start_le_stop
    have ht := t.start_le_stop
    unfold Before at h h'
    omega

end Span

/-- The spans are the segments of the text, in its order.  A text without any segment is read as
one that has no text and bears no mark. -/
def IsReading (separator : Char) (cs : List Char) (spans : List Span) : Prop :=
  spans ≠ [] ∧ spans.Pairwise Span.Before ∧ (∀ s, s ∈ spans ↔ s.IsSegment separator cs) ∨
    (∀ s : Span, ¬ s.IsSegment separator cs) ∧ spans = [⟨cs.length, [], .blank⟩]

namespace Scanner

variable {separator : Char} {s : Scanner}

/-! ## The order of spans -/

theorem eq_of_mem_plain {span : Span} (h : span ∈ s.plain) :
    s.pending ≠ [] ∧ span = ⟨s.start, s.pending, s.kind.close⟩ := by
  unfold plain at h
  split at h
  · cases h
  · rename_i hp
    exact ⟨by simpa using hp, List.mem_singleton.1 h⟩

theorem step_cases (separator : Char) (s : Scanner) (c : Char) :
    (s.step separator c).1 = [] ∧ s.start ≤ (s.step separator c).2.start ∨
      (∃ k, (s.step separator c).1 = [⟨s.start, s.pending, k⟩]) ∧
        (s.step separator c).2.start = s.stop + 1 := by
  have hplain (t : Scanner) (ht : t.start = s.stop + 1) : s.plain = [] ∧ s.start ≤ t.start ∨
      (∃ k, s.plain = [⟨s.start, s.pending, k⟩]) ∧ t.start = s.stop + 1 := by
    unfold plain
    split
    · refine .inl ⟨rfl, ?_⟩
      rw [ht, stop]
      omega
    · exact .inr ⟨⟨_, rfl⟩, ht⟩
  unfold step
  split
  · split
    · exact hplain _ rfl
    · exact .inl ⟨rfl, Nat.le_refl _⟩
  · split
    · split
      · exact .inr ⟨⟨_, rfl⟩, rfl⟩
      · exact .inl ⟨rfl, Nat.le_refl _⟩
    · split
      · exact hplain _ rfl
      · exact .inl ⟨rfl, Nat.le_refl _⟩

theorem run_cons (s : Scanner) (found : Bool) (c : Char) (cs : List Char) :
    s.run separator found (c :: cs) = (s.step separator c).1 ++
      (s.step separator c).2.run separator (found || !(s.step separator c).1.isEmpty) cs := rfl

theorem finish_cases (s : Scanner) (found : Bool) :
    s.finish found = [] ∨ ∃ k : SegmentKind, s.finish found = [⟨s.start, s.pending, k⟩] ∧
      k.indexed = s.kind.indexed ∧
      (k.corrupted = true ↔ s.kind.corrupted = true ∨ s.depth ≠ 0 ∨ s.stray = true) := by
  obtain ⟨kind, hkind, hindexed, hcorrupted⟩ : ∃ kind : SegmentKind,
      (if s.depth ≠ 0 ∨ s.stray = true then { s.kind with corrupted := true } else s.kind) = kind ∧
      kind.indexed = s.kind.indexed ∧
      (kind.corrupted = true ↔ s.kind.corrupted = true ∨ s.depth ≠ 0 ∨ s.stray = true) := by
    refine ⟨_, rfl, ?_, ?_⟩
    · split <;> rfl
    · split
      · rename_i hend
        exact iff_of_true rfl (.inr hend)
      · rename_i hend
        exact (or_iff_left hend).symm
  unfold finish
  dsimp only
  rw [hkind]
  split
  · refine .inr ⟨kind.close, rfl, ?_, ?_⟩
    · rw [SegmentKind.close_indexed, hindexed]
    · rw [SegmentKind.close_corrupted, hcorrupted]
  · rename_i hp
    have hnil : s.pending = [] := by simpa using hp
    rw [hnil]
    split
    · exact .inr ⟨kind, rfl, hindexed, hcorrupted⟩
    · exact .inl rfl

/-- **The spans of a run lie one behind the other**, from the open one on. -/
theorem ordered_run (s : Scanner) (found : Bool) (cs : List Char) :
    (∀ span ∈ s.run separator found cs, s.start ≤ span.start) ∧
      (s.run separator found cs).Pairwise Span.Before := by
  induction cs generalizing s found with
  | nil =>
    rw [run]
    rcases finish_cases s found with hnone | ⟨k, hone, -⟩
    · rw [hnone]
      exact ⟨by simp, .nil⟩
    · rw [hone]
      refine ⟨fun span hm => ?_, List.pairwise_singleton _ _⟩
      rw [List.mem_singleton.1 hm]
  | cons c cs ih =>
    obtain ⟨hstart, hpair⟩ := ih (s.step separator c).2 (found || !(s.step separator c).1.isEmpty)
    rw [run_cons]
    rcases step_cases separator s c with ⟨hnone, hle⟩ | ⟨⟨k, hone⟩, hnext⟩
    · rw [hnone] at hstart hpair ⊢
      exact ⟨fun span hm => Nat.le_trans hle (hstart span hm), hpair⟩
    · rw [hone] at hstart hpair ⊢
      have hstop : s.start ≤ s.stop := Nat.le_add_right _ _
      constructor
      · intro span hm
        rcases List.mem_cons.1 hm with rfl | hm
        · exact Nat.le_refl _
        · have := hstart span hm
          omega
      · refine List.pairwise_cons.2 ⟨fun span hm => ?_, hpair⟩
        have hbehind := hstart span hm
        rw [hnext] at hbehind
        exact hbehind

/-! ## Where spans begin -/

/-- The open span begins behind an opening bracket, or outside brackets behind a character that
belongs to no segment. -/
def Anchored (separator : Char) (s : Scanner) (before : List Char) : Prop :=
  s.stray = false →
    (s.depth ≤ 0 → ∀ c, (before.take s.start).getLast? = some c → ¬ IsPlain separator c) ∧
      (1 ≤ s.depth → (before.take s.start).getLast? = some '[')

theorem anchored_push {before : List Char} {t : Scanner} (c : Char)
    (h : s.Anchored separator before) (hle : s.start ≤ before.length) (hstart : t.start = s.start)
    (hstray : t.stray = false → s.stray = false)
    (hout : t.stray = false → t.depth ≤ 0 → s.depth ≤ 0) (hin : 1 ≤ t.depth → 1 ≤ s.depth) :
    t.Anchored separator (before ++ [c]) := by
  intro ht
  obtain ⟨houtside, hinside⟩ := h (hstray ht)
  rw [hstart, List.take_append_of_le_length hle]
  exact ⟨fun hd => houtside (hout ht hd), fun hd => hinside (hin hd)⟩

theorem anchored_reopen {before : List Char} {t : Scanner} {c : Char}
    (hstart : t.start = before.length + 1) (hout : t.depth ≤ 0 → ¬ IsPlain separator c)
    (hin : 1 ≤ t.depth → c = '[') : t.Anchored separator (before ++ [c]) := by
  intro _
  have htake : (before ++ [c]).take t.start = before ++ [c] := by
    rw [hstart]
    exact List.take_of_length_le (by simp)
  rw [htake, List.getLast?_concat]
  refine ⟨fun hd d hc => ?_, fun hd => by rw [hin hd]⟩
  rw [← Option.some.inj hc]
  exact hout hd

theorem Anchored.step {before : List Char} (h : s.Anchored separator before)
    (hlocated : s.Located before) (c : Char) :
    (s.step separator c).2.Anchored separator (before ++ [c]) := by
  obtain ⟨hle, hdrop⟩ := hlocated
  have hstop : s.start + s.pending.length + 1 = before.length + 1 := by
    rw [← hdrop, List.length_drop]
    omega
  unfold Scanner.step
  split
  · rename_i hc
    split
    · exact anchored_reopen hstop (fun (hd : (1 : Int) ≤ 0) => absurd hd (by decide)) fun _ => hc
    · rename_i hd
      refine anchored_push c h hle rfl id (fun _ ht => ?_) fun ht => ?_
      · change s.depth + 1 ≤ 0 at ht
        omega
      · change 1 ≤ s.depth + 1 at ht
        omega
  · split
    · rename_i hc
      split
      · refine anchored_reopen hstop (fun _ hp => hp.2.1 hc) ?_
        intro (hd : (1 : Int) ≤ 0)
        exact absurd hd (by decide)
      · rename_i hd
        refine anchored_push c h hle rfl ?_ ?_ fun ht => ?_
        · intro hs
          exact (Bool.or_eq_false_iff.1 hs).1
        · intro hs ht
          have hopen : ¬ s.depth ≤ 0 := by simpa using (Bool.or_eq_false_iff.1 hs).2
          change s.depth - 1 ≤ 0 at ht
          omega
        · change 1 ≤ s.depth - 1 at ht
          omega
    · split
      · rename_i hsep
        refine anchored_reopen hstop (fun _ hp => hp.2.2 hsep.1) fun hd => ?_
        change 1 ≤ s.depth at hd
        omega
      · exact anchored_push c h hle rfl id (fun _ ht => ht) id

theorem anchored_after {before : List Char} (h : s.Anchored separator before)
    (hlocated : s.Located before) (cs : List Char) :
    (s.after separator cs).Anchored separator (before ++ cs) ∧
      (s.after separator cs).Located (before ++ cs) := by
  induction cs generalizing s before with
  | nil => simpa using ⟨h, hlocated⟩
  | cons c cs ih =>
    have hnext := ih (h.step hlocated c) (hlocated.step c []).1
    rwa [List.append_assoc, List.singleton_append] at hnext

/-! ## What is open in a balanced text -/

variable {before after : List Char}

theorem level_of_balanced (separator : Char) (h : Balanced (before ++ after)) :
    (initial.after separator before).stray = false ∧
      (initial.after separator before).depth = openBrackets before := by
  obtain ⟨-, hs⟩ := (balanced_iff_after separator _).1 h
  refine ⟨?_, ?_⟩
  · rw [← Bool.not_eq_true]
    intro hstray
    rw [after_append, stray_after_of_stray separator hstray] at hs
    cases hs
  · rw [depth_after]
    exact Int.zero_add _

theorem open_after (separator : Char) (before : List Char) :
    (initial.after separator before).Tracked separator ∧
      (initial.after separator before).Sound ∧
      (initial.after separator before).Anchored separator before ∧
      (initial.after separator before).start ≤ before.length ∧
      before = before.take (initial.after separator before).start ++
        (initial.after separator before).pending := by
  have hinitial : initial.Anchored separator [] := by
    intro _
    exact ⟨by simp, fun (hd : (1 : Int) ≤ 0) => absurd hd (by decide)⟩
  obtain ⟨hanchored, hle, hdrop⟩ := anchored_after hinitial ⟨Nat.le_refl 0, rfl⟩ before
  obtain ⟨hsound, -⟩ := forall_emitted_of_step separator (I := Sound) (P := fun _ => True)
    (fun s c hs => ⟨(hs.step separator c).1, fun _ _ => trivial⟩) sound_initial before
  refine ⟨tracked_after (tracked_initial separator) sound_initial before, hsound, hanchored, hle,
    ?_⟩
  rw [← hdrop]
  exact (List.take_append_drop _ _).symm

theorem open_outside (h : Balanced (before ++ after)) (hd : openBrackets before = 0) :
    ∃ pre, before = pre ++ (initial.after separator before).pending ∧ openBrackets pre = 0 ∧
      (∀ c, pre.getLast? = some c → ¬ IsPlain separator c) ∧
      (∀ c ∈ (initial.after separator before).pending, IsPlain separator c) ∧
      (initial.after separator before).start = pre.length ∧
      (initial.after separator before).kind =
        (initial.after separator before).pending.foldl SegmentKind.refine .blank := by
  obtain ⟨hs, hdepth⟩ := level_of_balanced separator h
  obtain ⟨htracked, -, hanchored, hle, hsplit⟩ := open_after separator before
  have hlevel : (initial.after separator before).depth ≤ 0 := by omega
  obtain ⟨hplain, hkind⟩ := (htracked hs).1 hlevel
  have hpending : openBrackets (initial.after separator before).pending = 0 := by
    have hopen : '[' ∉ (initial.after separator before).pending :=
      fun hm => (hplain _ hm).1 rfl
    have hclose : ']' ∉ (initial.after separator before).pending :=
      fun hm => (hplain _ hm).2.1 rfl
    exact (balanced_iff_openBrackets.1 (balanced_of_forall_ne hopen hclose)).2
  refine ⟨_, hsplit, ?_, (hanchored hs).1 hlevel, hplain, ?_, hkind⟩
  · rw [hsplit, openBrackets_append, hpending] at hd
    omega
  · rw [List.length_take]
    omega

theorem open_inside (h : Balanced (before ++ after)) (hd : openBrackets before = 1) :
    ∃ pre, before = pre ++ '[' :: (initial.after separator before).pending ∧
      openBrackets pre = 0 ∧ Balanced (initial.after separator before).pending ∧
      (initial.after separator before).start = pre.length + 1 ∧
      (initial.after separator before).kind =
        (initial.after separator before).pending.foldl SegmentKind.refine .bracketed := by
  obtain ⟨hs, hdepth⟩ := level_of_balanced separator h
  obtain ⟨htracked, hsound, hanchored, hle, hsplit⟩ := open_after separator before
  have hinside : 1 ≤ (initial.after separator before).depth := by omega
  have hbalanced := hsound.balanced_pending hs (by omega)
  obtain ⟨pre, hpre⟩ := List.getLast?_eq_some_iff.1 ((hanchored hs).2 hinside)
  have hlength := congrArg List.length hpre
  rw [hpre, List.append_assoc, List.singleton_append] at hsplit
  refine ⟨pre, hsplit, ?_, hbalanced, ?_, (htracked hs).2 hinside⟩
  · have hpending := (balanced_iff_openBrackets.1 hbalanced).2
    rw [hsplit, openBrackets_append, ← List.singleton_append, openBrackets_append,
      openBrackets_open, hpending] at hd
    omega
  · rw [List.length_take, List.length_append, List.length_singleton] at hlength
    omega

/-! ## The spans that are found are segments -/

theorem mem_emitted_iff {cs : List Char} {span : Span} : span ∈ s.emitted separator cs ↔
    ∃ before c after, cs = before ++ c :: after ∧
      span ∈ ((s.after separator before).step separator c).1 := by
  induction cs generalizing s with
  | nil => simp [emitted]
  | cons x cs ih =>
    rw [emitted, List.mem_append, ih]
    constructor
    · rintro (hm | ⟨before, c, after, rfl, hm⟩)
      · exact ⟨[], x, cs, rfl, hm⟩
      · exact ⟨x :: before, c, after, rfl, hm⟩
    · rintro ⟨before, c, after, h, hm⟩
      cases before with
      | nil =>
        obtain ⟨rfl, rfl⟩ := List.cons.inj h
        exact .inl hm
      | cons y before =>
        obtain ⟨rfl, rfl⟩ := List.cons.inj h
        exact .inr ⟨before, c, after, rfl, hm⟩

theorem isSegment_of_mem_plain (h : Balanced (before ++ after)) (hd : openBrackets before = 0)
    (hafter : ∀ c, after.head? = some c → ¬ IsPlain separator c) {span : Span}
    (hm : span ∈ (initial.after separator before).plain) :
    span.IsSegment separator (before ++ after) := by
  obtain ⟨hne, rfl⟩ := eq_of_mem_plain hm
  obtain ⟨pre, hsplit, hlevel, hpre, hplain, hstart, hkind⟩ := open_outside h hd
  refine .run ⟨hne, hplain, pre, after, ?_, hlevel, hpre, hafter, hstart⟩ ?_
  · rw [← List.append_assoc, ← hsplit]
  · dsimp only
    rw [hkind]
    exact SegmentKind.isOf_plain _

theorem isSegment_of_mem_step {c : Char} (h : Balanced (before ++ c :: after)) {span : Span}
    (hm : span ∈ ((initial.after separator before).step separator c).1) :
    span.IsSegment separator (before ++ c :: after) := by
  obtain ⟨-, hdepth⟩ := level_of_balanced separator h
  unfold step at hm
  split at hm
  · rename_i hc
    split at hm
    · refine isSegment_of_mem_plain h (by omega) (fun d hd hp => hp.1 ?_) hm
      rw [← hc]
      exact (Option.some.inj hd).symm
    · cases hm
  · split at hm
    · rename_i hc
      subst hc
      split at hm
      · obtain ⟨pre, hsplit, hlevel, hbalanced, hstart, hkind⟩ := open_inside h (by omega)
        rw [List.mem_singleton.1 hm]
        refine .enclosed ⟨pre, after, ?_, hlevel, hbalanced, hstart⟩ ?_
        · conv_lhs => rw [hsplit]
          simp
        · dsimp only
          rw [hkind]
          exact SegmentKind.isOf_bracketed _
      · cases hm
    · split at hm
      · rename_i hsep
        refine isSegment_of_mem_plain h (by omega) (fun d hd hp => hp.2.2 ?_) hm
        rw [← hsep.1]
        exact (Option.some.inj hd).symm
      · cases hm

/-! ## The segments are found -/

theorem plain_of_isRun {run : List Char} (h : Balanced (before ++ (run ++ after)))
    (hd : openBrackets before = 0) (hne : run ≠ []) (hrun : ∀ c ∈ run, IsPlain separator c)
    (hbefore : ∀ c, before.getLast? = some c → ¬ IsPlain separator c) :
    (initial.after separator (before ++ run)).plain =
      [⟨before.length, run, (run.foldl SegmentKind.refine .blank).close⟩] := by
  obtain ⟨-, hdepth⟩ := level_of_balanced separator h
  obtain ⟨pre, hsplit, -, -, hplain, hstart, hkind⟩ := open_outside h hd
  -- nothing is open in front of the run, since what is open there would belong to it
  have hpending : (initial.after separator before).pending = [] := by
    by_contra hopen
    obtain ⟨c, hlast⟩ : ∃ c, (initial.after separator before).pending.getLast? = some c :=
      ⟨_, List.getLast?_eq_some_getLast hopen⟩
    refine hbefore c ?_ (hplain c (List.mem_of_getLast? hlast))
    rw [hsplit, List.getLast?_append, hlast]
    rfl
  rw [hpending, List.append_nil] at hsplit
  rw [hpending] at hkind
  obtain ⟨-, hafter⟩ := scan_plain separator (s := initial.after separator before)
    (by omega) hrun
  rw [after_append, hafter, plain]
  simp [hpending, hne, hstart, hkind, ← hsplit]

theorem mem_of_isRun {cs : List Char} (h : Balanced cs) {span : Span}
    (hspan : span.IsRun separator cs) (hk : span.kind.IsOf false span.text) :
    span ∈ initial.emitted separator cs ++ (initial.after separator cs).plain := by
  obtain ⟨hne, hrun, before, after, rfl, hd, hbefore, hafter, hstart⟩ := hspan
  have hplain := plain_of_isRun h hd hne hrun hbefore
  have heq : span = ⟨before.length, span.text,
      (span.text.foldl SegmentKind.refine .blank).close⟩ := by
    rw [← hstart, ← hk.unique (SegmentKind.isOf_plain span.text)]
  cases after with
  | nil =>
    rw [List.append_nil, hplain]
    exact List.mem_append_right _ (List.mem_singleton.2 heq)
  | cons c rest =>
    refine List.mem_append_left _ (mem_emitted_iff.2 ⟨before ++ span.text, c, rest, by simp, ?_⟩)
    have hbalanced : Balanced (before ++ span.text ++ c :: rest) := by simpa using h
    have hlevel := level_of_balanced separator hbalanced
    have hzero : (initial.after separator (before ++ span.text)).depth = 0 := by
      have hopen : '[' ∉ span.text := fun hm => (hrun _ hm).1 rfl
      have hclose : ']' ∉ span.text := fun hm => (hrun _ hm).2.1 rfl
      have htext := (balanced_iff_openBrackets.1 (balanced_of_forall_ne hopen hclose)).2
      rw [hlevel.2, openBrackets_append, hd, htext]
      rfl
    have hend : ((initial.after separator (before ++ span.text)).step separator c).1 =
        (initial.after separator (before ++ span.text)).plain := by
      have hc := hafter c rfl
      unfold step
      split
      · rfl
      · split
        · -- a closing bracket here would be stray
          rename_i hclose
          have hbehind : Balanced (before ++ span.text ++ [c] ++ rest) := by simpa using h
          have hnext := (level_of_balanced separator hbehind).1
          rw [after_append, after_cons, after_nil, stray_step, hzero, hclose] at hnext
          simp at hnext
        · rename_i hopen hclose
          have hsep : c = separator := by
            by_contra hsep
            exact hc ⟨hopen, hclose, hsep⟩
          rw [if_pos ⟨hsep, hzero⟩]
    rw [hend, hplain]
    exact List.mem_singleton.2 heq

theorem mem_emitted_of_isEnclosed {cs : List Char} (h : Balanced cs) {span : Span}
    (hspan : span.IsEnclosed cs) (hk : span.kind.IsOf true span.text) :
    span ∈ initial.emitted separator cs := by
  obtain ⟨before, after, rfl, hd, hbalanced, hstart⟩ := hspan
  obtain ⟨hs, hdepth⟩ := level_of_balanced separator h
  obtain ⟨hpre, htotal⟩ := balanced_iff_openBrackets.1 hbalanced
  have hopen : (initial.after separator (before ++ ['['])) =
      { (initial.after separator before).reopen .bracketed with depth := 1 } := by
    rw [after_append, after_cons, after_nil, step, if_pos rfl, if_pos (by omega)]
  have hinside := scan_inside separator (s := initial.after separator (before ++ ['[']))
    (by rw [hopen]) fun pre (hp : pre <+: span.text) => by
      have := hpre pre hp
      rw [hopen]
      show 1 ≤ 1 + openBrackets pre
      omega
  have hstop : (initial.after separator before).stop = before.length := by
    rw [stop_after]
    exact Nat.zero_add _
  refine mem_emitted_iff.2 ⟨before ++ ['['] ++ span.text, ']', after, by simp, ?_⟩
  have hstep : ((initial.after separator (before ++ ['['] ++ span.text)).step separator ']').1 =
      [⟨before.length + 1, span.text, span.text.foldl SegmentKind.refine .bracketed⟩] := by
    rw [after_append, hinside.2, hopen, htotal, ← hstop]
    rfl
  rw [hstep, List.mem_singleton, ← hstart, ← hk.unique (SegmentKind.isOf_bracketed span.text)]

end Scanner

/-! ## The reading of a balanced text -/

variable {separator : Char} {cs : List Char}

theorem exists_ne_of_isSegment (hopen : separator ≠ '[') {s : Span}
    (h : s.IsSegment separator cs) : ∃ c ∈ cs, c ≠ separator := by
  cases h with
  | enclosed h =>
    obtain ⟨before, after, rfl, -⟩ := h
    exact ⟨'[', by simp, hopen.symm⟩
  | run h =>
    obtain ⟨hne, hrun, before, after, rfl, -⟩ := h
    obtain ⟨c, hc⟩ := List.exists_mem_of_ne_nil _ hne
    exact ⟨c, by simp [hc], (hrun c hc).2.2⟩

/-- **The spans of a balanced text are its segments.** -/
theorem mem_scan_iff (h : Balanced cs) (hx : ∃ c ∈ cs, c ≠ separator) {s : Span} :
    s ∈ scan separator cs ↔ s.IsSegment separator cs := by
  rw [scan_eq_emitted h hx]
  constructor
  · intro hm
    rcases List.mem_append.1 hm with hm | hm
    · obtain ⟨before, c, after, rfl, hstep⟩ := Scanner.mem_emitted_iff.1 hm
      exact Scanner.isSegment_of_mem_step h hstep
    · have hend : Balanced (cs ++ []) := by rwa [List.append_nil]
      have hnil := Scanner.isSegment_of_mem_plain hend (balanced_iff_openBrackets.1 h).2 (by simp)
        hm
      rwa [List.append_nil] at hnil
  · intro hs
    cases hs with
    | enclosed hs hk => exact List.mem_append_left _ (Scanner.mem_emitted_of_isEnclosed h hs hk)
    | run hs hk => exact Scanner.mem_of_isRun h hs hk

theorem ordered_scan (separator : Char) (cs : List Char) :
    (scan separator cs).Pairwise Span.Before :=
  (Scanner.ordered_run _ _ _).2

theorem isReading_scan (hopen : separator ≠ '[') (hclose : separator ≠ ']') (h : Balanced cs) :
    IsReading separator cs (scan separator cs) := by
  by_cases hx : ∃ c ∈ cs, c ≠ separator
  · exact .inl ⟨Path.scan_ne_nil _ _, ordered_scan _ _, fun s => mem_scan_iff h hx⟩
  · refine .inr ⟨fun s hs => hx (exists_ne_of_isSegment hopen hs), ?_⟩
    exact Path.scan_of_forall_eq hopen hclose (by simpa using hx)

theorem IsReading.unique {spans spans' : List Span} (h : IsReading separator cs spans)
    (h' : IsReading separator cs spans') : spans = spans' := by
  have hclash {spans : List Span} (hnone : ∀ s : Span, ¬ s.IsSegment separator cs)
      (hne : spans ≠ []) (hmem : ∀ s, s ∈ spans ↔ s.IsSegment separator cs) : False := by
    obtain ⟨s, hs⟩ := List.exists_mem_of_ne_nil _ hne
    exact hnone s ((hmem s).1 hs)
  rcases h with ⟨hne, hord, hmem⟩ | ⟨hnone, rfl⟩
  · rcases h' with ⟨-, hord', hmem'⟩ | ⟨hnone, -⟩
    · exact hord.eq_of_mem_iff hord' fun s => (hmem s).trans (hmem' s).symm
    · exact (hclash hnone hne hmem).elim
  · rcases h' with ⟨hne, -, hmem⟩ | ⟨-, rfl⟩
    · exact (hclash hnone hne hmem).elim
    · rfl

/-- **A balanced text has one reading, and parsing gives its segments.**  They are what its
outermost brackets enclose and the longest runs outside brackets, in the order of the text, each of
the kind that its text has. -/
theorem reading_of_balanced (hopen : separator ≠ '[') (hclose : separator ≠ ']') {text : String}
    (h : Balanced text.toList) : (∃! spans, IsReading separator text.toList spans) ∧
      ∀ spans, IsReading separator text.toList spans → spans = scan separator text.toList ∧
        (Path.parseWith separator text).segments = spans.map Span.segment := by
  have hscan := isReading_scan hopen hclose h
  refine ⟨⟨_, hscan, fun spans hspans => hspans.unique hscan⟩, ?_⟩
  intro spans hspans
  obtain rfl := hspans.unique hscan
  exact ⟨rfl, rfl⟩

namespace Sample

/-- Separators that repeat or stand in brackets, nested and empty brackets, and text that touches
a bracket. -/
theorem shelf_is_read : ('→' ≠ '[' ∧ '→' ≠ ']' ∧ Balanced "→a1→→-[7→[x]]9b[]_".toList) ∧
    IsReading '→' "→a1→→-[7→[x]]9b[]_".toList
      [⟨1, ['a', '1'], ⟨true, false, false, false, false⟩⟩,
        ⟨5, ['-'], ⟨false, false, false, true, false⟩⟩,
        ⟨7, ['7', '→', '[', 'x', ']'], ⟨true, true, true, false, false⟩⟩,
        ⟨13, ['9', 'b'], ⟨true, false, true, false, false⟩⟩,
        ⟨16, [], ⟨false, true, false, false, false⟩⟩,
        ⟨17, ['_'], ⟨true, false, false, false, false⟩⟩] := by
  have hbalanced : Balanced "→a1→→-[7→[x]]9b[]_".toList := by decide
  refine ⟨⟨by decide, by decide, hbalanced⟩, ?_⟩
  obtain ⟨⟨spans, hspans, -⟩, hscan⟩ :=
    reading_of_balanced (show '→' ≠ '[' by decide) (by decide) hbalanced
  have heq := (hscan spans hspans).1
  rw [heq] at hspans
  exact hspans

end Sample

end ConfigBind
