import ConfigBind.Path.Scan
import Mathlib.Data.List.Infix

/-!
# Brackets in a path text

`Balanced` says that the brackets of a text match: no prefix closes more than it opens, and in all
as many are closed as are opened.  The scanner keeps exactly this count (`depth_after`,
`stray_after_iff`), so it marks a text as corrupted if and only if the text is not balanced
(`balanced_iff_after`).

* `scan_bracketed`: a balanced text in brackets is one span.
* `balanced_of_mem_scan`: the spans of a balanced text are balanced.
* `exists_not_blank_mem_scan`: a text with a character other than the separator has a span that
  bears a mark.
-/

namespace ConfigBind

/-- How many brackets a text leaves open; negative if it closes more than it opens. -/
def openBrackets (cs : List Char) : Int := cs.count '[' - cs.count ']'

/-- The brackets of a text match. -/
def Balanced (cs : List Char) : Prop :=
  (∀ pre, pre <+: cs → pre.count ']' ≤ pre.count '[') ∧ cs.count '[' = cs.count ']'

instance (cs : List Char) : Decidable (Balanced cs) :=
  decidable_of_iff
    ((∀ pre ∈ cs.inits, pre.count ']' ≤ pre.count '[') ∧ cs.count '[' = cs.count ']')
    (by simp only [Balanced, List.mem_inits])

@[simp] theorem openBrackets_nil : openBrackets [] = 0 := rfl

theorem openBrackets_append (xs ys : List Char) :
    openBrackets (xs ++ ys) = openBrackets xs + openBrackets ys := by
  simp only [openBrackets, List.count_append]
  omega

theorem openBrackets_open : openBrackets ['['] = 1 := rfl

theorem openBrackets_close : openBrackets [']'] = -1 := rfl

theorem openBrackets_other {c : Char} (ho : c ≠ '[') (hc : c ≠ ']') : openBrackets [c] = 0 := by
  simp [openBrackets, ho, hc]

theorem balanced_iff_openBrackets {cs : List Char} :
    Balanced cs ↔ (∀ pre, pre <+: cs → 0 ≤ openBrackets pre) ∧ openBrackets cs = 0 := by
  simp only [Balanced, openBrackets]
  constructor
  · rintro ⟨hpre, htotal⟩
    exact ⟨fun pre h => by have := hpre pre h; omega, by omega⟩
  · rintro ⟨hpre, htotal⟩
    exact ⟨fun pre h => by have := hpre pre h; omega, by omega⟩

theorem balanced_of_forall_ne {cs : List Char} (ho : '[' ∉ cs) (hc : ']' ∉ cs) : Balanced cs := by
  refine ⟨fun pre h => ?_, ?_⟩
  · rw [List.count_eq_zero_of_not_mem fun hm => hc (h.subset hm)]
    exact Nat.zero_le _
  · rw [List.count_eq_zero_of_not_mem ho, List.count_eq_zero_of_not_mem hc]

namespace SegmentKind

@[simp] theorem refine_indexed (k : SegmentKind) (c : Char) :
    (k.refine c).indexed = k.indexed := by
  unfold refine
  split <;> [rfl; split <;> [rfl; split <;> rfl]]

@[simp] theorem refine_corrupted (k : SegmentKind) (c : Char) :
    (k.refine c).corrupted = k.corrupted := by
  unfold refine
  split <;> [rfl; split <;> [rfl; split <;> rfl]]

theorem refine_bracket (k : SegmentKind) {c : Char} (h : c = '[' ∨ c = ']') : k.refine c = k := by
  rcases h with rfl | rfl <;> rfl

theorem not_isBlank_of_indexed {k : SegmentKind} (h : k.indexed = true) : k.isBlank = false := by
  simp only [isBlank, beq_eq_false_iff_ne]
  rintro rfl
  exact absurd h (by decide)

theorem not_isBlank_of_corrupted {k : SegmentKind} (h : k.corrupted = true) :
    k.isBlank = false := by
  simp only [isBlank, beq_eq_false_iff_ne]
  rintro rfl
  exact absurd h (by decide)

theorem close_not_isBlank (k : SegmentKind) : k.close.isBlank = false := by
  unfold close
  split
  · rfl
  · simpa using ‹¬k.isBlank = true›

@[simp] theorem close_indexed (k : SegmentKind) : k.close.indexed = k.indexed := by
  unfold close
  split
  · rename_i h
    rw [eq_of_beq h, blank]
  · rfl

@[simp] theorem close_corrupted (k : SegmentKind) : k.close.corrupted = k.corrupted := by
  unfold close
  split
  · rename_i h
    simp only [isBlank, beq_iff_eq] at h
    subst h
    rfl
  · rfl

end SegmentKind

namespace Scanner

/-! ## What a scan has read -/

/-- The scan after some characters. -/
def after (separator : Char) (s : Scanner) (cs : List Char) : Scanner :=
  cs.foldl (fun s c => (s.step separator c).2) s

/-- The spans that some characters end. -/
def emitted (separator : Char) (s : Scanner) : List Char → List Span
  | [] => []
  | c :: cs => (s.step separator c).1 ++ (s.step separator c).2.emitted separator cs

variable (separator : Char) {s : Scanner}

@[simp] theorem after_nil : s.after separator [] = s := rfl

@[simp] theorem after_cons (c : Char) (cs : List Char) :
    s.after separator (c :: cs) = (s.step separator c).2.after separator cs := rfl

theorem run_eq (found : Bool) (cs : List Char) :
    s.run separator found cs = s.emitted separator cs ++
      (s.after separator cs).finish (found || !(s.emitted separator cs).isEmpty) := by
  induction cs generalizing s found with
  | nil => simp [run, emitted]
  | cons c cs ih =>
    simp only [run, ih, emitted, after_cons, List.append_assoc]
    congr 3
    cases (s.step separator c).1 <;> simp

/-- What every step keeps holds after any characters, and what it makes true of the spans that it
ends is true of all that were ended. -/
theorem forall_emitted_of_step {I : Scanner → Prop} {P : Span → Prop}
    (hstep : ∀ s c, I s → I (s.step separator c).2 ∧ ∀ span ∈ (s.step separator c).1, P span)
    (h : I s) (cs : List Char) :
    I (s.after separator cs) ∧ ∀ span ∈ s.emitted separator cs, P span := by
  induction cs generalizing s with
  | nil => exact ⟨h, by simp [emitted]⟩
  | cons c cs ih =>
    obtain ⟨hnext, hended⟩ := hstep s c h
    obtain ⟨hafter, hrest⟩ := ih hnext
    refine ⟨hafter, fun span hm => ?_⟩
    rcases List.mem_append.1 hm with hm | hm
    · exact hended span hm
    · exact hrest span hm

theorem depth_step (c : Char) : (s.step separator c).2.depth = s.depth + openBrackets [c] := by
  unfold step
  split
  · subst c
    rw [openBrackets_open]
    split
    · simp [*]
    · rfl
  · split
    · subst c
      rw [openBrackets_close]
      split
      · simp [*]
      · rfl
    · rw [openBrackets_other ‹_› ‹_›, Int.add_zero]
      split <;> rfl

theorem depth_after (cs : List Char) :
    (s.after separator cs).depth = s.depth + openBrackets cs := by
  induction cs generalizing s with
  | nil => simp
  | cons c cs ih =>
    rw [after_cons, ih, depth_step, Int.add_assoc, ← openBrackets_append, List.singleton_append]

theorem stray_step (c : Char) :
    (s.step separator c).2.stray = (s.stray || decide (c = ']' ∧ s.depth ≤ 0)) := by
  unfold step
  split
  · subst c
    split <;> simp [reopen, push]
  · split
    · subst c
      split
      · have : ¬ s.depth ≤ 0 := by omega
        simp [reopen, this]
      · simp
    · have hc : ¬ (c = ']' ∧ s.depth ≤ 0) := fun h => ‹¬c = ']'› h.1
      rw [decide_eq_false hc, Bool.or_false]
      split <;> rfl

theorem stray_after_of_stray (h : s.stray = true) (cs : List Char) :
    (s.after separator cs).stray = true := by
  induction cs generalizing s with
  | nil => exact h
  | cons c cs ih => exact ih (by rw [stray_step separator, h, Bool.true_or])

theorem stray_after_iff (hd : 0 ≤ s.depth) (hs : s.stray = false) (cs : List Char) :
    (s.after separator cs).stray = true ↔ ∃ pre, pre <+: cs ∧ s.depth + openBrackets pre < 0 := by
  induction cs generalizing s with
  | nil => simp [hs, hd]
  | cons c cs ih =>
    have hstray := stray_step separator (s := s) c
    have hdepth := depth_step separator (s := s) c
    rw [hs, Bool.false_or] at hstray
    have hsplit : (∃ pre, pre <+: c :: cs ∧ s.depth + openBrackets pre < 0) ↔
        ∃ pre, pre <+: cs ∧ (s.step separator c).2.depth + openBrackets pre < 0 := by
      constructor
      · rintro ⟨pre, hpre, hlt⟩
        rcases List.prefix_cons_iff.1 hpre with rfl | ⟨t, rfl, ht⟩
        · rw [openBrackets_nil] at hlt
          omega
        · rw [← List.singleton_append, openBrackets_append] at hlt
          exact ⟨t, ht, by omega⟩
      · rintro ⟨t, ht, hlt⟩
        refine ⟨c :: t, List.cons_prefix_cons.2 ⟨rfl, ht⟩, ?_⟩
        rw [← List.singleton_append, openBrackets_append]
        omega
    rw [after_cons, hsplit]
    by_cases hc : c = ']' ∧ s.depth ≤ 0
    · -- the bracket is stray itself, so the empty prefix of the rest is the witness
      refine iff_of_true (stray_after_of_stray separator (by rw [hstray, decide_eq_true hc]) cs) ?_
      obtain ⟨rfl, hle⟩ := hc
      refine ⟨[], List.nil_prefix, ?_⟩
      rw [hdepth, openBrackets_close, openBrackets_nil]
      omega
    · refine ih ?_ (by rw [hstray, decide_eq_false hc])
      rw [hdepth]
      by_cases hclose : c = ']'
      · subst hclose
        rw [openBrackets_close]
        have : ¬ s.depth ≤ 0 := fun h => hc ⟨rfl, h⟩
        omega
      · by_cases hopen : c = '['
        · subst hopen
          rw [openBrackets_open]
          omega
        · rw [openBrackets_other hopen hclose]
          omega

/-- **The scanner finds nothing wrong with a text exactly if its brackets match.** -/
theorem balanced_iff_after (cs : List Char) :
    Balanced cs ↔ (initial.after separator cs).depth = 0 ∧
      (initial.after separator cs).stray = false := by
  have hstray := stray_after_iff separator (s := initial) (Int.le_refl 0) rfl cs
  have hdepth := depth_after separator (s := initial) cs
  rw [balanced_iff_openBrackets, hdepth, ← Bool.not_eq_true, hstray]
  simp only [initial, Int.zero_add, not_exists, not_and, Int.not_lt]
  exact and_comm

theorem after_append (xs ys : List Char) :
    s.after separator (xs ++ ys) = (s.after separator xs).after separator ys :=
  List.foldl_append

theorem emitted_append (xs ys : List Char) :
    s.emitted separator (xs ++ ys) =
      s.emitted separator xs ++ (s.after separator xs).emitted separator ys := by
  induction xs generalizing s with
  | nil => rfl
  | cons x xs ih => simp [emitted, ih, List.append_assoc]

/-! ## Inside brackets, and in plain text -/

theorem step_inside {c : Char} (hd : 1 ≤ s.depth) (hc : 1 ≤ s.depth + openBrackets [c]) :
    s.step separator c = ([], { s with
      depth := s.depth + openBrackets [c]
      pending := s.pending ++ [c]
      kind := s.kind.refine c }) := by
  by_cases hopen : c = '['
  · subst hopen
    rw [SegmentKind.refine_bracket s.kind (.inl rfl), openBrackets_open]
    simp [step, push, show s.depth ≠ 0 by omega]
  · by_cases hclose : c = ']'
    · subst hclose
      rw [openBrackets_close] at hc
      rw [SegmentKind.refine_bracket s.kind (.inr rfl), openBrackets_close]
      simp [step, push, show s.depth ≠ 1 by omega, show ¬ s.depth ≤ 0 by omega, Int.sub_eq_add_neg]
    · rw [openBrackets_other hopen hclose]
      simp [step, push, hopen, hclose, show s.depth ≠ 0 by omega]

theorem scan_inside {cs : List Char} (hd : 1 ≤ s.depth)
    (h : ∀ pre, pre <+: cs → 1 ≤ s.depth + openBrackets pre) :
    s.emitted separator cs = [] ∧ s.after separator cs = { s with
      depth := s.depth + openBrackets cs
      pending := s.pending ++ cs
      kind := cs.foldl SegmentKind.refine s.kind } := by
  induction cs generalizing s with
  | nil => simp [emitted]
  | cons c cs ih =>
    have hc : 1 ≤ s.depth + openBrackets [c] := h [c] (by simp)
    have hstep := step_inside separator hd hc
    have hrest := ih (s := (s.step separator c).2) (by rw [hstep]; exact hc) fun pre hpre => by
      have := h (c :: pre) (List.cons_prefix_cons.2 ⟨rfl, hpre⟩)
      rw [← List.singleton_append, openBrackets_append] at this
      rw [hstep]
      simpa only [Int.add_assoc] using this
    rw [emitted, after_cons, hrest.1, hrest.2, hstep]
    refine ⟨rfl, ?_⟩
    rw [← List.singleton_append (l := cs), openBrackets_append]
    simp [Int.add_assoc]

theorem scan_plain {cs : List Char} (hd : s.depth = 0)
    (h : ∀ c ∈ cs, c ≠ '[' ∧ c ≠ ']' ∧ c ≠ separator) :
    s.emitted separator cs = [] ∧ s.after separator cs = { s with
      pending := s.pending ++ cs
      kind := cs.foldl SegmentKind.refine s.kind } := by
  induction cs generalizing s with
  | nil => simp [emitted]
  | cons c cs ih =>
    obtain ⟨hopen, hclose, hsep⟩ := h c (by simp)
    have hstep : s.step separator c =
        ([], { s with pending := s.pending ++ [c], kind := s.kind.refine c }) := by
      simp [step, push, hopen, hclose, hsep]
    have hrest := ih (s := (s.step separator c).2) (by rw [hstep]; exact hd)
      fun d hm => h d (List.mem_cons_of_mem c hm)
    rw [emitted, after_cons, hrest.1, hrest.2, hstep]
    simp

/-! ## The spans of a balanced text -/

/-- What is open belongs to a text that is balanced so far. -/
def Sound (s : Scanner) : Prop :=
  s.stray = false → 0 ≤ s.depth ∧ (∀ pre, pre <+: s.pending → 0 ≤ openBrackets pre) ∧
    openBrackets s.pending = max (s.depth - 1) 0

theorem sound_initial : initial.Sound := fun _ => ⟨Int.le_refl 0, by simp [initial], rfl⟩

theorem Sound.balanced_pending (h : s.Sound) (hs : s.stray = false) (hd : s.depth ≤ 1) :
    Balanced s.pending := by
  obtain ⟨_, hpre, htotal⟩ := h hs
  exact balanced_iff_openBrackets.2 ⟨hpre, by omega⟩

theorem sound_reopen (s : Scanner) (k : SegmentKind) {depth : Int} (hd : 0 ≤ depth)
    (hd1 : depth ≤ 1) : Sound { s.reopen k with depth } := by
  refine fun _ => ⟨hd, ?_, ?_⟩
  · intro pre hpre
    rw [show pre = [] from List.prefix_nil.1 hpre]
    exact Int.le_refl 0
  · show (0 : Int) = max (depth - 1) 0
    omega

theorem sound_push {c : Char} {t : Scanner} (h : s.Sound) (hpending : t.pending = s.pending ++ [c])
    (hdepth : t.depth = s.depth + openBrackets [c]) (hstray : t.stray = false → s.stray = false)
    (hopen : t.stray = false → c = '[' → s.depth ≠ 0)
    (hclose : t.stray = false → c = ']' → 2 ≤ s.depth) : t.Sound := by
  intro ht
  obtain ⟨hd, hpre, htotal⟩ := h (hstray ht)
  have hcount : openBrackets t.pending = max (t.depth - 1) 0 ∧ 0 ≤ t.depth := by
    rw [hpending, openBrackets_append, htotal, hdepth]
    by_cases ho : c = '['
    · have := hopen ht ho
      subst ho
      rw [openBrackets_open]
      omega
    · by_cases hc : c = ']'
      · have := hclose ht hc
        subst hc
        rw [openBrackets_close]
        omega
      · rw [openBrackets_other ho hc]
        omega
  refine ⟨hcount.2, fun pre hp => ?_, hcount.1⟩
  rw [hpending, List.prefix_concat_iff] at hp
  rcases hp with rfl | hp
  · rw [← hpending, hcount.1]
    omega
  · exact hpre pre hp

theorem Sound.step (h : s.Sound) (c : Char) :
    (s.step separator c).2.Sound ∧ ((s.step separator c).2.stray = false →
      ∀ span ∈ (s.step separator c).1, Balanced span.text) := by
  have hplain : s.depth ≤ 1 → s.stray = false → ∀ span ∈ s.plain, Balanced span.text := by
    intro hd hs span hm
    unfold plain at hm
    split at hm
    · simp at hm
    · rw [List.mem_singleton.1 hm]
      exact h.balanced_pending hs hd
  unfold Scanner.step
  split
  · rename_i hc
    split
    · rename_i hd
      exact ⟨sound_reopen s _ (by decide) (by decide), hplain (by omega)⟩
    · rename_i hd
      refine ⟨sound_push h rfl (by rw [hc]; rfl) id (fun _ _ => hd) ?_, by simp⟩
      rintro - rfl
      simp at hc
  · split
    · rename_i hc
      split
      · rename_i hd
        refine ⟨sound_reopen s _ (by decide) (by decide), fun hs span hm => ?_⟩
        rw [List.mem_singleton.1 hm]
        exact h.balanced_pending hs (by omega)
      · rename_i hd
        refine ⟨sound_push h rfl (by rw [hc]; rfl) ?_ ?_ ?_, by simp⟩
        · intro hs
          exact (Bool.or_eq_false_iff.1 hs).1
        · rintro - rfl
          simp at hc
        · intro hs _
          have : ¬ s.depth ≤ 0 := by simpa using (Bool.or_eq_false_iff.1 hs).2
          omega
    · rename_i ho hc
      split
      · rename_i hd
        have := sound_reopen s .blank (show 0 ≤ s.depth by omega) (by omega)
        exact ⟨this, hplain (by omega)⟩
      · refine ⟨sound_push h rfl ?_ id (fun _ e => absurd e ho) (fun _ e => absurd e hc), by simp⟩
        rw [openBrackets_other ho hc, Int.add_zero]
        rfl

theorem Sound.run (h : s.Sound) (found : Bool) (cs : List Char)
    (hd : (s.after separator cs).depth = 0) (hs : (s.after separator cs).stray = false) :
    ∀ span ∈ s.run separator found cs, Balanced span.text := by
  induction cs generalizing s found with
  | nil =>
    intro span hm
    have hb := h.balanced_pending hs (by rw [after_nil] at hd; omega)
    simp only [Scanner.run, finish] at hm
    split at hm
    · rw [List.mem_singleton.1 hm]
      exact hb
    · have htext : span.text = [] := by
        split at hm <;> split at hm <;> simp_all
      rw [htext]
      exact balanced_of_forall_ne (by simp) (by simp)
  | cons c cs ih =>
    intro span hm
    obtain ⟨hsound, hended⟩ := h.step separator c
    rcases List.mem_append.1 hm with hm | hm
    · refine hended ?_ span hm
      by_contra hstray
      rw [after_cons, stray_after_of_stray separator (by simpa using hstray)] at hs
      exact absurd hs (by decide)
    · exact ih hsound _ hd hs span hm

/-! ## Spans with a mark -/

/-- Inside brackets the open span is marked as bracketed. -/
def Marked (s : Scanner) : Prop := 1 ≤ s.depth → s.kind.indexed = true

theorem Marked.step (h : s.Marked) (c : Char) :
    (s.step separator c).2.Marked ∧ (s.pending ≠ [] ∨ 1 ≤ s.depth ∨ c ≠ separator →
      (∃ span ∈ (s.step separator c).1, span.kind.isBlank = false) ∨
        (s.step separator c).2.pending ≠ [] ∨ 1 ≤ (s.step separator c).2.depth) := by
  -- a character that is pushed leaves something open
  have hpush : ∀ (t : Scanner), t.pending = s.pending ++ [c] → t.pending ≠ [] := by
    intro t ht
    simp [ht]
  unfold Scanner.step Marked
  split
  · split
    · exact ⟨fun _ => rfl, fun _ => .inr (.inr (Int.le_refl 1))⟩
    · refine ⟨fun h1 => h ?_, fun _ => .inr (.inl (hpush _ rfl))⟩
      change 1 ≤ s.depth + 1 at h1
      omega
  · split
    · split
      · rename_i hd
        refine ⟨fun (h1 : (1 : Int) ≤ 0) => absurd h1 (by decide),
          fun _ => .inl ⟨_, List.mem_singleton.2 rfl, ?_⟩⟩
        exact SegmentKind.not_isBlank_of_indexed (h (by omega))
      · refine ⟨fun h1 => h ?_, fun _ => .inr (.inl (hpush _ rfl))⟩
        change 1 ≤ s.depth - 1 at h1
        omega
    · split
      · rename_i hsep
        refine ⟨fun h1 => ?_, fun hopen => .inl ?_⟩
        · change 1 ≤ s.depth at h1
          omega
        · have hp : s.pending ≠ [] := by
            rcases hopen with hp | hd | hne
            · exact hp
            · omega
            · exact absurd hsep.1 hne
          exact ⟨⟨s.start, s.pending, s.kind.close⟩, by simp [plain, hp],
            SegmentKind.close_not_isBlank s.kind⟩
      · refine ⟨fun h1 => ?_, fun _ => .inr (.inl (hpush _ rfl))⟩
        show (s.kind.refine c).indexed = true
        rw [SegmentKind.refine_indexed]
        exact h h1

theorem Marked.run (h : s.Marked) (found : Bool) (cs : List Char)
    (hopen : s.pending ≠ [] ∨ 1 ≤ s.depth ∨ ∃ c ∈ cs, c ≠ separator) :
    ∃ span ∈ s.run separator found cs, span.kind.isBlank = false := by
  induction cs generalizing s found with
  | nil =>
    simp only [Scanner.run, finish]
    by_cases hp : s.pending = []
    · have hd : 1 ≤ s.depth := by simpa [hp] using hopen
      have hcorrupt : s.depth ≠ 0 ∨ s.stray = true := .inl (by omega)
      have hk : ({ s.kind with corrupted := true } : SegmentKind).isBlank = false :=
        SegmentKind.not_isBlank_of_corrupted rfl
      simp [hp, hcorrupt, hk]
    · simp [hp, SegmentKind.close_not_isBlank]
  | cons c cs ih =>
    obtain ⟨hmarked, hstep⟩ := h.step separator c
    have hlater (hrest : (s.step separator c).2.pending ≠ [] ∨ 1 ≤ (s.step separator c).2.depth ∨
        ∃ c ∈ cs, c ≠ separator) :
        ∃ span ∈ s.run separator found (c :: cs), span.kind.isBlank = false := by
      obtain ⟨span, hm, hspan⟩ := ih hmarked (found || !(s.step separator c).1.isEmpty) hrest
      exact ⟨span, List.mem_append_right _ hm, hspan⟩
    by_cases hnow : s.pending ≠ [] ∨ 1 ≤ s.depth ∨ c ≠ separator
    · rcases hstep hnow with ⟨span, hm, hspan⟩ | hp | hd
      · exact ⟨span, List.mem_append_left _ hm, hspan⟩
      · exact hlater (.inl hp)
      · exact hlater (.inr (.inl hd))
    · rcases hopen with hp | hd | ⟨d, hm, hne⟩
      · exact absurd (.inl hp) hnow
      · exact absurd (.inr (.inl hd)) hnow
      · rcases List.mem_cons.1 hm with rfl | hm
        · exact absurd (.inr (.inr hne)) hnow
        · exact hlater (.inr (.inr ⟨d, hm, hne⟩))

end Scanner

/-! ## Scanning a whole text -/

/-- **A balanced text in brackets is one span.** -/
theorem scan_bracketed (separator : Char) {cs : List Char} (h : Balanced cs) :
    scan separator ('[' :: cs ++ [']']) =
      [⟨1, cs, cs.foldl SegmentKind.refine .bracketed⟩] := by
  obtain ⟨hpre, htotal⟩ := balanced_iff_openBrackets.1 h
  have hdepth (pre : List Char) (hp : pre <+: cs) : (1 : Int) ≤ 1 + openBrackets pre := by
    have hnonneg := hpre pre hp
    omega
  have hinside := Scanner.scan_inside separator (s := ⟨1, 1, [], .bracketed, false⟩)
    (Int.le_refl 1) hdepth
  have hopen : Scanner.initial.step separator '[' = ([], ⟨1, 1, [], .bracketed, false⟩) := rfl
  rw [scan, Scanner.run_eq, List.cons_append, Scanner.emitted, hopen, Scanner.after_cons, hopen,
    Scanner.emitted_append, Scanner.after_append, hinside.1, hinside.2, htotal]
  rfl

theorem scan_plain (separator : Char) {cs : List Char} (hne : cs ≠ [])
    (h : ∀ c ∈ cs, c ≠ '[' ∧ c ≠ ']' ∧ c ≠ separator) :
    scan separator cs = [⟨0, cs, (cs.foldl SegmentKind.refine .blank).close⟩] := by
  have hplain := Scanner.scan_plain separator (s := .initial) rfl h
  rw [scan, Scanner.run_eq, hplain.1, hplain.2]
  simp [Scanner.finish, Scanner.initial, hne]

theorem balanced_of_mem_scan {separator : Char} {cs : List Char} (h : Balanced cs) {span : Span}
    (hm : span ∈ scan separator cs) : Balanced span.text := by
  obtain ⟨hd, hs⟩ := (Scanner.balanced_iff_after separator cs).1 h
  exact Scanner.sound_initial.run separator false cs hd hs span hm

theorem corrupted_getLast_scan (separator : Char) {cs : List Char} (h : ¬ Balanced cs) :
    ∃ span, (scan separator cs).getLast? = some span ∧ span.kind.corrupted = true := by
  have hend : (Scanner.initial.after separator cs).depth ≠ 0 ∨
      (Scanner.initial.after separator cs).stray = true := by
    rw [Scanner.balanced_iff_after separator, not_and_or, Bool.not_eq_false] at h
    exact h
  have hk : ({ (Scanner.initial.after separator cs).kind with corrupted := true } :
      SegmentKind).isBlank = false := SegmentKind.not_isBlank_of_corrupted rfl
  rw [scan, Scanner.run_eq]
  simp only [Scanner.finish, hend, if_true, hk, Bool.not_false, Bool.true_or]
  split
  · exact ⟨_, List.getLast?_concat, by simp⟩
  · exact ⟨_, List.getLast?_concat, rfl⟩

/-- **A text with a character other than the separator has a span that bears a mark.** -/
theorem exists_not_blank_mem_scan {separator : Char} {cs : List Char}
    (h : ∃ c ∈ cs, c ≠ separator) :
    ∃ span ∈ scan separator cs, span.kind.isBlank = false :=
  Scanner.Marked.run separator (s := .initial) (fun h => absurd h (by decide)) false cs
    (.inr (.inr h))

end ConfigBind
