import ConfigBind.Proofs.Path.Brackets

/-!
# Scanning joined texts

At the end of a balanced text the scanner is outside all brackets and what is still open is a plain
segment.  So it goes on behind a separator, or at an opening bracket, as it would at the start of a
text, only further on: the spans of a joined text are those of the left part followed by those of
the right part, moved (`scan_append`, `scan_append_separator`).

* `Scanner.Tracked`: the kind of the open span is that of its text.
* `written_of_mem_scan`: so the spans of a balanced text are written as a path would write them.
* `cut_of_mem_scan`: a span cuts its own text out of the text that was scanned.
-/

namespace ConfigBind

namespace Span

def shift (n : Nat) (s : Span) : Span := { s with start := s.start + n }

theorem shift_shift (m n : Nat) (s : Span) : (s.shift m).shift n = s.shift (m + n) := by
  simp [shift, Nat.add_assoc]

/-- The span cuts its text out of `cs`. -/
def Cut (s : Span) (cs : List Char) : Prop := (cs.drop s.start).take s.text.length = s.text

end Span

/-! ## Balanced texts -/

theorem balanced_append {xs ys : List Char} (hx : Balanced xs) (hy : Balanced ys) :
    Balanced (xs ++ ys) := by
  -- whether a text is balanced does not depend on the separator of the scan
  obtain ⟨hd, hs⟩ := (Scanner.balanced_iff_after '.' xs).1 hx
  obtain ⟨hpre, htotal⟩ := balanced_iff_openBrackets.1 hy
  have hclosed := Scanner.stray_after_iff '.' (Int.le_of_eq hd.symm) hs ys
  rw [Scanner.balanced_iff_after '.', Scanner.after_append]
  refine ⟨by rw [Scanner.depth_after, hd, htotal]; rfl, ?_⟩
  rw [← Bool.not_eq_true, hclosed]
  rintro ⟨pre, hprefix, hlt⟩
  have hnonneg := hpre pre hprefix
  omega

theorem balanced_cons {c : Char} {cs : List Char} (ho : c ≠ '[') (hc : c ≠ ']')
    (h : Balanced cs) : Balanced (c :: cs) := by
  have hc : Balanced [c] :=
    balanced_of_forall_ne (by simpa using ho.symm) (by simpa using hc.symm)
  exact balanced_append hc h

theorem balanced_bracketed {cs : List Char} (h : Balanced cs) : Balanced ('[' :: cs ++ [']']) := by
  obtain ⟨hpre, htotal⟩ := balanced_iff_openBrackets.1 h
  have hsplit : openBrackets ('[' :: cs) = 1 := by
    rw [← List.singleton_append, openBrackets_append, htotal, openBrackets_open]
    rfl
  refine balanced_iff_openBrackets.2 ⟨fun pre hprefix => ?_, ?_⟩
  · rcases List.prefix_concat_iff.1 hprefix with rfl | hprefix
    · rw [List.cons_append, ← List.cons_append, openBrackets_append, hsplit, openBrackets_close]
      decide
    · rcases List.prefix_cons_iff.1 hprefix with rfl | ⟨t, rfl, ht⟩
      · exact Int.le_refl 0
      · have hnonneg := hpre t ht
        rw [← List.singleton_append, openBrackets_append, openBrackets_open]
        omega
  · rw [openBrackets_append, hsplit, openBrackets_close]
    rfl

/-! ## Written segments -/

/-- How a path writes a segment: a balanced text in brackets, or a text without brackets and
separators; the kind is what the text makes it. -/
inductive Written (separator : Char) : List Char → SegmentKind → Prop
  | bracketed {cs : List Char} (h : Balanced cs) :
      Written separator cs (cs.foldl SegmentKind.refine .bracketed)
  | plain {cs : List Char} (hne : cs ≠ []) (h : ∀ c ∈ cs, c ≠ '[' ∧ c ≠ ']' ∧ c ≠ separator) :
      Written separator cs (cs.foldl SegmentKind.refine .blank).close

namespace Scanner

variable {separator : Char} {s : Scanner}

/-! ## Moving a scan -/

def shift (n : Nat) (s : Scanner) : Scanner := { s with start := s.start + n }

theorem plain_shift (n : Nat) (s : Scanner) : (s.shift n).plain = s.plain.map (Span.shift n) := by
  unfold plain
  show (if s.pending.isEmpty then _ else _) = _
  split <;> rfl

theorem reopen_shift (n : Nat) (s : Scanner) (k : SegmentKind) :
    (s.shift n).reopen k = (s.reopen k).shift n := by
  simp only [reopen, shift]
  congr 1
  omega

theorem step_shift (n : Nat) (s : Scanner) (c : Char) : (s.shift n).step separator c =
    ((s.step separator c).1.map (Span.shift n), (s.step separator c).2.shift n) := by
  have hdepth : (s.shift n).depth = s.depth := rfl
  unfold step
  rw [hdepth, plain_shift, reopen_shift, reopen_shift]
  split
  · split <;> rfl
  · split
    · split <;> rfl
    · split <;> rfl

theorem after_shift (n : Nat) (s : Scanner) (cs : List Char) :
    (s.shift n).after separator cs = (s.after separator cs).shift n := by
  induction cs generalizing s with
  | nil => rfl
  | cons c cs ih => rw [after_cons, after_cons, step_shift, ih]

theorem emitted_shift (n : Nat) (s : Scanner) (cs : List Char) :
    (s.shift n).emitted separator cs = (s.emitted separator cs).map (Span.shift n) := by
  induction cs generalizing s with
  | nil => rfl
  | cons c cs ih => rw [emitted, emitted, step_shift, ih, List.map_append]

/-! ## What is open -/

def stop (s : Scanner) : Nat := s.start + s.pending.length

theorem stop_step (c : Char) : (s.step separator c).2.stop = s.stop + 1 := by
  have hreopen (k : SegmentKind) (depth : Int) :
      stop { s.reopen k with depth } = s.stop + 1 := rfl
  have hpush (t : Scanner) (hstart : t.start = s.start) (ht : t.pending = s.pending ++ [c]) :
      t.stop = s.stop + 1 := by
    rw [stop, hstart, ht, List.length_append, List.length_singleton, ← Nat.add_assoc]
    rfl
  unfold step
  split
  · split
    · exact hreopen _ _
    · exact hpush _ rfl rfl
  · split
    · split
      · exact hreopen _ _
      · exact hpush _ rfl rfl
    · split
      · exact hreopen _ s.depth
      · exact hpush _ rfl rfl

theorem stop_after (cs : List Char) : (s.after separator cs).stop = s.stop + cs.length := by
  induction cs generalizing s with
  | nil => rfl
  | cons c cs ih =>
    rw [after_cons, ih, stop_step, List.length_cons]
    omega

/-- As long as no bracket is stray, the kind of the open span is that of its text, which outside
brackets is plain. -/
def Tracked (separator : Char) (s : Scanner) : Prop :=
  s.stray = false →
    (s.depth ≤ 0 → (∀ c ∈ s.pending, c ≠ '[' ∧ c ≠ ']' ∧ c ≠ separator) ∧
      s.kind = s.pending.foldl SegmentKind.refine .blank) ∧
    (1 ≤ s.depth → s.kind = s.pending.foldl SegmentKind.refine .bracketed)

theorem tracked_initial (separator : Char) : initial.Tracked separator :=
  fun _ => ⟨fun _ => ⟨by simp [initial], rfl⟩, fun h => absurd h (by decide)⟩

theorem Tracked.written_plain (h : s.Tracked separator) (hs : s.stray = false) (hd : s.depth ≤ 0) :
    ∀ span ∈ s.plain, Written separator span.text span.kind := by
  obtain ⟨hplain, hkind⟩ := (h hs).1 hd
  intro span hm
  unfold plain at hm
  split at hm
  · cases hm
  · rename_i hne
    rw [List.mem_singleton.1 hm]
    dsimp only
    rw [hkind]
    exact .plain (by simpa using hne) hplain

theorem tracked_push {t : Scanner} {c : Char} (h : s.Tracked separator)
    (hpending : t.pending = s.pending ++ [c]) (hkind : t.kind = s.kind.refine c)
    (hstray : t.stray = false → s.stray = false)
    (hplain : t.stray = false → t.depth ≤ 0 →
      s.depth ≤ 0 ∧ c ≠ '[' ∧ c ≠ ']' ∧ c ≠ separator)
    (hinside : 1 ≤ t.depth → 1 ≤ s.depth) : t.Tracked separator := by
  intro ht
  rw [hpending, hkind, List.foldl_append, List.foldl_append]
  constructor
  · intro hd
    obtain ⟨hd, hc⟩ := hplain ht hd
    obtain ⟨hall, hk⟩ := (h (hstray ht)).1 hd
    refine ⟨fun x hx => ?_, by rw [hk]; rfl⟩
    rcases List.mem_append.1 hx with hx | hx
    · exact hall x hx
    · rwa [List.mem_singleton.1 hx]
  · intro hd
    rw [(h (hstray ht)).2 (hinside hd)]
    rfl

theorem tracked_reopen (s : Scanner) (k : SegmentKind) {depth : Int}
    (hk : depth ≤ 0 → k = .blank) (hk1 : 1 ≤ depth → k = .bracketed) :
    Tracked separator { s.reopen k with depth } :=
  fun _ => ⟨fun hd => ⟨by simp [reopen], hk hd⟩, hk1⟩

theorem Tracked.step (h : s.Tracked separator) (hsound : s.Sound) (c : Char) :
    (s.step separator c).2.Tracked separator ∧ ((s.step separator c).2.stray = false →
      ∀ span ∈ (s.step separator c).1, Written separator span.text span.kind) := by
  unfold Scanner.step
  split
  · rename_i hc
    subst hc
    split
    · rename_i hd
      exact ⟨tracked_reopen s _ (fun h0 => absurd h0 (by decide)) fun _ => rfl,
        fun hs => h.written_plain hs (by omega)⟩
    · rename_i hd
      have hpos (hs : s.stray = false) : 0 ≤ s.depth := (hsound hs).1
      refine ⟨?_, fun _ span hm => by cases hm⟩
      intro hs
      have hdepth := hpos hs
      refine tracked_push h rfl ?_ id ?_ ?_ hs
      · exact (SegmentKind.refine_bracket s.kind (.inl rfl)).symm
      · intro _ hle
        change s.depth + 1 ≤ 0 at hle
        omega
      · intro _
        omega
  · split
    · rename_i hc
      subst hc
      split
      · rename_i hd
        refine ⟨tracked_reopen s _ (fun _ => rfl) fun h1 => absurd h1 (by decide), ?_⟩
        intro hs span hm
        have hbalanced := hsound.balanced_pending hs (by omega)
        have hkind := (h hs).2 (by omega)
        rw [List.mem_singleton.1 hm]
        dsimp only
        rw [hkind]
        exact .bracketed hbalanced
      · rename_i hd
        refine ⟨?_, fun _ span hm => by cases hm⟩
        refine tracked_push h rfl ?_ ?_ ?_ ?_
        · exact (SegmentKind.refine_bracket s.kind (.inr rfl)).symm
        · intro hs
          exact (Bool.or_eq_false_iff.1 hs).1
        · intro hs hle
          have hopen : ¬ s.depth ≤ 0 := by simpa using (Bool.or_eq_false_iff.1 hs).2
          change s.depth - 1 ≤ 0 at hle
          omega
        · intro h1
          change 1 ≤ s.depth - 1 at h1
          omega
    · rename_i hopen hclose
      split
      · rename_i hsep
        have hreopen : ({ s.reopen .blank with depth := s.depth }).Tracked separator :=
          tracked_reopen s .blank (fun _ => rfl) (by omega)
        exact ⟨hreopen, fun hs => h.written_plain hs (by omega)⟩
      · rename_i hsep
        refine ⟨tracked_push h rfl rfl id ?_ id, fun _ span hm => by cases hm⟩
        intro hs hle
        change s.depth ≤ 0 at hle
        have hpos := (hsound hs).1
        exact ⟨hle, hopen, hclose, fun hc => hsep ⟨hc, by omega⟩⟩

theorem tracked_after (h : s.Tracked separator) (hsound : s.Sound) (cs : List Char) :
    (s.after separator cs).Tracked separator := by
  induction cs generalizing s with
  | nil => exact h
  | cons c cs ih => exact ih (h.step hsound c).1 (hsound.step separator c).1

theorem written_of_mem_emitted (h : s.Tracked separator) (hsound : s.Sound) {cs : List Char}
    (hs : (s.after separator cs).stray = false) {span : Span}
    (hm : span ∈ s.emitted separator cs) : Written separator span.text span.kind := by
  induction cs generalizing s with
  | nil => cases hm
  | cons c cs ih =>
    rcases List.mem_append.1 hm with hm | hm
    · refine (h.step hsound c).2 ?_ span hm
      by_contra hstray
      rw [after_cons, stray_after_of_stray separator (by simpa using hstray)] at hs
      cases hs
    · exact ih (h.step hsound c).1 (hsound.step separator c).1 hs hm

/-! ## The end of a balanced text -/

theorem finish_eq_plain {found : Bool} (h : s.Tracked separator) (hd : s.depth = 0)
    (hs : s.stray = false) (hfound : s.pending = [] → found = true) : s.finish found = s.plain := by
  have hend : ¬ (s.depth ≠ 0 ∨ s.stray = true) := by simp [hd, hs]
  unfold finish plain
  rw [if_neg hend]
  cases hp : s.pending with
  | nil =>
    have hkind : s.kind = .blank := by
      rw [((h hs).1 (Int.le_of_eq hd)).2, hp]
      rfl
    simp [hkind, hfound hp, SegmentKind.isBlank]
  | cons c cs => simp

/-- Behind a balanced text, a separator and an opening bracket are read as at the start of a text,
only further on. -/
theorem step_of_level {c : Char} (hopen : separator ≠ '[') (hclose : separator ≠ ']')
    (hd : s.depth = 0) (hs : s.stray = false) (hc : c = '[' ∨ c = separator) :
    s.step separator c =
      (s.plain ++ ((initial.shift s.stop).step separator c).1,
        ((initial.shift s.stop).step separator c).2) := by
  obtain ⟨depth, start, pending, kind, stray⟩ := s
  obtain rfl : depth = 0 := hd
  obtain rfl : stray = false := hs
  rcases hc with rfl | rfl
  · simp [step, reopen, shift, initial, stop, plain]
  · simp [step, reopen, shift, initial, stop, plain, hopen, hclose]

theorem scan_of_level {c : Char} (hopen : separator ≠ '[') (hclose : separator ≠ ']')
    (hd : s.depth = 0) (hs : s.stray = false) (hc : c = '[' ∨ c = separator) (cs : List Char) :
    s.emitted separator (c :: cs) =
        s.plain ++ (initial.emitted separator (c :: cs)).map (Span.shift s.stop) ∧
      s.after separator (c :: cs) = (initial.after separator (c :: cs)).shift s.stop := by
  have hstep := step_of_level hopen hclose hd hs hc
  rw [← emitted_shift, ← after_shift]
  simp only [emitted, after_cons, hstep, List.append_assoc, and_self]

/-! ## Where spans lie -/

/-- The open span is the end of what was read. -/
def Located (s : Scanner) (before : List Char) : Prop :=
  s.start ≤ before.length ∧ before.drop s.start = s.pending

theorem Located.cut {before : List Char} (h : s.Located before) (rest : List Char)
    (k : SegmentKind) : Span.Cut ⟨s.start, s.pending, k⟩ (before ++ rest) := by
  obtain ⟨hle, hdrop⟩ := h
  show ((before ++ rest).drop s.start).take s.pending.length = s.pending
  rw [List.drop_append_of_le_length hle, hdrop, List.take_left']
  rfl

theorem Located.step {before : List Char} (h : s.Located before) (c : Char) (rest : List Char) :
    (s.step separator c).2.Located (before ++ [c]) ∧
      ∀ span ∈ (s.step separator c).1, span.Cut (before ++ rest) := by
  have hlength : s.start + s.pending.length = before.length := by
    rw [← h.2, List.length_drop]
    have := h.1
    omega
  have hpush (t : Scanner) (hstart : t.start = s.start) (ht : t.pending = s.pending ++ [c]) :
      t.Located (before ++ [c]) := by
    refine ⟨?_, ?_⟩
    · rw [hstart, List.length_append]
      exact Nat.le_add_right_of_le h.1
    · rw [hstart, ht, List.drop_append_of_le_length h.1, h.2]
  have hreopen (t : Scanner) (hstart : t.start = s.start + s.pending.length + 1)
      (ht : t.pending = []) : t.Located (before ++ [c]) := by
    refine ⟨?_, ?_⟩
    · rw [hstart, hlength, List.length_append, List.length_singleton]
    · rw [hstart, ht, hlength]
      exact List.drop_of_length_le (by simp)
  have hplain : ∀ span ∈ s.plain, span.Cut (before ++ rest) := by
    intro span hm
    unfold plain at hm
    split at hm
    · cases hm
    · rw [List.mem_singleton.1 hm]
      exact h.cut rest _
  unfold Scanner.step
  split
  · split
    · exact ⟨hreopen _ rfl rfl, hplain⟩
    · exact ⟨hpush _ rfl rfl, fun span hm => by cases hm⟩
  · split
    · split
      · refine ⟨hreopen _ rfl rfl, fun span hm => ?_⟩
        rw [List.mem_singleton.1 hm]
        exact h.cut rest _
      · exact ⟨hpush _ rfl rfl, fun span hm => by cases hm⟩
    · split
      · exact ⟨hreopen _ rfl rfl, hplain⟩
      · exact ⟨hpush _ rfl rfl, fun span hm => by cases hm⟩

theorem eq_of_mem_finish {found : Bool} {span : Span} (h : span ∈ s.finish found) :
    ∃ k, span = ⟨s.start, s.pending, k⟩ := by
  unfold finish at h
  generalize (if s.depth ≠ 0 ∨ s.stray = true then _ else s.kind) = kind at h
  by_cases hp : s.pending = []
  · have hmem : span ∈ if !kind.isBlank || !found then [⟨s.start, [], kind⟩] else [] := by
      simpa [hp] using h
    rw [hp]
    split at hmem
    · exact ⟨kind, List.mem_singleton.1 hmem⟩
    · cases hmem
  · have hmem : span ∈ [⟨s.start, s.pending, kind.close⟩] := by simpa [hp] using h
    exact ⟨kind.close, List.mem_singleton.1 hmem⟩

/-- **A run finds spans in their places.** -/
theorem Located.run {before : List Char} (h : s.Located before) (found : Bool) (cs : List Char) :
    ∀ span ∈ s.run separator found cs, span.Cut (before ++ cs) := by
  induction cs generalizing s found before with
  | nil =>
    intro span hm
    obtain ⟨k, rfl⟩ := eq_of_mem_finish hm
    exact h.cut [] k
  | cons c cs ih =>
    obtain ⟨hnext, hended⟩ : (s.step separator c).2.Located (before ++ [c]) ∧ _ :=
      h.step c (c :: cs)
    intro span hm
    rcases List.mem_append.1 hm with hm | hm
    · exact hended span hm
    · have hcut := ih hnext _ span hm
      rwa [List.append_assoc, List.singleton_append] at hcut

end Scanner

/-! ## Whole texts -/

variable {separator : Char} {xs ys : List Char}

/-- **A span cuts its own text out of the text that was scanned.** -/
theorem cut_of_mem_scan {span : Span} (h : span ∈ scan separator xs) : span.Cut xs := by
  have hinitial : Scanner.initial.Located [] := ⟨Nat.le_refl 0, rfl⟩
  exact hinitial.run false xs span h

theorem scan_eq_emitted (h : Balanced xs) (hx : ∃ c ∈ xs, c ≠ separator) :
    scan separator xs = Scanner.initial.emitted separator xs ++
      (Scanner.initial.after separator xs).plain := by
  obtain ⟨hd, hs⟩ := (Scanner.balanced_iff_after separator xs).1 h
  have htracked := Scanner.tracked_after (Scanner.tracked_initial separator)
    Scanner.sound_initial xs
  obtain ⟨span, hm, hspan⟩ := exists_not_blank_mem_scan hx
  rw [scan, Scanner.run_eq] at hm ⊢
  rw [Scanner.finish_eq_plain htracked hd hs]
  intro hp
  -- with nothing open at the end, the span that bears a mark was ended before
  rw [Bool.false_or, Bool.not_eq_true', List.isEmpty_eq_false_iff]
  rintro hnil
  have hkind : (Scanner.initial.after separator xs).kind = .blank := by
    rw [((htracked hs).1 (Int.le_of_eq hd)).2, hp]
    rfl
  simp only [hnil, Scanner.finish, hd, hs, hp, hkind] at hm
  obtain rfl : span = ⟨(Scanner.initial.after separator xs).start, [], .blank⟩ := by
    simpa using hm
  cases hspan

theorem written_of_mem_scan (h : Balanced xs) (hx : ∃ c ∈ xs, c ≠ separator) {span : Span}
    (hm : span ∈ scan separator xs) : Written separator span.text span.kind := by
  obtain ⟨hd, hs⟩ := (Scanner.balanced_iff_after separator xs).1 h
  have hinitial := Scanner.tracked_initial separator
  rw [scan_eq_emitted h hx] at hm
  rcases List.mem_append.1 hm with hm | hm
  · exact Scanner.written_of_mem_emitted hinitial Scanner.sound_initial hs hm
  · exact (Scanner.tracked_after hinitial Scanner.sound_initial xs).written_plain hs
      (Int.le_of_eq hd) span hm

/-- **A joined text has the spans of its parts, those of the right one moved.** -/
theorem scan_append (hopen : separator ≠ '[') (hclose : separator ≠ ']') (hbx : Balanced xs)
    (hx : ∃ c ∈ xs, c ≠ separator) (hby : Balanced ys) (hy : ∃ c ∈ ys, c ≠ separator)
    (hhead : ∃ c cs, ys = c :: cs ∧ (c = '[' ∨ c = separator)) :
    scan separator (xs ++ ys) =
      scan separator xs ++ (scan separator ys).map (Span.shift xs.length) := by
  obtain ⟨hd, hs⟩ := (Scanner.balanced_iff_after separator xs).1 hbx
  obtain ⟨c, cs, rfl, hc⟩ := hhead
  have hxy : ∃ d ∈ xs ++ c :: cs, d ≠ separator := by
    obtain ⟨d, hd, hne⟩ := hx
    exact ⟨d, List.mem_append_left _ hd, hne⟩
  have hstop : (Scanner.initial.after separator xs).stop = xs.length := by
    rw [Scanner.stop_after]
    exact Nat.zero_add _
  obtain ⟨hemitted, hafter⟩ := Scanner.scan_of_level hopen hclose hd hs hc cs
  rw [scan_eq_emitted (balanced_append hbx hby) hxy, scan_eq_emitted hbx hx,
    scan_eq_emitted hby hy, Scanner.emitted_append, Scanner.after_append, hemitted, hafter,
    Scanner.plain_shift, hstop]
  simp only [List.map_append, List.append_assoc]

theorem scan_separator (hopen : separator ≠ '[') (hclose : separator ≠ ']') (hby : Balanced ys)
    (hy : ∃ c ∈ ys, c ≠ separator) :
    scan separator (separator :: ys) = (scan separator ys).map (Span.shift 1) := by
  have hstep : Scanner.initial.step separator separator = ([], Scanner.initial.shift 1) := by
    simp [Scanner.step, Scanner.initial, Scanner.plain, Scanner.reopen, Scanner.shift, hopen,
      hclose]
  have hy' : ∃ c ∈ separator :: ys, c ≠ separator := by
    obtain ⟨c, hc, hne⟩ := hy
    exact ⟨c, List.mem_cons_of_mem _ hc, hne⟩
  rw [scan_eq_emitted (balanced_cons hopen hclose hby) hy', scan_eq_emitted hby hy,
    Scanner.emitted, Scanner.after_cons, hstep, List.nil_append, Scanner.emitted_shift,
    Scanner.after_shift, Scanner.plain_shift, List.map_append]

theorem scan_append_separator (hopen : separator ≠ '[') (hclose : separator ≠ ']')
    (hbx : Balanced xs) (hx : ∃ c ∈ xs, c ≠ separator) (hby : Balanced ys)
    (hy : ∃ c ∈ ys, c ≠ separator) : scan separator (xs ++ separator :: ys) =
      scan separator xs ++ (scan separator ys).map (Span.shift (xs.length + 1)) := by
  obtain ⟨c, hc, hne⟩ := hy
  rw [scan_append hopen hclose hbx hx (balanced_cons hopen hclose hby)
    ⟨c, List.mem_cons_of_mem _ hc, hne⟩ ⟨separator, ys, rfl, .inr rfl⟩,
    scan_separator hopen hclose hby ⟨c, hc, hne⟩, List.map_map]
  congr 2
  funext span
  simp [Span.shift_shift, Nat.add_comm]

end ConfigBind
