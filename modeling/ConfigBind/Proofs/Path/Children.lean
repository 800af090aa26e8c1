import ConfigBind.Path.Basic
import ConfigBind.Proofs.Path.Brackets
import ConfigBind.Proofs.Tree.Descent

/-!
# Segments of child paths

`Path.append` drops a side that is empty, and a path counts as empty also if it has a segment but no
text.  `Tight` excludes that: a path without text has no segment.  The path parsed from the empty
text is not tight, and of the paths that can be built (`Built`) it is the only one
(`Built.tight_iff`).

Below a tight path, appending a text appends the segments of the text (`Tight.segments_appendText`),
and the paths of elements and entries have one segment more (`Tight.segments_element`,
`segments_of_atKey?`).  So they resolve to the elements and entries of the node at the path
(`Tight.get?_element`, `get?_of_atKey?`).

* `isSome_atKey?_iff`: below a tight path the keys that have a path are the balanced ones, and below
  any other path no key has one.
-/

namespace ConfigBind.Path

/-! ## Parsing -/

theorem scan_ne_nil (separator : Char) (cs : List Char) : scan separator cs ≠ [] := by
  intro h
  rw [scan, Scanner.run_eq, List.append_eq_nil_iff] at h
  obtain ⟨hemitted, hend⟩ := h
  rw [hemitted] at hend
  revert hend
  simp only [Scanner.finish]
  split
  · simp
  · simp

theorem segments_parseWith_ne_nil (separator : Char) (text : String) :
    (parseWith separator text).segments ≠ [] := by
  simp [parseWith, scan_ne_nil]

theorem isEmpty_parseWith (separator : Char) (text : String) :
    (parseWith separator text).isEmpty = (text == "") := by
  have h := segments_parseWith_ne_nil separator text
  rw [isEmpty, List.isEmpty_eq_false_iff.2 h, Bool.false_or]
  rfl

theorem exists_not_isBlank_mem_segments {separator : Char} {text : String}
    (h : ∃ c ∈ text.toList, c ≠ separator) :
    ∃ s ∈ (parseWith separator text).segments, s.kind.isBlank = false := by
  obtain ⟨span, hm, hk⟩ := exists_not_blank_mem_scan h
  exact ⟨⟨String.ofList span.text, span.kind⟩, List.mem_map.2 ⟨span, hm, rfl⟩, hk⟩

theorem segments_parseWith_bracketed (separator : Char) {text : String}
    (h : Balanced text.toList) : (parseWith separator ("[" ++ text ++ "]")).segments =
      [⟨text, text.toList.foldl SegmentKind.refine .bracketed⟩] := by
  have hlist : ("[" ++ text ++ "]").toList = '[' :: text.toList ++ [']'] := by
    simp [String.toList_append]
  rw [parseWith, hlist, scan_bracketed separator h]
  simp

theorem segments_parseWith_plain (separator : Char) {text : String} (hne : text ≠ "")
    (h : ∀ c ∈ text.toList, c ≠ '[' ∧ c ≠ ']' ∧ c ≠ separator) :
    (parseWith separator text).segments =
      [⟨text, (text.toList.foldl SegmentKind.refine .blank).close⟩] := by
  have hnil : text.toList ≠ [] := by simpa using hne
  rw [parseWith, scan_plain separator hnil h]
  simp

theorem foldl_refine_indexed (k : SegmentKind) (cs : List Char) :
    (cs.foldl SegmentKind.refine k).indexed = k.indexed := by
  induction cs generalizing k with
  | nil => rfl
  | cons c cs ih => rw [List.foldl_cons, ih, SegmentKind.refine_indexed]

theorem foldl_refine_corrupted (k : SegmentKind) (cs : List Char) :
    (cs.foldl SegmentKind.refine k).corrupted = k.corrupted := by
  induction cs generalizing k with
  | nil => rfl
  | cons c cs ih => rw [List.foldl_cons, ih, SegmentKind.refine_corrupted]

/-! ## Appending -/

theorem append_eq (p q : Path) : p ++ q = p.append q := rfl

theorem append_of_isEmpty_right (p : Path) {q : Path} (h : q.isEmpty = true) : p ++ q = p := by
  rw [append_eq, append, if_pos h]

theorem append_of_isEmpty_left {p q : Path} (hq : q.isEmpty = false) (hp : p.isEmpty = true) :
    p ++ q = q := by
  rw [append_eq, append, hq, if_neg (by decide), if_pos hp]

theorem append_of_not_isEmpty {p q : Path} (hq : q.isEmpty = false) (hp : p.isEmpty = false) :
    p ++ q = ⟨p.segments ++ q.segments,
      some (p.render ++ (if q.startsIndexed then "" else p.separator.toString) ++ q.render),
      p.separator⟩ := by
  rw [append_eq, append, hq, if_neg (by decide), hp, if_neg (by decide)]

/-- A path without text has no segment. -/
def Tight (p : Path) : Prop := p.isEmpty = true → p.segments = []

variable {p : Path}

theorem segments_append {q : Path} (hp : p.isEmpty = false) (hq : q.isEmpty = false) :
    (p ++ q).segments = p.segments ++ q.segments := by
  rw [append_of_not_isEmpty hq hp]

theorem Tight.segments_append (hp : p.Tight) {q : Path} (hq : q.Tight) :
    (p ++ q).segments = p.segments ++ q.segments := by
  cases he : q.isEmpty with
  | true => rw [append_of_isEmpty_right p he, hq he, List.append_nil]
  | false =>
    cases he' : p.isEmpty with
    | true => rw [append_of_isEmpty_left he he', hp he', List.nil_append]
    | false => exact Path.segments_append he' he

theorem tight_parseWith (separator : Char) {text : String} (hne : text ≠ "") :
    (parseWith separator text).Tight := by
  intro he
  rw [isEmpty_parseWith] at he
  exact absurd (eq_of_beq he) hne

@[simp] theorem separator_appendText (p : Path) (text : String) :
    (p.appendText text).separator = p.separator := by
  unfold appendText
  cases hq : (parseWith p.separator text).isEmpty with
  | true => rw [append_of_isEmpty_right p hq]
  | false =>
    cases hp : p.isEmpty with
    | true =>
      rw [append_of_isEmpty_left hq hp]
      rfl
    | false => rw [append_of_not_isEmpty hq hp]

theorem appendText_of_isEmpty (hp : p.isEmpty = true) {text : String} (hne : text ≠ "") :
    p.appendText text = parseWith p.separator text :=
  append_of_isEmpty_left (by rw [isEmpty_parseWith]; simpa using hne) hp

theorem segments_appendText_of_not_isEmpty (hp : p.isEmpty = false) {text : String}
    (hne : text ≠ "") :
    (p.appendText text).segments = p.segments ++ (parseWith p.separator text).segments := by
  unfold appendText
  exact segments_append hp (by rw [isEmpty_parseWith]; simpa using hne)

theorem render_ne_of_startsIndexed (h : p.startsIndexed = true) : p.render ≠ "" := by
  unfold startsIndexed at h
  unfold render
  split at h
  · rename_i text _
    rintro rfl
    simp at h
  · rw [Option.any_eq_true] at h
    obtain ⟨s, hs, hk⟩ := h
    obtain ⟨rest, hrest⟩ := List.head?_eq_some_iff.1 hs
    intro he
    have : Segment.canonicalAll p.separator p.segments = [] := by
      simpa using congrArg String.toList he
    rw [hrest] at this
    simp [Segment.canonicalAll, Segment.canonical, hk] at this

theorem append_source_ne {q : Path} (hq : q.isEmpty = false) (hp : p.isEmpty = false) :
    (p ++ q).source ≠ some "" := by
  rw [append_of_not_isEmpty hq hp]
  intro h
  have h := Option.some.inj h
  split at h
  · rename_i hi
    have : q.render = "" := by
      rw [String.append_eq_empty_iff] at h
      exact h.2
    exact render_ne_of_startsIndexed hi this
  · simp [String.append_eq_empty_iff, Char.toString] at h

theorem isEmpty_append {q : Path} (hq : q.isEmpty = false) : (p ++ q).isEmpty = false := by
  cases hp : p.isEmpty with
  | true => rwa [append_of_isEmpty_left hq hp]
  | false =>
    have hsource := append_source_ne hq hp
    rw [append_of_not_isEmpty hq hp] at hsource ⊢
    simp only [isEmpty, Bool.or_eq_false_iff, List.isEmpty_eq_false_iff] at hp ⊢
    exact ⟨List.append_ne_nil_of_left_ne_nil hp.1 _, by simpa using hsource⟩

theorem isEmpty_appendText {text : String} (hne : text ≠ "") :
    (p.appendText text).isEmpty = false :=
  isEmpty_append (by rw [isEmpty_parseWith]; simpa using hne)

/-- **A path is shorter than what is appended to it.** -/
theorem length_render_lt (h : p.isEmpty = true → p.render = "") {text : String} (hne : text ≠ "") :
    p.render.length < (p.appendText text).render.length := by
  have hlength : 0 < text.length := Nat.pos_of_ne_zero (by simpa using hne)
  have hq : (parseWith p.separator text).isEmpty = false := by
    rw [isEmpty_parseWith]
    simpa using hne
  cases hp : p.isEmpty with
  | true =>
    rw [appendText_of_isEmpty hp hne, h hp]
    exact hlength
  | false =>
    rw [appendText, append_of_not_isEmpty hq hp]
    show _ < (_ ++ _ ++ text).length
    rw [String.length_append, String.length_append]
    omega

theorem Tight.segments_appendText (h : p.Tight) {text : String} (hne : text ≠ "") :
    (p.appendText text).segments = p.segments ++ (parseWith p.separator text).segments :=
  h.segments_append (tight_parseWith _ hne)

theorem Tight.get?_appendText (h : p.Tight) {text : String} (hne : text ≠ "") (root : Node) :
    root.get? (p.appendText text) =
      (root.get? p).bind (·.follow? (parseWith p.separator text).segments) := by
  rw [Node.get?, h.segments_appendText hne, Node.follow?_append]
  rfl

/-! ## Elements -/

theorem element_eq (p : Path) (i : Nat) : p.element i = p.appendText ("[" ++ toString i ++ "]") :=
  rfl

theorem balanced_toString_nat (i : Nat) : Balanced (toString i).toList := by
  rw [Nat.toString_eq_repr, Nat.toList_repr]
  have hdigit : ∀ c ∈ Nat.toDigits 10 i, c.isDigit = true := fun c hc =>
    Nat.isDigit_of_mem_toDigits (by decide) (by decide) hc
  exact balanced_of_forall_ne (fun h => absurd (hdigit _ h) (by decide))
    (fun h => absurd (hdigit _ h) (by decide))

def elementSegment (i : Nat) : Segment :=
  ⟨toString i, (toString i).toList.foldl SegmentKind.refine .bracketed⟩

theorem Tight.segments_element (h : p.Tight) (i : Nat) :
    (p.element i).segments = p.segments ++ [elementSegment i] := by
  rw [element_eq, h.segments_appendText (by simp),
    segments_parseWith_bracketed _ (balanced_toString_nat i)]
  rfl

theorem isBlank_elementSegment (i : Nat) : (elementSegment i).kind.isBlank = false := by
  refine SegmentKind.not_isBlank_of_indexed ?_
  rw [elementSegment, foldl_refine_indexed]
  rfl

theorem index?_elementSegment {i : Nat} (h : i < 0x10000000000000000) :
    (elementSegment i).index? = some i := by
  have hcorrupted : (elementSegment i).kind.corrupted = false := by
    rw [elementSegment, foldl_refine_corrupted]
    rfl
  have hne : (Nat.toDigits 10 i).isEmpty = false := by simp [Nat.toDigits_ne_nil]
  have hdigit : (Nat.toDigits 10 i).all Char.isDigit = true := by
    rw [List.all_eq_true]
    exact fun c hc => Nat.isDigit_of_mem_toDigits (by decide) (by decide) hc
  have hvalue : (Nat.toDigits 10 i).foldl (fun n c => 10 * n + (c.toNat - '0'.toNat)) 0 = i := by
    rw [← Nat.ofDigitChars_eq_foldl, Nat.ofDigitChars_ten_toDigits]
  rw [Segment.index?, hcorrupted]
  simp only [elementSegment, Nat.toString_eq_repr, Nat.toList_repr, hne, hdigit, hvalue,
    Bool.not_true, Bool.or_self, Bool.false_eq_true, if_false, if_pos h]

theorem Tight.get?_element (h : p.Tight) {root : Node} {items : List Node}
    (hp : root.get? p = some (.list items)) {i : Nat} (hi : i < 0x10000000000000000) :
    root.get? (p.element i) = items[i]? := by
  rw [Node.get?, h.segments_element, Node.follow?_append]
  rw [Node.get?] at hp
  rw [hp, Option.bind_some, Node.follow?_singleton _ (isBlank_elementSegment i), Node.child?,
    index?_elementSegment hi, Option.bind_some]

/-! ## Entries -/

/-- The text that is appended for a key. -/
def keyText (separator : Char) (key : String) : String :=
  if needsBrackets separator key then "[" ++ key ++ "]" else key

theorem plain_of_not_needsBrackets {separator : Char} {key : String}
    (h : needsBrackets separator key = false) :
    key ≠ "" ∧ ∀ c ∈ key.toList, c ≠ '[' ∧ c ≠ ']' ∧ c ≠ separator := by
  simp only [needsBrackets, Bool.or_eq_false_iff, List.any_eq_false] at h
  refine ⟨by simpa using h.1, fun c hc => ?_⟩
  have hplain := h.2 c hc
  simp only [Bool.or_eq_true, beq_iff_eq, not_or] at hplain
  exact ⟨hplain.1.2, hplain.2, hplain.1.1⟩

theorem keyText_cases (separator : Char) (key : String) :
    keyText separator key = "[" ++ key ++ "]" ∨
      keyText separator key = key ∧ key ≠ "" ∧
        ∀ c ∈ key.toList, c ≠ '[' ∧ c ≠ ']' ∧ c ≠ separator := by
  unfold keyText
  by_cases h : needsBrackets separator key = true
  · rw [if_pos h]
    exact .inl rfl
  · rw [if_neg h]
    exact .inr ⟨rfl, plain_of_not_needsBrackets (Bool.not_eq_true _ ▸ h)⟩

theorem keyText_ne (separator : Char) (key : String) : keyText separator key ≠ "" := by
  rcases keyText_cases separator key with h | ⟨h, hne, -⟩
  · rw [h]
    simp
  · rwa [h]

theorem atKey?_eq (p : Path) (key : String) : p.atKey? key =
    if (p.appendText (keyText p.separator key)).size = p.size + 1 ∧
      ((p.appendText (keyText p.separator key)).last?.any
        fun s => s.text == key && !s.kind.corrupted) = true
    then some (p.appendText (keyText p.separator key)) else none := by
  unfold atKey? keyText
  split <;> simp

theorem segments_keyText (separator : Char) {key : String} (h : Balanced key.toList) :
    ∃ kind : SegmentKind, kind.isBlank = false ∧ kind.corrupted = false ∧
      (parseWith separator (keyText separator key)).segments = [⟨key, kind⟩] := by
  rcases keyText_cases separator key with ht | ⟨ht, hne, hplain⟩
  · rw [ht]
    exact ⟨_, SegmentKind.not_isBlank_of_indexed (foldl_refine_indexed _ _),
      foldl_refine_corrupted _ _, segments_parseWith_bracketed separator h⟩
  · rw [ht]
    refine ⟨_, SegmentKind.close_not_isBlank _, ?_, segments_parseWith_plain separator hne hplain⟩
    rw [SegmentKind.close_corrupted, foldl_refine_corrupted]
    rfl

theorem balanced_of_getLast?_keyText {separator : Char} {key : String} {kind : SegmentKind}
    (h : (parseWith separator (keyText separator key)).segments.getLast? = some ⟨key, kind⟩)
    (hk : kind.corrupted = false) : Balanced key.toList := by
  rcases keyText_cases separator key with ht | ⟨-, -, hplain⟩
  · rw [parseWith, List.getLast?_map, Option.map_eq_some_iff] at h
    obtain ⟨span, hlast, hspan⟩ := h
    obtain ⟨htext, hkind⟩ := Segment.mk.inj hspan
    have hlist : span.text = key.toList := by rw [← htext, String.toList_ofList]
    by_cases hb : Balanced (keyText separator key).toList
    · rw [← hlist]
      exact balanced_of_mem_scan hb (List.mem_of_getLast? hlast)
    · obtain ⟨last, hlast', hcorrupted⟩ := corrupted_getLast_scan separator hb
      rw [hlast] at hlast'
      rw [← Option.some.inj hlast', hkind, hk] at hcorrupted
      exact absurd hcorrupted (by decide)
  · exact balanced_of_forall_ne (fun hm => (hplain _ hm).1 rfl) (fun hm => (hplain _ hm).2.1 rfl)

theorem last?_appendText {text : String} (hne : text ≠ "") :
    (p.appendText text).last? = (parseWith p.separator text).segments.getLast? := by
  have hq := segments_parseWith_ne_nil p.separator text
  unfold last?
  cases hp : p.isEmpty with
  | true => rw [appendText_of_isEmpty hp hne]
  | false =>
    rw [segments_appendText_of_not_isEmpty hp hne, List.getLast?_append,
      List.getLast?_eq_some_getLast hq, Option.some_or]

/-- **The keys that have a path are the balanced ones, below a path that is tight.** -/
theorem isSome_atKey?_iff (p : Path) (key : String) :
    (p.atKey? key).isSome = true ↔ Balanced key.toList ∧ p.Tight := by
  have hne := keyText_ne p.separator key
  rw [atKey?_eq, last?_appendText hne]
  constructor
  · intro h
    split at h
    · rename_i hcond
      obtain ⟨hsize, hlast⟩ := hcond
      rw [Option.any_eq_true] at hlast
      obtain ⟨⟨text, kind⟩, hlast, hs⟩ := hlast
      simp only [Bool.and_eq_true, beq_iff_eq, Bool.not_eq_true'] at hs
      obtain ⟨rfl, hk⟩ := hs
      have hb := balanced_of_getLast?_keyText hlast hk
      refine ⟨hb, fun hp => ?_⟩
      obtain ⟨kind', -, -, hseg⟩ := segments_keyText p.separator hb
      rw [appendText_of_isEmpty hp hne, size, hseg] at hsize
      exact List.eq_nil_of_length_eq_zero (Nat.succ.inj hsize).symm
    · simp at h
  · rintro ⟨hb, htight⟩
    obtain ⟨kind, -, hk, hseg⟩ := segments_keyText p.separator hb
    have hsize : (p.appendText (keyText p.separator key)).size = p.size + 1 := by
      rw [size, htight.segments_appendText hne, hseg]
      simp [size]
    rw [if_pos ⟨hsize, by simp [hseg, hk]⟩]
    rfl

theorem segments_of_atKey? {key : String} {child : Path} (h : p.atKey? key = some child) :
    child = p.appendText (keyText p.separator key) ∧ ∃ kind : SegmentKind,
      kind.isBlank = false ∧ child.segments = p.segments ++ [⟨key, kind⟩] := by
  obtain ⟨hb, htight⟩ := (isSome_atKey?_iff p key).1 (by rw [h]; rfl)
  obtain ⟨kind, hblank, -, hseg⟩ := segments_keyText p.separator hb
  have hchild : child = p.appendText (keyText p.separator key) := by
    rw [atKey?_eq] at h
    split at h
    · exact (Option.some.inj h).symm
    · simp at h
  refine ⟨hchild, kind, hblank, ?_⟩
  rw [hchild, htight.segments_appendText (keyText_ne _ _), hseg]

theorem get?_of_atKey? {root : Node} {entries : List (String × Node)} {key : String} {child : Path}
    (hp : root.get? p = some (.map entries)) (h : p.atKey? key = some child) :
    root.get? child = Entries.get? key entries := by
  obtain ⟨-, kind, hblank, hseg⟩ := segments_of_atKey? h
  rw [Node.get?, hseg, Node.follow?_append]
  rw [Node.get?] at hp
  rw [hp, Option.bind_some, Node.follow?_singleton _ hblank, Node.child?]

/-! ## The paths that can be built -/

theorem drop_take_drop_take {α : Type} (xs : List α) {start stop start' stop' : Nat}
    (h : start + stop' ≤ stop) : (((xs.take stop).drop start).take stop').drop start' =
      (xs.take (start + stop')).drop (start + start') := by
  rw [List.take_drop, List.take_take, List.drop_drop]
  congr 2
  omega

theorem slice_eq_ok_iff {q : Path} {start stop : Nat} : p.slice start stop = .ok q ↔
    start ≤ stop ∧ stop ≤ p.size ∧ q = p.window start stop := by
  unfold slice
  split
  · exact iff_of_false (by simp) fun h => by omega
  · split
    · exact iff_of_false (by simp) fun h => by omega
    · rw [Except.ok.injEq, eq_comm]
      exact ⟨fun h => ⟨by omega, by omega, h⟩, fun h => h.2.2⟩

/-- Paths that parsing, cutting and joining give. -/
inductive Built : Path → Prop
  | empty : Built Path.empty
  | parse (separator : Char) (text : String) : Built (parseWith separator text)
  | window {p : Path} {start stop : Nat} (hp : Built p) (hle : start ≤ stop)
      (hstop : stop ≤ p.size) : Built (p.window start stop)
  | append {p q : Path} (hp : Built p) (hq : Built q) : Built (p ++ q)

theorem Built.slice (hp : p.Built) {q : Path} {start stop : Nat}
    (h : p.slice start stop = .ok q) : q.Built := by
  obtain ⟨hle, hstop, rfl⟩ := slice_eq_ok_iff.1 h
  exact hp.window hle hstop

theorem Built.take (hp : p.Built) (limit : Nat) : (p.take limit).Built :=
  hp.window (Nat.zero_le _) (Nat.min_le_right _ _)

theorem Built.render_of_isEmpty (h : p.Built) (he : p.isEmpty = true) : p.render = "" := by
  induction h with
  | empty => rfl
  | parse separator text =>
    rw [isEmpty_parseWith] at he
    exact eq_of_beq he
  | @window p start stop _ _ _ ih =>
    unfold Path.window at he ⊢
    by_cases hall : start = 0 ∧ stop = p.size
    · rw [if_pos hall] at he ⊢
      exact ih he
    · rw [if_neg hall] at he ⊢
      have hnil : (p.segments.take stop).drop start = [] := by simpa [isEmpty] using he
      rw [hnil]
      rfl
  | @append p q _ _ ihp ihq =>
    cases hq : q.isEmpty with
    | true =>
      rw [append_of_isEmpty_right p hq] at he ⊢
      exact ihp he
    | false =>
      rw [isEmpty_append hq] at he
      cases he

theorem Built.tight_or (h : p.Built) : p.Tight ∨ p = parseWith p.separator "" := by
  induction h with
  | empty => exact .inl fun _ => rfl
  | parse separator text =>
    by_cases ht : text = ""
    · subst ht
      exact .inr rfl
    · exact .inl (tight_parseWith separator ht)
  | @window p start stop _ _ _ ih =>
    unfold Path.window
    split
    · exact ih
    · refine .inl fun he => ?_
      simpa [isEmpty] using he
  | @append p q _ _ ihp ihq =>
    cases hq : q.isEmpty with
    | true =>
      rw [append_of_isEmpty_right p hq]
      exact ihp
    | false =>
      cases hp : p.isEmpty with
      | true =>
        rw [append_of_isEmpty_left hq hp]
        exact ihq
      | false =>
        refine .inl fun he => ?_
        rw [isEmpty, Bool.or_eq_true, List.isEmpty_iff, beq_iff_eq] at he
        exact he.resolve_right (append_source_ne hq hp)

/-- **The path parsed from the empty text is the only one that is not tight.** -/
theorem Built.tight_iff (h : p.Built) : p.Tight ↔ p ≠ parseWith p.separator "" := by
  constructor
  · rintro htight he
    rw [he] at htight
    exact segments_parseWith_ne_nil _ _ (htight rfl)
  · exact h.tight_or.resolve_right

end ConfigBind.Path
