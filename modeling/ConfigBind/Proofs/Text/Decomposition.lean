import ConfigBind.Proofs.Text.References
import Mathlib.Data.List.Infix

/-!
# Texts as templates

Cutting a text at its references, asking whether it holds one and whether it is one are three
searches of the same text, and they agree.  `Template.Exact` says of a template, without a search,
that it is cut at all the references that its text has; every text has one such template, which is
the one that `Template.parse` finds (`Template.parse_render`, `Template.exact_parse_and_render`).

`Template.Resolves` is a series of calls of a resolver, which may change a state or fail.

* `hasReference_iff`, `wholeReference?_eq_some_iff`: what the two tests ask for.
* `Template.comesTo_fill_of_resolves`, `Template.comesTo_fill_of_rejected`: filling a template calls
  the resolver on its references, in order, up to the first that it rejects.
* `scanners_agree`: all of this about every text and every resolver.
-/

namespace ConfigBind.Text

/-! ## Marks -/

/-- The text has an opening mark. -/
def Opens (cs : List Char) : Prop := ['$', '\x7b'] <:+: cs

theorem opens_iff {cs : List Char} :
    Opens cs ↔ ∃ before after, cs = before ++ '$' :: '\x7b' :: after := by
  simp [Opens, List.IsInfix, eq_comm]

theorem not_opens_nil : ¬ Opens [] := by
  simp [Opens]

theorem opens_cons_iff {c : Char} {cs : List Char} :
    Opens (c :: cs) ↔ (∃ rest, c = '$' ∧ cs = '\x7b' :: rest) ∨ Opens cs := by
  rw [Opens, List.infix_cons_iff, ← Opens]
  refine or_congr_left ?_
  rw [List.cons_prefix_cons]
  constructor
  · rintro ⟨rfl, rest, rfl⟩
    exact ⟨rest, rfl, rfl⟩
  · rintro ⟨rest, rfl, rfl⟩
    exact ⟨rfl, rest, rfl⟩

theorem splitOpen?_append {before : List Char} (h : ¬ Opens before) (after : List Char) :
    splitOpen? (before ++ '$' :: '\x7b' :: after) = some (before, after) := by
  induction before with
  | nil => rfl
  | cons c before ih =>
    rw [opens_cons_iff, not_or] at h
    obtain ⟨hfirst, hrest⟩ := h
    have hc : ∀ rest, c = '$' → before ++ '$' :: '\x7b' :: after ≠ '\x7b' :: rest := by
      rintro rest rfl heq
      cases before with
      | nil => cases heq
      | cons d before =>
        obtain ⟨rfl, -⟩ := List.cons.inj heq
        exact hfirst ⟨before, rfl, rfl⟩
    rw [List.cons_append, splitOpen?, ih hrest]
    · rfl
    · exact hc

theorem splitOpen?_eq_some {cs before after : List Char}
    (h : splitOpen? cs = some (before, after)) :
    cs = before ++ '$' :: '\x7b' :: after ∧ ¬ Opens before := by
  fun_induction splitOpen? cs generalizing before after with
  | case1 => cases h
  | case2 rest =>
    obtain ⟨rfl, rfl⟩ := Prod.mk.inj (Option.some.inj h)
    exact ⟨rfl, not_opens_nil⟩
  | case3 c rest hc ih =>
    obtain ⟨⟨before, after⟩, hsplit, heq⟩ := Option.map_eq_some_iff.1 h
    obtain ⟨rfl, rfl⟩ := Prod.mk.inj heq
    obtain ⟨rfl, hbefore⟩ := ih hsplit
    refine ⟨rfl, ?_⟩
    rw [opens_cons_iff, not_or]
    refine ⟨?_, hbefore⟩
    rintro ⟨more, rfl, rfl⟩
    exact hc _ rfl rfl

theorem splitOpen?_eq_none_iff {cs : List Char} : splitOpen? cs = none ↔ ¬ Opens cs := by
  fun_induction splitOpen? cs with
  | case1 => simp [not_opens_nil]
  | case2 rest => simp [opens_cons_iff]
  | case3 c rest hc ih =>
    have hfirst : ¬ ∃ more, c = '$' ∧ rest = '\x7b' :: more := by
      rintro ⟨more, rfl, rfl⟩
      exact hc _ rfl rfl
    rw [Option.map_eq_none_iff, ih, opens_cons_iff, or_iff_right hfirst]

theorem splitClose?_eq_some {cs before after : List Char}
    (h : splitClose? cs = some (before, after)) :
    cs = before ++ '\x7d' :: after ∧ '\x7d' ∉ before := by
  induction cs generalizing before with
  | nil => cases h
  | cons c cs ih =>
    rw [splitClose?] at h
    by_cases hc : c = '\x7d'
    · rw [if_pos hc] at h
      obtain ⟨rfl, rfl⟩ := Prod.mk.inj (Option.some.inj h)
      exact ⟨by rw [hc, List.nil_append], List.not_mem_nil⟩
    · rw [if_neg hc] at h
      obtain ⟨⟨before, after⟩, hsplit, heq⟩ := Option.map_eq_some_iff.1 h
      obtain ⟨rfl, rfl⟩ := Prod.mk.inj heq
      obtain ⟨rfl, hbefore⟩ := ih hsplit
      exact ⟨rfl, List.not_mem_cons_of_ne_of_not_mem (Ne.symm hc) hbefore⟩

/-! ## The two tests -/

/-- **A text holds a reference if a brace closes behind some opening mark.** -/
theorem hasReference_iff {cs : List Char} : hasReference cs = true ↔
    ∃ before after, cs = before ++ '$' :: '\x7b' :: after ∧ '\x7d' ∈ after := by
  unfold hasReference
  fun_induction splitOpen? cs with
  | case1 => simp
  | case2 rest =>
    rw [List.contains_iff_mem]
    refine ⟨fun h => ⟨[], rest, rfl, h⟩, ?_⟩
    rintro ⟨before, after, heq, hafter⟩
    -- whatever mark comes before the brace, the brace lies behind the first one
    have hmem : '\x7d' ∈ '$' :: '\x7b' :: rest := by
      rw [heq]
      simp [hafter]
    simpa using hmem
  | case3 c rest hc ih =>
    have hfirst : ∀ more, c = '$' → rest ≠ '\x7b' :: more := fun more hdollar heq =>
      hc more hdollar heq
    have hsame : (∃ before after, c :: rest = before ++ '$' :: '\x7b' :: after ∧ '\x7d' ∈ after) ↔
        ∃ before after, rest = before ++ '$' :: '\x7b' :: after ∧ '\x7d' ∈ after := by
      constructor
      · rintro ⟨before, after, heq, hafter⟩
        cases before with
        | nil =>
          obtain ⟨rfl, hrest⟩ := List.cons.inj heq
          exact absurd hrest (hfirst after rfl)
        | cons d before => exact ⟨before, after, (List.cons.inj heq).2, hafter⟩
      · rintro ⟨before, after, rfl, hafter⟩
        exact ⟨c :: before, after, rfl, hafter⟩
    rw [hsame, ← ih]
    cases splitOpen? rest <;> rfl

/-- **A text is one reference if it is written as one**, which is not empty and holds no mark. -/
theorem wholeReference?_eq_some_iff {cs : List Char} {name : String} :
    wholeReference? cs = some name ↔ ∃ reference, cs = Template.written reference ∧
      reference ≠ [] ∧ ¬ Opens reference ∧ '\x7d' ∉ reference ∧
        String.ofList (trim reference) = name := by
  constructor
  · intro h
    unfold wholeReference? at h
    split at h
    · rename_i rest
      dsimp only at h
      split at h
      · rename_i hcond
        simp only [Bool.and_eq_true, beq_iff_eq, Bool.not_eq_true', List.isEmpty_eq_false_iff,
          Option.isNone_iff_eq_none, splitOpen?_eq_none_iff, List.contains_eq_mem,
          decide_eq_false_iff_not] at hcond
        obtain ⟨⟨⟨hlast, hne⟩, hopens⟩, hclosed⟩ := hcond
        refine ⟨rest.dropLast, ?_, hne, hopens, hclosed, Option.some.inj h⟩
        rw [Template.written, List.cons_append, List.cons_append,
          List.dropLast_append_getLast? _ hlast]
      · cases h
    · cases h
  · rintro ⟨reference, rfl, hne, hopens, hclosed, rfl⟩
    have hnone : splitOpen? reference = none := splitOpen?_eq_none_iff.2 hopens
    simp [wholeReference?, Template.written, hne, hnone, hclosed]

namespace Template

/-! ## One template for every text -/

/-- The template is cut at all references that its text has: none begins in a literal part, each
ends at its first closing brace, and what is left has none. -/
structure Exact (t : Template) : Prop where
  literals : ∀ piece ∈ t.pieces, ¬ Opens piece.1
  references : ∀ piece ∈ t.pieces, '\x7d' ∉ piece.2
  tail : ∀ before after, t.tail = before ++ '$' :: '\x7b' :: after → '\x7d' ∉ after

theorem render_cons (literal reference : List Char) (pieces : List (List Char × List Char))
    (tail : List Char) : render ⟨(literal, reference) :: pieces, tail⟩ =
      literal ++ '$' :: '\x7b' :: (reference ++ '\x7d' :: render ⟨pieces, tail⟩) := by
  simp [render, written]

theorem references_cons (literal reference : List Char) (pieces : List (List Char × List Char))
    (tail : List Char) : references ⟨(literal, reference) :: pieces, tail⟩ =
      String.ofList (trim reference) :: references ⟨pieces, tail⟩ := rfl

theorem Exact.of_cons {piece : List Char × List Char} {pieces : List (List Char × List Char)}
    {tail : List Char} (h : Exact ⟨piece :: pieces, tail⟩) : Exact ⟨pieces, tail⟩ where
  literals x hx := h.literals x (List.mem_cons_of_mem _ hx)
  references x hx := h.references x (List.mem_cons_of_mem _ hx)
  tail := h.tail

/-- **An exact template is what its text is cut to.** -/
theorem parse_render {t : Template} (h : t.Exact) : parse t.render = t := by
  obtain ⟨pieces, tail⟩ := t
  induction pieces with
  | nil =>
    have hnone : hasReference tail = false := by
      rw [← Bool.not_eq_true, hasReference_iff]
      rintro ⟨before, after, heq, hafter⟩
      exact h.tail before after heq hafter
    exact parse_of_not_hasReference hnone
  | cons piece pieces ih =>
    obtain ⟨literal, reference⟩ := piece
    have hopen := splitOpen?_append (h.literals _ List.mem_cons_self)
      (reference ++ '\x7d' :: render ⟨pieces, tail⟩)
    have hclose : splitClose? (reference ++ '\x7d' :: render ⟨pieces, tail⟩) =
        some (reference, render ⟨pieces, tail⟩) :=
      splitClose?_append (h.references _ List.mem_cons_self)
    rw [render_cons, parse_of_split hopen hclose, ih h.of_cons]

/-- **Every text is cut to an exact template of it.** -/
theorem exact_parse_and_render (cs : List Char) : (parse cs).Exact ∧ (parse cs).render = cs := by
  fun_induction parse cs with
  | case1 cs hopen =>
    refine ⟨⟨by simp, by simp, fun before after heq => ?_⟩, by simp [render]⟩
    exact absurd (opens_iff.2 ⟨before, after, heq⟩) (splitOpen?_eq_none_iff.1 hopen)
  | case2 cs literal after hopen hclose =>
    have hnone : hasReference cs = false := by
      rw [hasReference, hopen]
      dsimp only
      rw [← splitClose?_isSome, hclose]
      rfl
    refine ⟨⟨by simp, by simp, fun before after heq hafter => ?_⟩, by simp [render]⟩
    rw [hasReference_iff.2 ⟨before, after, heq, hafter⟩] at hnone
    cases hnone
  | case3 cs literal after hopen reference rest hclose t ih =>
    obtain ⟨hexact, hrender⟩ := ih
    obtain ⟨rfl, hliteral⟩ := splitOpen?_eq_some hopen
    obtain ⟨rfl, hreference⟩ := splitClose?_eq_some hclose
    refine ⟨⟨?_, ?_, hexact.tail⟩, ?_⟩
    · exact List.forall_mem_cons.2 ⟨hliteral, hexact.literals⟩
    · exact List.forall_mem_cons.2 ⟨hreference, hexact.references⟩
    · rw [render_cons]
      exact congrArg (fun rest => literal ++ '$' :: '\x7b' :: (reference ++ '\x7d' :: rest)) hrender

/-- **Every text has exactly one exact template.** -/
theorem existsUnique_exact (cs : List Char) : ∃! t : Template, t.Exact ∧ t.render = cs := by
  refine ⟨parse cs, exact_parse_and_render cs, ?_⟩
  rintro t ⟨hexact, rfl⟩
  exact (parse_render hexact).symm

theorem hasReference_render_iff {t : Template} (h : t.Exact) :
    hasReference t.render = true ↔ t.pieces ≠ [] := by
  obtain ⟨pieces, tail⟩ := t
  rw [hasReference_iff]
  cases pieces with
  | nil =>
    simp only [ne_eq, not_true_eq_false, iff_false, not_exists, not_and]
    exact h.tail
  | cons piece pieces =>
    obtain ⟨literal, reference⟩ := piece
    simp only [ne_eq, reduceCtorEq, not_false_eq_true, iff_true]
    exact ⟨literal, _, render_cons literal reference pieces tail, by simp⟩

theorem eq_of_wholeReference? {t : Template} (h : t.Exact) {name : String}
    (hname : wholeReference? t.render = some name) :
    ∃ reference, t = ⟨[([], reference)], []⟩ ∧ String.ofList (trim reference) = name := by
  obtain ⟨reference, hrender, -, -, hclosed, rfl⟩ := wholeReference?_eq_some_iff.1 hname
  have hexact : Exact ⟨[([], reference)], []⟩ := by
    refine ⟨?_, ?_, by simp⟩
    · simpa using not_opens_nil
    · simpa using hclosed
  refine ⟨reference, ?_, rfl⟩
  rw [← parse_render h, ← parse_render hexact, hrender]
  simp [render]

/-! ## Filling in values -/

/-- The text with values in place of the references; a reference without one stays as it was
written. -/
def filledWith (t : Template) (values : List (Option String)) : List Char :=
  (t.pieces.zip values).flatMap (fun ((literal, reference), value) =>
    literal ++ (value.map String.toList).getD (written reference)) ++ t.tail

theorem filledWith_cons (literal reference : List Char) (pieces : List (List Char × List Char))
    (tail : List Char) (value : Option String) (values : List (Option String)) :
    filledWith ⟨(literal, reference) :: pieces, tail⟩ (value :: values) =
      literal ++ (value.map String.toList).getD (written reference) ++
        filledWith ⟨pieces, tail⟩ values := by
  simp [filledWith]

theorem filledWith_none (t : Template) :
    t.filledWith (t.references.map fun _ => none) = t.render := by
  obtain ⟨pieces, tail⟩ := t
  induction pieces with
  | nil => rfl
  | cons piece pieces ih =>
    have ih : filledWith ⟨pieces, tail⟩ ((references ⟨pieces, tail⟩).map fun _ => none) =
        render ⟨pieces, tail⟩ := ih
    obtain ⟨literal, reference⟩ := piece
    rw [references_cons, List.map_cons, filledWith_cons, ih, render_cons]
    simp [written]

section

variable {ε σ α β : Type} {s u v : σ} {e : ε}

abbrev comesTo (x : ExceptT ε (StateM σ) α) (s : σ) : Except ε α × σ := (x.run.run s).run

theorem comesTo_bind_of_ok {x : ExceptT ε (StateM σ) α} {a : α} (h : comesTo x s = (.ok a, u))
    (k : α → ExceptT ε (StateM σ) β) : comesTo (x >>= k) s = comesTo (k a) u := by
  show StateT.run (ExceptT.bindCont k (comesTo x s).1) (comesTo x s).2 = _
  rw [h]
  rfl

theorem comesTo_bind_of_error {x : ExceptT ε (StateM σ) α} (h : comesTo x s = (.error e, u))
    (k : α → ExceptT ε (StateM σ) β) : comesTo (x >>= k) s = (.error e, u) := by
  show StateT.run (ExceptT.bindCont k (comesTo x s).1) (comesTo x s).2 = _
  rw [h]
  rfl

variable {resolve : String → ExceptT ε (StateM σ) (Option String)}

/-- Called on some references, one after the other, the resolver comes to these values, and from the
state `s` to another one. -/
inductive Resolves (resolve : String → ExceptT ε (StateM σ) (Option String)) :
    σ → List String → List (Option String) → σ → Prop
  | nil {s : σ} : Resolves resolve s [] [] s
  | cons {s u v : σ} {reference : String} {value : Option String} {rest : List String}
      {values : List (Option String)} (h : comesTo (resolve reference) s = (.ok value, u))
      (hrest : Resolves resolve u rest values v) :
      Resolves resolve s (reference :: rest) (value :: values) v

theorem resolves_or_rejects (resolve : String → ExceptT ε (StateM σ) (Option String))
    (references : List String) (s : σ) :
    (∃ values u, Resolves resolve s references values u) ∨
      ∃ before reference after values u e v, references = before ++ reference :: after ∧
        Resolves resolve s before values u ∧ comesTo (resolve reference) u = (.error e, v) := by
  induction references generalizing s with
  | nil => exact .inl ⟨[], s, .nil⟩
  | cons reference rest ih =>
    rcases hcall : comesTo (resolve reference) s with ⟨e | value, u⟩
    · exact .inr ⟨[], reference, rest, [], s, e, u, rfl, .nil, hcall⟩
    · rcases ih u with ⟨values, v, h⟩ | ⟨before, rejected, after, values, v, e, w, rfl, h, herror⟩
      · exact .inl ⟨value :: values, v, .cons hcall h⟩
      · exact .inr ⟨reference :: before, rejected, after, value :: values, v, e, w, rfl,
          .cons hcall h, herror⟩

/-- **A template is filled with what its references resolve to.** -/
theorem comesTo_fill_of_resolves {t : Template} {values : List (Option String)}
    (h : Resolves resolve s t.references values u) :
    comesTo (t.fill resolve) s = (.ok (t.filledWith values), u) := by
  obtain ⟨pieces, tail⟩ := t
  show comesTo (fillPieces resolve tail pieces) s = _
  induction pieces generalizing s values with
  | nil =>
    cases h
    rfl
  | cons piece pieces ih =>
    obtain ⟨literal, reference⟩ := piece
    cases h with
    | cons hcall hrest =>
      rw [fillPieces, comesTo_bind_of_ok hcall, comesTo_bind_of_ok (ih hrest), filledWith_cons]
      rfl

/-- **Filling a template ends with the first reference that is rejected.** -/
theorem comesTo_fill_of_rejected {t : Template} {before after : List String} {reference : String}
    {values : List (Option String)} (ht : t.references = before ++ reference :: after)
    (h : Resolves resolve s before values u)
    (herror : comesTo (resolve reference) u = (.error e, v)) :
    comesTo (t.fill resolve) s = (.error e, v) := by
  obtain ⟨pieces, tail⟩ := t
  show comesTo (fillPieces resolve tail pieces) s = _
  induction pieces generalizing s before values with
  | nil => simp [references] at ht
  | cons piece pieces ih =>
    obtain ⟨literal, name⟩ := piece
    rw [references_cons] at ht
    rw [fillPieces]
    cases h with
    | nil =>
      obtain ⟨rfl, -⟩ := List.cons.inj ht
      exact comesTo_bind_of_error herror _
    | cons hcall hrest =>
      obtain ⟨rfl, hmore⟩ := List.cons.inj ht
      rw [comesTo_bind_of_ok hcall]
      exact comesTo_bind_of_error (ih hrest hmore) _

theorem resolves_none (hnone : ∀ reference s, (comesTo (resolve reference) s).1 = .ok none)
    (references : List String) (s : σ) :
    ∃ u, Resolves resolve s references (references.map fun _ => none) u := by
  induction references generalizing s with
  | nil => exact ⟨s, .nil⟩
  | cons reference rest ih =>
    obtain ⟨u, hrest⟩ := ih (comesTo (resolve reference) s).2
    exact ⟨u, .cons (Prod.ext (hnone reference s) rfl) hrest⟩

end

end Template

/-- **Every text has one template, which all who read it agree on**: whether it holds a reference,
whether it is one, and what a resolver, called from left to right until it fails, fills it to. -/
theorem scanners_agree (cs : List Char) : (∃! t : Template, t.Exact ∧ t.render = cs) ∧
    ∀ t : Template, t.Exact → t.render = cs →
      (hasReference cs = true ↔ t.pieces ≠ []) ∧
      (∀ name, wholeReference? cs = some name →
        ∃ reference, t = ⟨[([], reference)], []⟩ ∧ t.references = [name]) ∧
      ∀ (ε σ : Type) (resolve : String → ExceptT ε (StateM σ) (Option String)) (s : σ),
        ((∃ values u, Template.Resolves resolve s t.references values u ∧
            Template.comesTo ((Template.parse cs).fill resolve) s =
              (.ok (t.filledWith values), u)) ∨
          ∃ before reference after values u e v, t.references = before ++ reference :: after ∧
            Template.Resolves resolve s before values u ∧
            Template.comesTo (resolve reference) u = (.error e, v) ∧
            Template.comesTo ((Template.parse cs).fill resolve) s = (.error e, v)) ∧
        ((∀ reference u, (Template.comesTo (resolve reference) u).1 = .ok none) →
          (Template.comesTo ((Template.parse cs).fill resolve) s).1 = .ok cs) := by
  refine ⟨Template.existsUnique_exact cs, ?_⟩
  rintro t hexact rfl
  rw [Template.parse_render hexact]
  refine ⟨Template.hasReference_render_iff hexact, fun name hname => ?_,
    fun ε σ resolve s => ⟨?_, fun hnone => ?_⟩⟩
  · obtain ⟨reference, rfl, rfl⟩ := Template.eq_of_wholeReference? hexact hname
    exact ⟨reference, rfl, rfl⟩
  · rcases Template.resolves_or_rejects resolve t.references s with
      ⟨values, u, h⟩ | ⟨before, reference, after, values, u, e, v, ht, h, herror⟩
    · exact .inl ⟨values, u, h, Template.comesTo_fill_of_resolves h⟩
    · exact .inr ⟨before, reference, after, values, u, e, v, ht, h, herror,
        Template.comesTo_fill_of_rejected ht h herror⟩
  · obtain ⟨u, h⟩ := Template.resolves_none hnone t.references s
    rw [Template.comesTo_fill_of_resolves h, Template.filledWith_none]

end ConfigBind.Text

namespace ConfigBind.Sample

open Text

def remember (reference : String) : ExceptT String (StateM (List String)) (Option String) := do
  modify (· ++ [reference])
  if reference = "b" then return some "$\x7bc\x7d" else throw ("no " ++ reference)

def openEnded : Template := ⟨[(['a', '$'], [' ', 'b', ' '])], ['$', '\x7b', 'c']⟩

def unknownFirst : Template := ⟨[([], ['c']), ([], ['b'])], []⟩

theorem exact_openEnded : openEnded.Exact where
  literals := by simp [openEnded, opens_cons_iff, not_opens_nil]
  references := by simp [openEnded]
  tail before after heq hafter := by
    have hnone : hasReference openEnded.tail = false := rfl
    rw [hasReference_iff.2 ⟨before, after, heq, hafter⟩] at hnone
    cases hnone

theorem exact_unknownFirst : unknownFirst.Exact where
  literals := by simp [unknownFirst, not_opens_nil]
  references := by simp [unknownFirst]
  tail := by simp [unknownFirst]

/-- The value of a reference is not read again, and the first unknown name ends the calls. -/
theorem openEnded_is_filled :
    (openEnded.Exact ∧ openEnded.render = "a$$\x7b b \x7d$\x7bc".toList) ∧
    hasReference "a$$\x7b b \x7d$\x7bc".toList = true ∧
    Template.comesTo ((Template.parse "a$$\x7b b \x7d$\x7bc".toList).fill remember) [] =
      (.ok "a$$\x7bc\x7d$\x7bc".toList, ["b"]) ∧
    (unknownFirst.Exact ∧ unknownFirst.render = "$\x7bc\x7d$\x7bb\x7d".toList) ∧
    Template.comesTo ((Template.parse "$\x7bc\x7d$\x7bb\x7d".toList).fill remember) [] =
      (.error "no c", ["c"]) := by
  have hknown (asked : List String) : Template.comesTo (remember "b") asked =
      (.ok (some "$\x7bc\x7d"), asked ++ ["b"]) := rfl
  have hunknown (asked : List String) : Template.comesTo (remember "c") asked =
      (.error "no c", asked ++ ["c"]) := rfl
  have hopen : openEnded.render = "a$$\x7b b \x7d$\x7bc".toList := rfl
  have hfirst : unknownFirst.render = "$\x7bc\x7d$\x7bb\x7d".toList := rfl
  obtain ⟨-, hlaw⟩ := scanners_agree "a$$\x7b b \x7d$\x7bc".toList
  obtain ⟨hholds, -, hfilled⟩ := hlaw openEnded exact_openEnded hopen
  obtain ⟨-, hlaw'⟩ := scanners_agree "$\x7bc\x7d$\x7bb\x7d".toList
  obtain ⟨-, -, hrejected⟩ := hlaw' unknownFirst exact_unknownFirst hfirst
  refine ⟨⟨exact_openEnded, hopen⟩, hholds.2 (by simp [openEnded]), ?_,
    ⟨exact_unknownFirst, hfirst⟩, ?_⟩
  · have hreferences : openEnded.references = ["b"] := rfl
    rw [hreferences] at hfilled
    rcases (hfilled _ _ remember []).1 with
      ⟨values, u, hcalls, h⟩ | ⟨before, reference, after, values, u, e, v, hsplit, -, herror, -⟩
    · cases hcalls with
      | cons hcall hrest =>
        cases hrest
        rw [hknown] at hcall
        cases hcall
        exact h
    · have hname : reference = "b" := by
        cases before with
        | nil => exact (List.cons.inj hsplit).1.symm
        | cons first rest => simp at hsplit
      rw [hname, hknown] at herror
      cases herror
  · have hreferences : unknownFirst.references = ["c", "b"] := rfl
    rw [hreferences] at hrejected
    rcases (hrejected _ _ remember []).1 with
      ⟨values, u, hcalls, -⟩ |
        ⟨before, reference, after, values, u, e, v, hsplit, hcalls, herror, h⟩
    · cases hcalls with
      | cons hcall hrest =>
        rw [hunknown] at hcall
        cases hcall
    · cases hcalls with
      | nil =>
        obtain ⟨rfl, -⟩ := List.cons.inj hsplit
        rw [hunknown] at herror
        cases herror
        exact h
      | cons hcall hrest =>
        obtain ⟨rfl, -⟩ := List.cons.inj hsplit
        rw [hunknown] at hcall
        cases hcall

end ConfigBind.Sample
