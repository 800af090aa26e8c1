import ConfigBind.Text.Template
import Mathlib.Data.List.Basic

/-!
# References of a text

`hasReference` and `wholeReference?` decide about a text without cutting it up.  They agree with
`Template.parse`: a text without reference is left whole (`Template.parse_of_not_hasReference`), and
the reference that a text consists of is one of its references
(`mem_references_of_wholeReference?`).
-/

namespace ConfigBind.Text

theorem splitClose?_append {inner rest : List Char} (h : '\x7d' ∉ inner) :
    splitClose? (inner ++ '\x7d' :: rest) = some (inner, rest) := by
  induction inner with
  | nil => simp [splitClose?]
  | cons c inner ih =>
    simp only [List.mem_cons, not_or] at h
    rw [List.cons_append, splitClose?, if_neg (Ne.symm h.1), ih h.2]
    rfl

theorem splitClose?_isSome (cs : List Char) : (splitClose? cs).isSome = cs.contains '\x7d' := by
  induction cs with
  | nil => rfl
  | cons c cs ih =>
    rw [splitClose?, List.contains_cons]
    by_cases hc : c = '\x7d'
    · simp [hc]
    · rw [if_neg hc, Option.isSome_map, ih]
      simp [Ne.symm hc]

namespace Template

theorem parse_of_not_hasReference {cs : List Char} (h : hasReference cs = false) :
    parse cs = ⟨[], cs⟩ := by
  unfold hasReference at h
  rw [parse]
  split
  · rfl
  · rename_i literal after hopen
    rw [hopen] at h
    have hclose : splitClose? after = none := by
      rw [← Option.isNone_iff_eq_none, ← Option.not_isSome, splitClose?_isSome]
      simpa using h
    split
    · rfl
    · rename_i heq
      rw [hclose] at heq
      cases heq

theorem parse_of_split {cs literal after reference rest : List Char}
    (hopen : splitOpen? cs = some (literal, after))
    (hclose : splitClose? after = some (reference, rest)) :
    parse cs = { parse rest with pieces := (literal, reference) :: (parse rest).pieces } := by
  rw [parse]
  split
  · simp_all
  · rename_i heq
    rw [hopen] at heq
    obtain ⟨rfl, rfl⟩ := Prod.mk.inj (Option.some.inj heq)
    split
    · simp_all
    · rename_i heq
      rw [hclose] at heq
      obtain ⟨rfl, rfl⟩ := Prod.mk.inj (Option.some.inj heq)
      rfl

end Template

theorem mem_references_of_wholeReference? {cs : List Char} {reference : String}
    (h : wholeReference? cs = some reference) : reference ∈ (Template.parse cs).references := by
  unfold wholeReference? at h
  split at h
  · rename_i rest
    simp only at h
    split at h
    · rename_i hcond
      simp only [Bool.and_eq_true, beq_iff_eq, Bool.not_eq_true', List.contains_eq_mem,
        decide_eq_false_iff_not] at hcond
      obtain ⟨⟨⟨hlast, -⟩, -⟩, hclosed⟩ := hcond
      have hrest : rest.dropLast ++ ['\x7d'] = rest :=
        List.dropLast_append_getLast? _ hlast
      have hclose : splitClose? rest = some (rest.dropLast, []) := by
        conv_lhs => rw [← hrest]
        exact splitClose?_append hclosed
      have hopen : splitOpen? ('$' :: '\x7b' :: rest) = some ([], rest) := by rw [splitOpen?]
      rw [← Option.some.inj h, Template.references, Template.parse_of_split hopen hclose]
      exact List.mem_cons_self
    · cases h
  · cases h

theorem wholeReference?_of_not_hasReference {cs : List Char} (h : hasReference cs = false) :
    wholeReference? cs = none := by
  cases hw : wholeReference? cs with
  | none => rfl
  | some reference =>
    have := mem_references_of_wholeReference? hw
    rw [Template.parse_of_not_hasReference h] at this
    simp [Template.references] at this

end ConfigBind.Text
