import ConfigBind.Proofs.Convert.Integers
import Mathlib

/-!
# Values and their texts

A truth value or an integer is converted to an integer, a truth value, a character or a text in the
same way as the text that shows it.  Two ways lead there that have nothing in common: the range of
the value is checked, or its digits are read.

* `Convert.spells_toString_iff`: the text of an integer spells this integer only.
* `Conversion.convert_eq_ok_iff_of_shows`: what is converted of a value, and what of its text.
-/

namespace ConfigBind

namespace Text

variable {before cs after : List Char}

theorem trim_between (hbefore : ∀ c ∈ before, isBlank c = true)
    (hcs : ∀ c ∈ cs, isBlank c = false) (hafter : ∀ c ∈ after, isBlank c = true) :
    trim (before ++ cs ++ after) = cs := by
  have hkept (cs : List Char) (h : ∀ c ∈ cs, isBlank c = false) : cs.dropWhile isBlank = cs := by
    cases cs with
    | nil => rfl
    | cons c rest => exact List.dropWhile_cons_of_neg (by simp [h c List.mem_cons_self])
  rw [trim, List.append_assoc, List.dropWhile_append_of_pos hbefore]
  cases cs with
  | nil =>
    have hblank : after.dropWhile isBlank = [] := by
      rw [← List.append_nil after, List.dropWhile_append_of_pos hafter]
      rfl
    rw [List.nil_append, hblank]
    rfl
  | cons c rest =>
    have hhead : ¬ isBlank c = true := by simp [hcs c List.mem_cons_self]
    rw [List.cons_append, List.dropWhile_cons_of_neg hhead, ← List.cons_append, List.reverse_append,
      List.dropWhile_append_of_pos fun d hd => hafter d (List.mem_reverse.1 hd),
      hkept _ fun d hd => hcs d (List.mem_reverse.1 hd), List.reverse_reverse]

theorem toNat_of_isDigit {c : Char} (h : c.isDigit = true) : 48 ≤ c.toNat ∧ c.toNat ≤ 57 := by
  simp only [Char.isDigit, Bool.and_eq_true, decide_eq_true_eq] at h
  exact h

theorem isBlank_of_isDigit {c : Char} (h : c.isDigit = true) : isBlank c = false := by
  have hdigit := toNat_of_isDigit h
  simp only [isBlank, Bool.or_eq_false_iff, Bool.and_eq_false_iff, decide_eq_false_iff_not,
    beq_eq_false_iff_ne, ne_eq]
  omega

theorem toLower_of_isDigit {c : Char} (h : c.isDigit = true) : c.toLower = c := by
  have hdigit := toNat_of_isDigit h
  refine dif_neg fun hupper => ?_
  have hle : 65 ≤ c.toNat := hupper.1
  omega

end Text

/-! ## Texts of integers -/

theorem toList_toString_int (m : Int) : (toString m).toList =
    if m < 0 then '-' :: Nat.toDigits 10 m.natAbs else Nat.toDigits 10 m.natAbs := by
  cases m with
  | ofNat n =>
    rw [if_neg (by simp)]
    exact Nat.toList_repr
  | negSucc n =>
    have hrepr : toString (Int.negSucc n) = "-" ++ Nat.repr (n + 1) := rfl
    rw [if_pos (Int.negSucc_lt_zero n), hrepr, String.toList_append, Nat.toList_repr]
    rfl

namespace Convert

theorem isDecimal_toDigits (n : Nat) : IsDecimal (Nat.toDigits 10 n) :=
  ⟨Nat.toDigits_ne_nil, fun _ hc => Nat.isDigit_of_mem_toDigits (by decide) (by decide) hc⟩

theorem isDigit_or_of_mem_toString {m : Int} {c : Char} (h : c ∈ (toString m).toList) :
    c.isDigit = true ∨ c = '-' := by
  rw [toList_toString_int] at h
  split at h
  · rcases List.mem_cons.1 h with rfl | h
    · exact .inr rfl
    · exact .inl ((isDecimal_toDigits _).2 c h)
  · exact .inl ((isDecimal_toDigits _).2 c h)

/-- **The text of an integer spells this integer only**, and a negative one for types with sign
only. -/
theorem spells_toString_iff {signed : Bool} {m n : Int} :
    Spells signed (toString m).toList n ↔ n = m ∧ (m < 0 → signed = true) := by
  have hdigits := isDecimal_toDigits m.natAbs
  have hvalue := Nat.ofDigitChars_ten_toDigits (n := m.natAbs)
  rw [toList_toString_int]
  by_cases hm : m < 0
  · rw [if_pos hm]
    constructor
    · intro h
      generalize hcs : '-' :: Nat.toDigits 10 m.natAbs = cs at h
      cases h with
      | plain h =>
        subst hcs
        exact absurd (h.2 '-' List.mem_cons_self) (by decide)
      | plus h => simp at hcs
      | minus hsigned h =>
        obtain rfl := (List.cons.inj hcs).2
        exact ⟨by omega, fun _ => hsigned⟩
    · rintro ⟨rfl, hsigned⟩
      have h := Spells.minus (hsigned hm) hdigits
      rw [hvalue] at h
      have hneg : (-(n.natAbs : Int)) = n := by omega
      rwa [hneg] at h
  · rw [if_neg hm]
    constructor
    · intro h
      generalize hcs : Nat.toDigits 10 m.natAbs = cs at h hdigits hvalue
      cases h with
      | plain h => exact ⟨by omega, fun hneg => absurd hneg hm⟩
      | plus h => exact absurd (hdigits.2 '+' List.mem_cons_self) (by decide)
      | minus hsigned h => exact absurd (hdigits.2 '-' List.mem_cons_self) (by decide)
    · rintro ⟨rfl, -⟩
      have h : Spells signed _ _ := .plain hdigits
      rw [hvalue] at h
      have hnat : (n.natAbs : Int) = n := by omega
      rwa [hnat] at h

theorem integerOfText?_toString (t : IntegerType) (m : Int) :
    integerOfText? t (toString m).toList = if t.holds m then some m else none := by
  have hsigned (h : t.holds m = true) (hm : m < 0) : t.signed = true := by
    by_contra hunsigned
    have hlowest : t.lowest ≤ m := (holds_iff.1 h).1
    rw [IntegerType.lowest, if_neg hunsigned] at hlowest
    omega
  ext n
  rw [integerOfText?_eq_some_iff, spells_toString_iff, ← holds_iff]
  by_cases h : t.holds m = true
  · rw [if_pos h, Option.some.injEq]
    constructor
    · rintro ⟨⟨rfl, -⟩, -⟩
      rfl
    · rintro rfl
      exact ⟨⟨rfl, hsigned h⟩, h⟩
  · rw [if_neg h]
    constructor
    · rintro ⟨⟨rfl, -⟩, hn⟩
      exact absurd hn h
    · intro hn
      cases hn

theorem toString_ne_of_mem {m : Int} {word : String} {c : Char} (hc : c ∈ word.toList)
    (hdigit : c.isDigit = false) (hminus : c ≠ '-') : toString m ≠ word := by
  rintro rfl
  rcases isDigit_or_of_mem_toString hc with h | h
  · exact absurd h (by simp [hdigit])
  · exact hminus h

theorem contains_toString_iff (m : Int) :
    (["true", "yes", "on", "1"].contains (toString m) = true ↔ m = 1) ∧
      (["false", "no", "off", "0"].contains (toString m) = true ↔ m = 0) := by
  have htrue : toString m ≠ "true" := toString_ne_of_mem (c := 't') (by decide) rfl (by decide)
  have hyes : toString m ≠ "yes" := toString_ne_of_mem (c := 'y') (by decide) rfl (by decide)
  have hon : toString m ≠ "on" := toString_ne_of_mem (c := 'o') (by decide) rfl (by decide)
  have hfalse : toString m ≠ "false" := toString_ne_of_mem (c := 'f') (by decide) rfl (by decide)
  have hno : toString m ≠ "no" := toString_ne_of_mem (c := 'n') (by decide) rfl (by decide)
  have hoff : toString m ≠ "off" := toString_ne_of_mem (c := 'o') (by decide) rfl (by decide)
  have hone : toString m = "1" ↔ m = 1 := Int.repr_inj (b := 1)
  have hzero : toString m = "0" ↔ m = 0 := Int.repr_inj (b := 0)
  simp only [List.contains_iff_mem, List.mem_cons, List.not_mem_nil, htrue, hyes, hon, hone, hfalse,
    hno, hoff, hzero, false_or, or_false, and_self]

theorem bool_of_trim {s : String} {m : Int} (h : Text.trim s.toList = (toString m).toList) :
    bool (.text s) = if m = 1 then .ok (.bool true) else if m = 0 then .ok (.bool false)
      else .error (.invalid s TypeRef.bool.name) := by
  have hlower : (toString m).toList.map Char.toLower = (toString m).toList := by
    refine (List.map_congr_left fun c hc => ?_).trans (List.map_id _)
    rcases isDigit_or_of_mem_toString hc with h | rfl
    · exact Text.toLower_of_isDigit h
    · rfl
  obtain ⟨htrue, hfalse⟩ := contains_toString_iff m
  simp only [bool, h, hlower, String.ofList_toList, htrue, hfalse]

theorem bool_of_integer? {n : Node} {m : Int} (h : n.integer? = some m)
    (htext : n.textual? = some (toString m)) :
    bool n = if m = 1 then .ok (.bool true) else if m = 0 then .ok (.bool false)
      else .error (.invalid (toString m) TypeRef.bool.name) := by
  cases n with
  | int value | uint value =>
    simp only [bool, h, htext]
    split <;> simp_all
  | _ => cases h

end Convert

/-! ## Truth values and integers -/

/-- A truth value or an integer. -/
inductive Node.IsDiscrete : Node → Prop
  | bool (value : Bool) : IsDiscrete (.bool value)
  | int (value : Int64) : IsDiscrete (.int value)
  | uint (value : UInt64) : IsDiscrete (.uint value)

theorem Node.IsDiscrete.cases {n : Node} (h : n.IsDiscrete) : (∃ value, n = .bool value) ∨
    ∃ m, n.integer? = some m ∧ n.textual? = some (toString m) := by
  cases h with
  | bool value => exact .inl ⟨value, rfl⟩
  | int value => exact .inr ⟨value.toInt, rfl, rfl⟩
  | uint value => exact .inr ⟨value.toNat, rfl, rfl⟩

theorem Node.IsDiscrete.isBlank_eq_false {n : Node} (hn : n.IsDiscrete) {s : String}
    (hs : n.textual? = some s) {c : Char} (hc : c ∈ s.toList) : Text.isBlank c = false := by
  rcases hn.cases with ⟨value, rfl⟩ | ⟨m, -, htext⟩
  · obtain rfl := Option.some.inj hs
    have hnone : (if value then "true" else "false").toList.any Text.isBlank = false := by
      cases value <;> decide
    exact Bool.eq_false_of_not_eq_true (List.any_eq_false.1 hnone c hc)
  · obtain rfl := Option.some.inj (htext.symm.trans hs)
    rcases Convert.isDigit_or_of_mem_toString hc with h | rfl
    · exact Text.isBlank_of_isDigit h
    · rfl

namespace Convert

variable {n : Node} {s text : String} {d : Datum}

theorem integer_eq_ok_iff (hn : n.IsDiscrete) (hs : n.textual? = some s)
    (htrim : Text.trim text.toList = s.toList) (t : IntegerType) :
    integer t n = .ok d ↔ integer t (.text text) = .ok d := by
  rcases hn.cases with ⟨value, rfl⟩ | ⟨m, hm, htext⟩
  · have hnone : integerOfText? t s.toList = none := by
      obtain rfl := Option.some.inj hs
      cases value <;> cases t <;> rfl
    simp only [integer, htrim, hnone]
    exact iff_of_false (fun h => by cases h) fun h => by cases h
  · obtain rfl := Option.some.inj (htext.symm.trans hs)
    rw [integer_of_integer? t hm]
    simp only [integer, htrim, integerOfText?_toString, ← holds_iff]
    by_cases h : t.holds m = true
    · rw [if_pos h, if_pos h]
    · rw [if_neg h, if_neg h]
      exact iff_of_false (fun h => by cases h) fun h => by cases h

theorem bool_eq_ok_iff (hn : n.IsDiscrete) (hs : n.textual? = some s)
    (htrim : Text.trim text.toList = s.toList) :
    bool n = .ok d ↔ bool (.text text) = .ok d := by
  rcases hn.cases with ⟨value, rfl⟩ | ⟨m, hm, htext⟩
  · obtain rfl := Option.some.inj hs
    have hword : bool (.text text) = .ok (.bool value) := by
      simp only [bool, htrim]
      cases value <;> rfl
    rw [hword, bool]
  · obtain rfl := Option.some.inj (htext.symm.trans hs)
    rw [bool_of_integer? hm htext, bool_of_trim htrim]
    split
    · rfl
    · split
      · rfl
      · exact iff_of_false (fun h => by cases h) fun h => by cases h

end Convert

namespace Conversion

variable {tree t : TypeRef} {n : Node} {s text : String} {v : Value}

theorem convert_eq_ok_iff_of_converter {c : Conversion} {converter : Converter} {n' : Node}
    (hc : c.converter? t = some converter)
    (h : ∀ d, converter n = .ok d ↔ converter n' = .ok d) :
    c.convert n t = .ok v ↔ c.convert n' t = .ok v := by
  have hok (n : Node) : c.convert n t = .ok v ↔ ∃ d, converter n = .ok d ∧ ⟨t, d⟩ = v := by
    rw [convert, hc]
    dsimp only
    cases converter n <;> simp [Except.map]
  rw [hok, hok]
  exact exists_congr fun d => and_congr_left' (h d)

/-- **A truth value or an integer is converted to one of these as its text is**, whatever blanks
stand around that. -/
theorem convert_eq_ok_iff_of_trim (ht : t ∈ TypeRef.bool :: IntegerType.all.map (·.ref))
    (htree : tree ≠ t) (hn : n.IsDiscrete) (hs : n.textual? = some s)
    (htrim : Text.trim text.toList = s.toList) :
    (standard tree).convert n t = .ok v ↔ (standard tree).convert (.text text) t = .ok v := by
  rcases List.mem_cons.1 ht with rfl | ht
  · exact convert_eq_ok_iff_of_converter rfl fun d => Convert.bool_eq_ok_iff hn hs htrim
  · obtain ⟨t, -, rfl⟩ := List.mem_map.1 ht
    exact convert_eq_ok_iff_of_converter (converter?_standard htree)
      fun d => Convert.integer_eq_ok_iff hn hs htrim t

/-- **A scalar is converted to a character or a text as its text is.** -/
theorem convert_textual (ht : t ∈ [TypeRef.char, .text]) (hs : n.textual? = some s) :
    (standard tree).convert n t = (standard tree).convert (.text s) t := by
  have htext : (Node.text s).textual? = some s := rfl
  rcases List.mem_pair.1 ht with rfl | rfl
  · have hc : (standard tree).converter? .char = some Convert.char := rfl
    rw [convert, convert, hc]
    simp only [Convert.char, hs, htext]
  · have hc : (standard tree).converter? .text = some Convert.text := rfl
    rw [convert, convert, hc]
    simp only [Convert.text, hs, htext]

/-- A text that shows `s` to a type: `s` itself, or `s` between blanks for the types that are read
between blanks. -/
inductive Shows (t : TypeRef) (s : String) : String → Prop
  | exact : Shows t s s
  | padded {before after : List Char} (ht : t ∈ TypeRef.bool :: IntegerType.all.map (·.ref))
      (hbefore : ∀ c ∈ before, Text.isBlank c = true)
      (hafter : ∀ c ∈ after, Text.isBlank c = true) :
      Shows t s (String.ofList (before ++ s.toList ++ after))

/-- **A truth value or an integer is converted as the texts that show it are.** -/
theorem convert_eq_ok_iff_of_shows
    (ht : t ∈ [TypeRef.char, .text] ++ TypeRef.bool :: IntegerType.all.map (·.ref))
    (htree : tree ≠ t) (hn : n.IsDiscrete) (hs : n.textual? = some s) (h : Shows t s text) :
    (standard tree).convert n t = .ok v ↔ (standard tree).convert (.text text) t = .ok v := by
  have hblank : ∀ c ∈ s.toList, Text.isBlank c = false := fun _ => hn.isBlank_eq_false hs
  cases h with
  | exact =>
    rcases List.mem_append.1 ht with ht | ht
    · rw [convert_textual ht hs]
    · refine convert_eq_ok_iff_of_trim ht htree hn hs ?_
      have htrim : Text.trim ([] ++ s.toList ++ []) = s.toList :=
        Text.trim_between (by simp) hblank (by simp)
      simpa using htrim
  | padded ht hbefore hafter =>
    refine convert_eq_ok_iff_of_trim ht htree hn hs ?_
    rw [String.toList_ofList]
    exact Text.trim_between hbefore hblank hafter

end Conversion

end ConfigBind
