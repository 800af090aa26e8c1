import ConfigBind.Convert.Standard
import ConfigBind.Proofs.Binary.Exactness

/-!
# Conversion to integers

An integer is made of an integer, of a float or of a text, and only of one that stands for exactly
this integer.  For a float that takes a way round: it is compared with the ends of the 64-bit
ranges, cast to one of them, and cast back to see whether anything was lost.  The comparisons are
exact, a cast within its range cuts off what is behind the point, and casting back rounds only
integers that no double can be (`Binary64.same_ofInt_toInt64_iff`), so nothing is lost unless the
float is no integer (`integerOfFloat_of_integer`, `integerOfFloat_of_fraction`).

* `Conversion.convert_integer`: for each kind of node, what comes out of it.
-/

namespace ConfigBind

namespace Convert

variable {t : IntegerType} {x : Binary64} {q : ℚ}

theorem holds_iff {n : Int} : t.holds n = true ↔ t.lowest ≤ n ∧ n < t.bound := by
  rw [IntegerType.holds, Bool.and_eq_true, decide_eq_true_eq, decide_eq_true_eq]

theorem integerOfInt_eq (t : IntegerType) (shown : String) (n : Int) : integerOfInt t shown n =
    if t.lowest ≤ n ∧ n < t.bound then .ok (.int n) else .error (.outOfRange shown t.name) := by
  unfold integerOfInt
  by_cases h : t.holds n = true
  · rw [if_pos h, if_pos (holds_iff.1 h)]
  · rw [if_neg h, if_neg fun hrange => h (holds_iff.2 hrange)]

/-! ## Floats -/

theorem value?_int64End : int64End.decode.value? = some (2 ^ 63) := by
  have hdecode : int64End.decode = .finite false 0x10000000000000 11 := by decide +kernel
  rw [hdecode, Binary.Reading.value?]
  norm_num

theorem value?_negate_int64End : int64End.negate.decode.value? = some (-2 ^ 63) := by
  have hdecode : int64End.negate.decode = .finite true 0x10000000000000 11 := by decide +kernel
  rw [hdecode, Binary.Reading.value?]
  norm_num

theorem value?_uint64End : uint64End.decode.value? = some (2 ^ 64) := by
  have hdecode : uint64End.decode = .finite false 0x10000000000000 12 := by decide +kernel
  rw [hdecode, Binary.Reading.value?]
  norm_num

theorem isNaN_eq_false (h : x.decode.value? = some q) : x.isNaN = false := by
  obtain ⟨negative, m, e, hdecode, -⟩ := Binary.Reading.value?_cases h
  rw [Binary64.isNaN, hdecode]
  rfl

theorem within_int64_iff (h : x.decode.value? = some q) :
    x.within int64End.negate int64End = true ↔ -2 ^ 63 ≤ q ∧ q < 2 ^ 63 := by
  rw [Binary64.within, Bool.and_eq_true, Binary64.le_iff value?_negate_int64End h,
    Binary64.lt_iff h value?_int64End]

theorem within_uint64_iff (h : x.decode.value? = some q) :
    x.within int64End uint64End = true ↔ 2 ^ 63 ≤ q ∧ q < 2 ^ 64 := by
  rw [Binary64.within, Bool.and_eq_true, Binary64.le_iff value?_int64End h,
    Binary64.lt_iff h value?_uint64End]

/-- **A float that is an integer gives the integer**, if that is in range and in 64 bits. -/
theorem integerOfFloat_of_integer {n : Int} (h : x.decode.value? = some (n : ℚ)) :
    integerOfFloat t x =
      if (-2 ^ 63 ≤ n ∧ n < 2 ^ 64) ∧ t.lowest ≤ n ∧ n < t.bound then .ok (.int n)
      else .error (.outOfRange x.text t.name) := by
  have hsigned : x.within int64End.negate int64End = true ↔ -2 ^ 63 ≤ n ∧ n < 2 ^ 63 := by
    rw [within_int64_iff h]
    exact_mod_cast Iff.rfl
  have hunsigned : x.within int64End uint64End = true ↔ 2 ^ 63 ≤ n ∧ n < 2 ^ 64 := by
    rw [within_uint64_iff h]
    exact_mod_cast Iff.rfl
  unfold integerOfFloat
  rw [isNaN_eq_false h, if_neg (by decide)]
  by_cases hlow : -2 ^ 63 ≤ n ∧ n < 2 ^ 63
  · have hge : (-2 ^ 63 : ℚ) ≤ n := by exact_mod_cast hlow.1
    have hlt : (n : ℚ) < 2 ^ 63 := by exact_mod_cast hlow.2
    have hcast := (Binary64.toInt64_of_value? h hge hlt).2 n rfl
    have hsame : (Binary64.ofInt x.toInt64.toInt).same x = true := by
      rw [Binary64.same_ofInt_toInt64_iff h hge hlt, hcast]
    have hwords : -2 ^ 63 ≤ n ∧ n < 2 ^ 64 := by omega
    rw [if_pos (hsigned.2 hlow), if_pos hsame, hcast, integerOfInt_eq]
    simp only [hwords, true_and]
  · rw [if_neg (mt hsigned.1 hlow)]
    by_cases hhigh : 2 ^ 63 ≤ n ∧ n < 2 ^ 64
    · have hcast := Binary64.toUInt64_of_value? h (by omega) (by omega)
      have hwords : -2 ^ 63 ≤ n ∧ n < 2 ^ 64 := by omega
      rw [if_pos (hunsigned.2 hhigh), hcast, integerOfInt_eq]
      simp only [hwords, true_and]
    · have hwords : ¬ (-2 ^ 63 ≤ n ∧ n < 2 ^ 64) := by omega
      rw [if_neg (mt hunsigned.1 hhigh), if_neg fun hrange => hwords hrange.1]

/-- **A float that is no integer is invalid.** -/
theorem integerOfFloat_of_fraction (h : x.decode.value? = some q) (hq : ∀ n : Int, q ≠ n) :
    integerOfFloat t x = .error (.invalid x.text t.name) := by
  have hsmall : |q| < 2 ^ 53 := by
    rcases Binary64.exists_mantissa_or_lt h with ⟨n, -, -, hn, -⟩ | hlt
    · exact absurd hn (hq n)
    · exact hlt
  obtain ⟨hlow, hhigh⟩ := abs_lt.1 hsmall
  have hge : -2 ^ 63 ≤ q := by linarith
  have hlt : q < 2 ^ 63 := by linarith
  have hlost : ¬ (Binary64.ofInt x.toInt64.toInt).same x = true := by
    rw [Binary64.same_ofInt_toInt64_iff h hge hlt]
    exact fun heq => hq _ heq.symm
  unfold integerOfFloat
  rw [isNaN_eq_false h, if_neg (by decide), if_pos ((within_int64_iff h).2 ⟨hge, hlt⟩)]
  exact if_neg hlost

theorem integerOfFloat_of_notANumber (h : x.decode = .notANumber) :
    integerOfFloat t x = .error (.invalid x.text t.name) := by
  have hnan : x.isNaN = true := by
    rw [Binary64.isNaN, h]
    rfl
  exact if_pos hnan

theorem within_of_infinite {negative : Bool} (h : x.decode = .infinite negative)
    {start stop : Binary64} {a b : ℚ} (hstart : start.decode.value? = some a)
    (hstop : stop.decode.value? = some b) : x.within start stop = false := by
  obtain ⟨n, m, e, hstart, -⟩ := Binary.Reading.value?_cases hstart
  obtain ⟨n', m', e', hstop, -⟩ := Binary.Reading.value?_cases hstop
  rw [Binary64.within, Binary64.le, Binary64.lt, Binary64.lt, Binary64.same, h, hstart, hstop]
  cases negative with
  | true => rfl
  | false => exact Bool.and_false _

theorem integerOfFloat_of_infinite {negative : Bool} (h : x.decode = .infinite negative) :
    integerOfFloat t x = .error (.outOfRange x.text t.name) := by
  have hnan : x.isNaN = false := by
    rw [Binary64.isNaN, h]
    rfl
  unfold integerOfFloat
  rw [hnan, within_of_infinite h value?_negate_int64End value?_int64End,
    within_of_infinite h value?_int64End value?_uint64End]
  rfl

theorem integerOfFloat_cases (t : IntegerType) (x : Binary64) :
    (∃ n : Int, x.decode.value? = some (n : ℚ) ∧ integerOfFloat t x =
      if (-2 ^ 63 ≤ n ∧ n < 2 ^ 64) ∧ t.lowest ≤ n ∧ n < t.bound then .ok (.int n)
      else .error (.outOfRange x.text t.name)) ∨
    ((x.decode = .notANumber ∨ ∃ q, x.decode.value? = some q ∧ ∀ n : Int, q ≠ n) ∧
      integerOfFloat t x = .error (.invalid x.text t.name)) ∨
    ((∃ negative, x.decode = .infinite negative) ∧
      integerOfFloat t x = .error (.outOfRange x.text t.name)) := by
  cases hdecode : x.decode with
  | notANumber => exact .inr (.inl ⟨.inl rfl, integerOfFloat_of_notANumber hdecode⟩)
  | infinite negative => exact .inr (.inr ⟨⟨negative, rfl⟩, integerOfFloat_of_infinite hdecode⟩)
  | finite negative m e =>
    obtain ⟨q, hq⟩ : ∃ q, x.decode.value? = some q := by
      rw [hdecode]
      exact ⟨_, rfl⟩
    rw [← hdecode]
    by_cases hwhole : ∃ n : Int, q = n
    · obtain ⟨n, rfl⟩ := hwhole
      exact .inl ⟨n, hq, integerOfFloat_of_integer hq⟩
    · have hfraction : ∀ n : Int, q ≠ n := fun n hn => hwhole ⟨n, hn⟩
      exact .inr (.inl ⟨.inr ⟨q, hq, hfraction⟩, integerOfFloat_of_fraction hq hfraction⟩)

theorem not_invalid_of_integer {n : Int} (h : x.decode.value? = some (n : ℚ)) :
    ¬ (x.decode = .notANumber ∨ ∃ q, x.decode.value? = some q ∧ ∀ n : Int, q ≠ n) := by
  rintro (hnan | ⟨q, hq, hfraction⟩)
  · rw [hnan] at h
    cases h
  · rw [h] at hq
    exact hfraction n (Option.some.inj hq).symm

theorem integerOfFloat_spec (t : IntegerType) (x : Binary64) :
    (∀ n : Int, integerOfFloat t x = .ok (.int n) ↔ x.decode.value? = some (n : ℚ) ∧
      (-2 ^ 63 ≤ n ∧ n < 2 ^ 64) ∧ t.lowest ≤ n ∧ n < t.bound) ∧
    (integerOfFloat t x = .error (.invalid x.text t.name) ↔
      x.decode = .notANumber ∨ ∃ q, x.decode.value? = some q ∧ ∀ n : Int, q ≠ n) ∧
    ((∀ n : Int, integerOfFloat t x ≠ .ok (.int n)) →
      integerOfFloat t x ≠ .error (.invalid x.text t.name) →
      integerOfFloat t x = .error (.outOfRange x.text t.name)) := by
  rcases integerOfFloat_cases t x with ⟨m, hm, hout⟩ | ⟨hinvalid, hout⟩ | ⟨⟨negative, hinf⟩, hout⟩
  · have hone (n : Int) : x.decode.value? = some (n : ℚ) ↔ n = m := by
      rw [hm, Option.some.injEq, Int.cast_inj, eq_comm]
    have hvalid := not_invalid_of_integer hm
    rw [hout]
    simp only [hone]
    by_cases hrange : (-2 ^ 63 ≤ m ∧ m < 2 ^ 64) ∧ t.lowest ≤ m ∧ m < t.bound
    · rw [if_pos hrange]
      refine ⟨fun n => ?_, iff_of_false (by simp) hvalid, fun hnone => absurd rfl (hnone m)⟩
      constructor
      · intro hn
        cases hn
        exact ⟨rfl, hrange⟩
      · rintro ⟨rfl, -⟩
        rfl
    · rw [if_neg hrange]
      refine ⟨fun n => iff_of_false (by simp) ?_, iff_of_false (by simp) hvalid, fun _ _ => rfl⟩
      rintro ⟨rfl, hn⟩
      exact hrange hn
  · rw [hout]
    refine ⟨fun n => iff_of_false (by simp) ?_, iff_of_true rfl hinvalid,
      fun _ hvalid => absurd rfl hvalid⟩
    exact fun h => not_invalid_of_integer h.1 hinvalid
  · rw [hout, hinf]
    refine ⟨fun n => iff_of_false (by simp) ?_, iff_of_false (by simp) ?_, fun _ _ => rfl⟩
    · rintro ⟨hn, -⟩
      cases hn
    · rintro (hnan | ⟨q, hq, -⟩)
      · cases hnan
      · cases hq

/-! ## Texts -/

/-- A text of decimal digits, at least one. -/
def IsDecimal (digits : List Char) : Prop := digits ≠ [] ∧ ∀ c ∈ digits, c.isDigit = true

/-- A text spells an integer: decimal digits after an optional sign, which is a minus only for types
with sign. -/
inductive Spells (signed : Bool) : List Char → Int → Prop
  | plain {digits : List Char} (h : IsDecimal digits) :
      Spells signed digits (Nat.ofDigitChars 10 digits 0)
  | plus {digits : List Char} (h : IsDecimal digits) :
      Spells signed ('+' :: digits) (Nat.ofDigitChars 10 digits 0)
  | minus {digits : List Char} (hsigned : signed = true) (h : IsDecimal digits) :
      Spells signed ('-' :: digits) (-Nat.ofDigitChars 10 digits 0)

theorem signedDigits_cases (signed : Bool) (cs : List Char) :
    (∃ rest, cs = '-' :: rest ∧ signed = true ∧ signedDigits signed cs = (true, rest)) ∨
      (∃ rest, cs = '+' :: rest ∧ signedDigits signed cs = (false, rest)) ∨
      signedDigits signed cs = (false, cs) := by
  unfold signedDigits
  split
  · rename_i rest
    cases signed with
    | true => exact .inl ⟨rest, rfl, rfl, rfl⟩
    | false => exact .inr (.inr rfl)
  · exact .inr (.inl ⟨_, rfl, rfl⟩)
  · exact .inr (.inr rfl)

/-- What is left of a text without its sign, and the integer that the rest would denote. -/
theorem spells_iff {signed : Bool} {cs : List Char} {n : Int} : Spells signed cs n ↔
    IsDecimal (signedDigits signed cs).2 ∧
      n = if (signedDigits signed cs).1 then -(Binary.digitsValue (signedDigits signed cs).2 : Int)
        else Binary.digitsValue (signedDigits signed cs).2 := by
  have hvalue (digits : List Char) : Binary.digitsValue digits = Nat.ofDigitChars 10 digits 0 :=
    Nat.ofDigitChars_eq_foldl.symm
  simp only [hvalue]
  constructor
  · intro h
    cases h with
    | plain h =>
      rcases signedDigits_cases signed cs with ⟨rest, rfl, -⟩ | ⟨rest, rfl, -⟩ | hsign
      · exact absurd (h.2 '-' List.mem_cons_self) (by decide)
      · exact absurd (h.2 '+' List.mem_cons_self) (by decide)
      · rw [hsign]
        exact ⟨h, rfl⟩
    | plus h => exact ⟨h, rfl⟩
    | minus hsigned h =>
      rw [hsigned]
      exact ⟨h, rfl⟩
  · rintro ⟨h, rfl⟩
    rcases signedDigits_cases signed cs with
      ⟨rest, rfl, hsigned, hsign⟩ | ⟨rest, rfl, hsign⟩ | hsign
    · rw [hsign] at h ⊢
      exact .minus hsigned h
    · rw [hsign] at h ⊢
      exact .plus h
    · rw [hsign] at h ⊢
      exact .plain h

/-- **A text is read as the integer that it spells**, if that is in range. -/
theorem integerOfText?_eq_some_iff {cs : List Char} {n : Int} : integerOfText? t cs = some n ↔
    Spells t.signed cs n ∧ t.lowest ≤ n ∧ n < t.bound := by
  have hdecimal (digits : List Char) : IsDecimal digits ↔
      ¬ (digits.isEmpty || !digits.all Char.isDigit) = true := by
    simp [IsDecimal]
  rw [spells_iff, hdecimal, ← holds_iff]
  unfold integerOfText?
  dsimp only
  by_cases hdigits : ((signedDigits t.signed cs).2.isEmpty ||
      !(signedDigits t.signed cs).2.all Char.isDigit) = true
  · rw [if_pos hdigits]
    exact ⟨fun h => absurd h (by simp), fun h => absurd hdigits h.1.1⟩
  · rw [if_neg hdigits]
    generalize (if (signedDigits t.signed cs).1 = true
      then -(Binary.digitsValue (signedDigits t.signed cs).2 : Int)
      else Binary.digitsValue (signedDigits t.signed cs).2) = k
    by_cases hrange : t.holds k = true
    · rw [if_pos hrange, Option.some.injEq]
      constructor
      · rintro rfl
        exact ⟨⟨hdigits, rfl⟩, hrange⟩
      · rintro ⟨⟨-, rfl⟩, -⟩
        rfl
    · rw [if_neg hrange]
      constructor
      · intro h
        cases h
      · rintro ⟨⟨-, rfl⟩, hn⟩
        exact absurd hn hrange

theorem integer_text_spec (t : IntegerType) (s : String) :
    (∀ n : Int, integer t (.text s) = .ok (.int n) ↔
      Spells t.signed (Text.trim s.toList) n ∧ t.lowest ≤ n ∧ n < t.bound) ∧
    ((∀ n : Int, integer t (.text s) ≠ .ok (.int n)) →
      integer t (.text s) = .error (.invalid s t.name)) := by
  simp only [← integerOfText?_eq_some_iff]
  cases hread : integerOfText? t (Text.trim s.toList) with
  | none =>
    have hinteger : integer t (.text s) = .error (.invalid s t.name) := by
      simp only [integer, hread]
    rw [hinteger]
    exact ⟨fun n => by simp, fun _ => rfl⟩
  | some k =>
    have hinteger : integer t (.text s) = .ok (.int k) := by
      simp only [integer, hread]
    rw [hinteger]
    exact ⟨fun n => by simp, fun hnone => absurd rfl (hnone k)⟩

theorem integer_of_integer? (t : IntegerType) {node : Node} {m : Int} (h : node.integer? = some m) :
    integer t node = if t.lowest ≤ m ∧ m < t.bound then .ok (.int m)
      else .error (.outOfRange (toString m) t.name) := by
  cases node with
  | int value =>
    obtain rfl := Option.some.inj h
    exact integerOfInt_eq t _ _
  | uint value =>
    obtain rfl := Option.some.inj h
    exact integerOfInt_eq t _ _
  | _ => cases h

end Convert

namespace Conversion

/-! ## The standard conversion -/

theorem converter?_standard {tree : TypeRef} {t : IntegerType} (h : tree ≠ t.ref) :
    (Conversion.standard tree).converter? t.ref = some (Convert.integer t) := by
  have hothers : List.lookup t.ref [(.bool, Convert.bool), (.char, Convert.char),
      (.text, Convert.text), (tree, Convert.tree)] = none := by
    have htree : (t.ref == tree) = false := by simpa using Ne.symm h
    rw [List.lookup_cons, List.lookup_cons, List.lookup_cons, List.lookup_cons, htree]
    cases t <;> rfl
  have hintegers : List.lookup t.ref
      (IntegerType.all.map fun t => (t.ref, Convert.integer t)) = some (Convert.integer t) := by
    cases t <;> rfl
  rw [converter?, standard, List.lookup_append, List.lookup_append, hothers, hintegers]
  rfl

theorem convert_standard {tree : TypeRef} {t : IntegerType} (h : tree ≠ t.ref) (node : Node) :
    (Conversion.standard tree).convert node t.ref =
      (Convert.integer t node).map fun datum => ⟨t.ref, datum⟩ := by
  rw [convert, converter?_standard h]

theorem convert_eq_ok_iff {tree : TypeRef} {t : IntegerType} (h : tree ≠ t.ref) (node : Node)
    (n : Int) : (Conversion.standard tree).convert node t.ref = .ok ⟨t.ref, .int n⟩ ↔
      Convert.integer t node = .ok (.int n) := by
  rw [convert_standard h]
  cases Convert.integer t node with
  | error e => exact iff_of_false (fun h => nomatch h) (fun h => nomatch h)
  | ok datum => simp [Except.map]

theorem convert_eq_error_iff {tree : TypeRef} {t : IntegerType} (h : tree ≠ t.ref) (node : Node)
    (e : ConversionError) : (Conversion.standard tree).convert node t.ref = .error e ↔
      Convert.integer t node = .error e := by
  rw [convert_standard h]
  cases Convert.integer t node with
  | error e' => simp [Except.map]
  | ok datum => exact iff_of_false (fun h => nomatch h) (fun h => nomatch h)

/-- **Conversion to an integer is exact.**  What is or spells an integer in range gives it, from a
float if it is in 64 bits as well; anything else is invalid, out of range, or no data for an
integer. -/
theorem convert_integer {tree : TypeRef} {t : IntegerType} (htree : tree ≠ t.ref) :
    (∀ (node : Node) (m : Int), node.integer? = some m →
      (Conversion.standard tree).convert node t.ref =
        if t.lowest ≤ m ∧ m < t.bound then .ok ⟨t.ref, .int m⟩
        else .error (.outOfRange (toString m) t.name)) ∧
    (∀ x : Binary64,
      (∀ n : Int, (Conversion.standard tree).convert (.float x) t.ref = .ok ⟨t.ref, .int n⟩ ↔
        x.decode.value? = some (n : ℚ) ∧ (-2 ^ 63 ≤ n ∧ n < 2 ^ 64) ∧
          t.lowest ≤ n ∧ n < t.bound) ∧
      ((Conversion.standard tree).convert (.float x) t.ref = .error (.invalid x.text t.name) ↔
        x.decode = .notANumber ∨ ∃ q, x.decode.value? = some q ∧ ∀ n : Int, q ≠ n) ∧
      ((∀ n : Int, (Conversion.standard tree).convert (.float x) t.ref ≠ .ok ⟨t.ref, .int n⟩) →
        (Conversion.standard tree).convert (.float x) t.ref ≠ .error (.invalid x.text t.name) →
        (Conversion.standard tree).convert (.float x) t.ref =
          .error (.outOfRange x.text t.name))) ∧
    (∀ s : String,
      (∀ n : Int, (Conversion.standard tree).convert (.text s) t.ref = .ok ⟨t.ref, .int n⟩ ↔
        Convert.Spells t.signed (Text.trim s.toList) n ∧ t.lowest ≤ n ∧ n < t.bound) ∧
      ((∀ n : Int, (Conversion.standard tree).convert (.text s) t.ref ≠ .ok ⟨t.ref, .int n⟩) →
        (Conversion.standard tree).convert (.text s) t.ref = .error (.invalid s t.name))) ∧
    ∀ node : Node, node.integer? = none → (∀ x, node ≠ .float x) → (∀ s, node ≠ .text s) →
      (Conversion.standard tree).convert node t.ref = .error (.unsupported node.kind t.name) := by
  simp only [ne_eq, convert_eq_ok_iff htree, convert_eq_error_iff htree]
  refine ⟨fun node m hm => ?_, Convert.integerOfFloat_spec t, Convert.integer_text_spec t, ?_⟩
  · rw [convert_standard htree, Convert.integer_of_integer? t hm]
    split <;> rfl
  · intro node hinteger hfloat htext
    cases node with
    | int value => cases hinteger
    | uint value => cases hinteger
    | float x => exact absurd rfl (hfloat x)
    | text s => exact absurd rfl (htext s)
    | _ => rfl

end Conversion

namespace Sample

/-- The numbers 2^63 and 2^64 as floats, digits behind a sign, and a negative number. -/
theorem integers_at_the_edges : (⟨"Tree", "Tree"⟩ : TypeRef) ≠ IntegerType.u64.ref ∧
    ((Conversion.standard ⟨"Tree", "Tree"⟩).convert (.float Convert.int64End) IntegerType.u64.ref =
        .ok ⟨IntegerType.u64.ref, .int 0x8000000000000000⟩ ∧
      (Conversion.standard ⟨"Tree", "Tree"⟩).convert (.float Convert.uint64End)
        IntegerType.u64.ref = .error (.outOfRange Convert.uint64End.text "u64")) ∧
    (Conversion.standard ⟨"Tree", "Tree"⟩).convert (.text "\t+08 ") IntegerType.u64.ref =
        .ok ⟨IntegerType.u64.ref, .int 8⟩ ∧
    (Conversion.standard ⟨"Tree", "Tree"⟩).convert (.int (-1)) IntegerType.u64.ref =
        .error (.outOfRange "-1" "u64") := by
  have htree : (⟨"Tree", "Tree"⟩ : TypeRef) ≠ IntegerType.u64.ref := by decide
  obtain ⟨hinteger, hfloat, htext, -⟩ := Conversion.convert_integer htree
  refine ⟨htree, ⟨?_, ?_⟩, ?_, ?_⟩
  · refine ((hfloat _).1 _).2 ⟨?_, by decide, by decide⟩
    rw [Convert.value?_int64End]
    norm_num
  · obtain ⟨hok, hinvalid, hrange⟩ := hfloat Convert.uint64End
    refine hrange (fun n hn => ?_) fun herror => ?_
    · obtain ⟨hvalue, ⟨-, hlt⟩, -⟩ := (hok n).1 hn
      rw [Convert.value?_uint64End, Option.some.injEq] at hvalue
      have hn' : (2 : Int) ^ 64 = n := by exact_mod_cast hvalue
      omega
    · rcases hinvalid.1 herror with hnan | ⟨q, hq, hfraction⟩
      · exact absurd hnan (by decide +kernel)
      · rw [Convert.value?_uint64End] at hq
        refine hfraction (2 ^ 64) ?_
        rw [← Option.some.inj hq]
        norm_num
  · refine ((htext _).1 8).2 ⟨?_, by decide⟩
    have htrim : Text.trim "\t+08 ".toList = ['+', '0', '8'] := by decide
    rw [htrim]
    exact .plus ⟨by decide, List.all_eq_true.1 (by decide)⟩
  · rw [hinteger (.int (-1)) (-1) rfl, if_neg (by decide)]
    rfl

end Sample

end ConfigBind
