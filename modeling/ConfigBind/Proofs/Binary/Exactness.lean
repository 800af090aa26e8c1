import ConfigBind.Binary.Cast
import Mathlib.Algebra.Order.Field.Basic
import Mathlib.Algebra.Order.Field.Power
import Mathlib.Data.Rat.Cast.Order
import Mathlib.Tactic.FieldSimp
import Mathlib.Tactic.Linarith
import Mathlib.Tactic.NormNum
import Mathlib.Tactic.Ring

/-!
# Exact floating-point numbers

The number that a finite reading stands for is rational (`Reading.value?`), and comparing readings
is comparing these numbers (`Binary64.lt_iff`, `Binary64.le_iff`, `Binary64.same_iff`).  A cast
drops what is behind the point, which leaves an integer as it is (`Reading.truncate_of_value?`).

The mantissa of a double is below 2^53.  So a double that is no integer lies below 2^53
(`Binary64.exists_int_or_lt`), and an integer that is a mantissa times a power of two is rounded to
itself.

* `Binary64.value?_ofInt`: rounding an integer to a double is exact if some mantissa holds it.
-/

namespace ConfigBind

namespace Binary

/-! ## Values -/

/-- The number that a finite reading stands for. -/
def Reading.value? : Reading → Option ℚ
  | .finite negative m e => some ((if negative then -1 else 1) * m * 2 ^ e)
  | _ => none

namespace Reading

variable {r s : Reading} {a b : ℚ}

theorem two_zpow (e : Int) : (2 : ℚ) ^ e = 2 ^ e.toNat / 2 ^ (-e).toNat := by
  rw [← zpow_natCast, ← zpow_natCast, ← zpow_sub₀ (by norm_num)]
  congr 1
  omega

theorem natAbs_numerator (negative : Bool) (m : Nat) (e : Int) :
    (numerator negative m e).natAbs = m * 2 ^ e.toNat := by
  cases negative with
  | true => exact Int.natAbs_neg _
  | false => rfl

theorem denominator_pos (e : Int) : 0 < denominator e := Nat.pow_pos (by decide)

theorem value_eq_fraction (negative : Bool) (m : Nat) (e : Int) :
    (if negative then -1 else 1) * (m : ℚ) * 2 ^ e = numerator negative m e / denominator e := by
  have hdenominator : ((denominator e : Nat) : ℚ) = 2 ^ (-e).toNat := by
    show ((2 ^ (-e).toNat : Nat) : ℚ) = _
    push_cast
    rfl
  have hnumerator : ((numerator negative m e : Int) : ℚ) =
      (if negative then -1 else 1) * (m : ℚ) * 2 ^ e.toNat := by
    unfold numerator
    show ((if negative then -((m * 2 ^ e.toNat : Nat) : Int) else _ : Int) : ℚ) = _
    cases negative with
    | true =>
      rw [if_pos rfl, if_pos rfl]
      push_cast
      ring
    | false =>
      rw [if_neg (by decide), if_neg (by decide)]
      show ((m * 2 ^ e.toNat : Nat) : ℚ) = _
      push_cast
      ring
  rw [two_zpow, hdenominator, hnumerator]
  ring

theorem value?_cases (h : r.value? = some a) : ∃ negative m e, r = finite negative m e ∧
    a = (numerator negative m e : ℚ) / denominator e := by
  cases r with
  | finite negative m e =>
    refine ⟨negative, m, e, rfl, ?_⟩
    rw [← value_eq_fraction]
    exact (Option.some.inj h).symm
  | _ => cases h

/-- **Readings compare as their values do.** -/
theorem compare?_of_value? (hr : r.value? = some a) (hs : s.value? = some b) :
    ∃ o, r.compare? s = some o ∧ (o = .lt ↔ a < b) ∧ (o = .eq ↔ a = b) := by
  obtain ⟨n, m, e, rfl, rfl⟩ := value?_cases hr
  obtain ⟨n', m', e', rfl, rfl⟩ := value?_cases hs
  have hd : (0 : ℚ) < denominator e := by exact_mod_cast denominator_pos e
  have hd' : (0 : ℚ) < denominator e' := by exact_mod_cast denominator_pos e'
  refine ⟨_, rfl, ?_, ?_⟩
  · rw [compare_lt_iff_lt, div_lt_div_iff₀ hd hd']
    exact_mod_cast Iff.rfl
  · rw [compare_eq_iff_eq, div_eq_div_iff hd.ne' hd'.ne']
    exact_mod_cast Iff.rfl

/-! ## Casts -/

theorem tdiv_bounds {n lowest highest : Int} {d : Nat} (hd : 0 < d) (hlowest : lowest ≤ 0)
    (hhighest : 0 ≤ highest) (hlow : lowest * d ≤ n) (hhigh : n < (highest + 1) * d) :
    lowest ≤ n.tdiv d ∧ n.tdiv d ≤ highest := by
  have hd' : (0 : Int) < d := by exact_mod_cast hd
  rcases Int.le_total 0 n with hn | hn
  · rw [Int.tdiv_eq_ediv_of_nonneg hn]
    have hnonneg : 0 ≤ n / d := Int.ediv_nonneg hn (Int.le_of_lt hd')
    have hlt : n / d < highest + 1 := Int.ediv_lt_of_lt_mul hd' hhigh
    omega
  · have hneg : n.tdiv d = -(-n / d) := by
      rw [← Int.tdiv_eq_ediv_of_nonneg (by omega), Int.neg_tdiv, Int.neg_neg]
    have hnonneg : 0 ≤ -n / d := Int.ediv_nonneg (by omega) (Int.le_of_lt hd')
    have hle : -n / d < -lowest + 1 := by
      apply Int.ediv_lt_of_lt_mul hd'
      have hexpand : (-lowest + 1) * (d : Int) = -(lowest * d) + d := by ring
      omega
    omega

/-- **A cast of a number in range drops what is behind the point**: it stays in range, is no further
from zero than the number, and is the number if that is an integer. -/
theorem truncate_of_value? (h : r.value? = some a) {lowest highest : Int} (hlowest : lowest ≤ 0)
    (hhighest : 0 ≤ highest) (hlow : (lowest : ℚ) ≤ a) (hhigh : a < highest + 1) :
    lowest ≤ r.truncate lowest highest ∧ r.truncate lowest highest ≤ highest ∧
      |(r.truncate lowest highest : ℚ)| ≤ |a| ∧
      ∀ n : Int, a = n → r.truncate lowest highest = n := by
  obtain ⟨negative, m, e, rfl, rfl⟩ := value?_cases h
  have hpos : 0 < denominator e := denominator_pos e
  have hd : (0 : ℚ) < denominator e := by exact_mod_cast hpos
  rw [le_div_iff₀ hd] at hlow
  rw [div_lt_iff₀ hd] at hhigh
  have hlow' : lowest * denominator e ≤ numerator negative m e := by exact_mod_cast hlow
  have hhigh' : numerator negative m e < (highest + 1) * denominator e := by exact_mod_cast hhigh
  obtain ⟨hge, hle⟩ := tdiv_bounds hpos hlowest hhighest hlow' hhigh'
  have hcut : (finite negative m e).truncate lowest highest =
      (numerator negative m e).tdiv (denominator e) := by
    rw [truncate]
    omega
  rw [hcut]
  refine ⟨hge, hle, ?_, ?_⟩
  · rw [abs_div, abs_of_pos hd, le_div_iff₀ hd]
    have habs : ((numerator negative m e).tdiv (denominator e)).natAbs * denominator e ≤
        (numerator negative m e).natAbs := by
      rw [Int.natAbs_tdiv]
      exact Nat.div_mul_le_self _ _
    have hcast : (((numerator negative m e).tdiv (denominator e)).natAbs : ℚ) * denominator e ≤
        (numerator negative m e).natAbs := by exact_mod_cast habs
    rwa [Nat.cast_natAbs, Nat.cast_natAbs, Int.cast_abs, Int.cast_abs] at hcast
  · intro n hn
    rw [div_eq_iff hd.ne'] at hn
    have hn' : numerator negative m e = n * denominator e := by exact_mod_cast hn
    rw [hn', Int.mul_tdiv_cancel _ (by exact_mod_cast hpos.ne')]

end Reading

namespace Format

/-! ## Decoding -/

theorem mantissa_lt_of_decode {bits m : Nat} {negative : Bool} {e : Int}
    (h : double.decode bits = .finite negative m e) : m < 0x20000000000000 := by
  have hstored : bits % Nat.pow 2 double.mantissaBits < 0x10000000000000 :=
    Nat.mod_lt _ (by decide)
  have hlead : Nat.pow 2 double.mantissaBits = 0x10000000000000 := by decide
  unfold decode at h
  dsimp only at h
  split at h
  · split at h <;> cases h
  · split at h
    · injection h with _ hm
      omega
    · injection h with _ hm
      omega

theorem decode_of_fields (negative : Bool) {field stored : Nat} (hzero : field ≠ 0)
    (hfield : field < 2047) (hstored : stored < 0x10000000000000) :
    double.withSign negative (field * 0x10000000000000 + stored) < 0x10000000000000000 ∧
    double.decode (double.withSign negative (field * 0x10000000000000 + stored)) =
      .finite negative (0x10000000000000 + stored) (field - 1075) := by
  have hmantissa : Nat.pow 2 double.mantissaBits = 0x10000000000000 := by decide
  have hexponent : Nat.pow 2 double.exponentBits = 2048 := by decide
  have hsign : double.signBit = 0x8000000000000000 := by decide
  have hspecial : double.specialExponent = 2047 := by decide
  have hlast : double.minExponent = -1074 := by decide
  have hposition : double.mantissaBits + double.exponentBits = 63 := by decide
  generalize hbits : double.withSign negative (field * 0x10000000000000 + stored) = bits
  -- the pattern as a sum, whose fields are left by division and remainder
  have hpattern : bits = (if negative then 0x8000000000000000 else 0) +
      field * 0x10000000000000 + stored := by
    rw [← hbits, withSign, hsign]
    cases negative with
    | true => simp [Nat.add_assoc]
    | false => simp
  have hnegative : bits.testBit 63 = negative := by
    rw [Nat.testBit_eq_decide_div_mod_eq, hpattern]
    cases negative with
    | true =>
      rw [if_pos rfl, decide_eq_true_eq]
      omega
    | false =>
      rw [if_neg (by decide), decide_eq_false_iff_not]
      omega
  have hlow : bits % 0x10000000000000 = stored := by
    rw [hpattern]
    split <;> omega
  have hmiddle : bits / 0x10000000000000 % 2048 = field := by
    rw [hpattern]
    split <;> omega
  refine ⟨?_, ?_⟩
  · rw [hpattern]
    split <;> omega
  · unfold decode
    rw [hmantissa, hexponent, hposition, hnegative, hlow, hmiddle, hspecial, hlast,
      if_neg (by omega), if_neg hzero]
    congr 1
    omega

/-! ## Rounding -/

theorem nearest_of_dvd {num den : Nat} (hden : 0 < den) (h : den ∣ num) :
    nearest num den = num / den := by
  have hrest : num % den = 0 := Nat.mod_eq_zero_of_dvd h
  unfold nearest
  dsimp only
  rw [hrest, if_neg]
  simp
  omega

theorem log2_lt_of_lt {n : Nat} (h : n < 2 ^ 64) : n.log2 < 1024 := by
  by_cases hzero : n = 0
  · subst hzero
    decide
  · exact Nat.lt_trans ((Nat.log2_lt hzero).2 h) (by decide)

theorem magnitude_one {n : Nat} (h : n ≠ 0) : magnitude n 1 = n.log2 := by
  have hone : Nat.log2 1 = 0 := by decide
  unfold magnitude
  dsimp only
  rw [hone]
  apply if_pos
  have hfirst : ((n.log2 : Int) - (0 : Nat)).toNat = n.log2 := by omega
  have hsecond : (-((n.log2 : Int) - (0 : Nat))).toNat = 0 := by omega
  rw [hfirst, hsecond, Nat.shiftLeft_eq, Nat.shiftLeft_eq, Nat.one_mul, Nat.pow_zero, Nat.mul_one]
  exact Nat.log2_self_le h

/-- **A natural number that a mantissa holds keeps all its places**: those of the double next to it,
moved to the right place, are the number. -/
theorem roundMagnitude_exact {n m k : Nat} (h : n ≠ 0) (hm : m < 0x20000000000000)
    (hn : n = m * 2 ^ k) (hlog : n.log2 < 1024) : ∃ stored, stored < 0x10000000000000 ∧
      double.roundMagnitude n 1 = (n.log2 + 1023) * 0x10000000000000 + stored ∧
      (0x10000000000000 + stored) * 2 ^ (n.log2 - 52) = n * 2 ^ (52 - n.log2) := by
  have hmantissa : Nat.pow 2 double.mantissaBits = 0x10000000000000 := by decide
  have hinfinity : double.infinity = 2047 * 0x10000000000000 := by decide
  have hlast : double.minExponent = -1074 := by decide
  have hwidth : (double.mantissaBits : Int) = 52 := rfl
  have hlow : 2 ^ n.log2 ≤ n := Nat.log2_self_le h
  have hhigh : n < 2 ^ (n.log2 + 1) := Nat.lt_log2_self
  generalize hplaces : n.log2 = l at *
  -- The number ends in enough zeros for what lies behind the mantissa.
  have hzeros : l - 52 ≤ k := by
    have hlt : 2 ^ l < 2 ^ (53 + k) := by
      rw [Nat.pow_add]
      exact Nat.lt_of_le_of_lt (hn ▸ hlow) (Nat.mul_lt_mul_of_pos_right hm (Nat.two_pow_pos k))
    have := (Nat.pow_lt_pow_iff_right (by decide)).1 hlt
    omega
  have hdvd : 2 ^ (l - 52) ∣ n * 2 ^ (52 - l) := by
    apply Dvd.dvd.mul_right
    rw [hn]
    exact Dvd.dvd.mul_left (Nat.pow_dvd_pow 2 hzeros) m
  obtain ⟨q, hq⟩ := hdvd
  have hscale : 2 ^ l * 2 ^ (52 - l) = 2 ^ (l - 52) * 2 ^ 52 := by
    rw [← Nat.pow_add, ← Nat.pow_add]
    congr 1
    omega
  have hpos : 0 < 2 ^ (l - 52) := Nat.two_pow_pos _
  have hge : 2 ^ 52 ≤ q := by
    apply Nat.le_of_mul_le_mul_left _ hpos
    rw [← hscale, ← hq]
    exact Nat.mul_le_mul_right _ hlow
  have hlt : q < 2 ^ 53 := by
    apply Nat.lt_of_mul_lt_mul_left (a := 2 ^ (l - 52))
    rw [← hq, Nat.pow_succ, ← Nat.mul_assoc, ← hscale, Nat.mul_right_comm, ← Nat.pow_succ]
    exact Nat.mul_lt_mul_of_pos_right hhigh (Nat.two_pow_pos _)
  refine ⟨q - 0x10000000000000, by omega, ?_, ?_⟩
  · have hexponent :
        max double.minExponent (magnitude n 1 - double.mantissaBits) = (l : Int) - 52 := by
      rw [magnitude_one h, hplaces, hlast, hwidth]
      omega
    have hup : ((l : Int) - 52).toNat = l - 52 := by omega
    have hdown : (-((l : Int) - 52)).toNat = 52 - l := by omega
    have hplace : ((l : Int) - 52 - double.minExponent).toNat = l + 1022 := by
      rw [hlast]
      omega
    have hsum : (l + 1022) * 0x10000000000000 + q =
        (l + 1023) * 0x10000000000000 + (q - 0x10000000000000) := by omega
    have hbelow : (l + 1022) * 0x10000000000000 + q ≤ 2047 * 0x10000000000000 := by omega
    unfold roundMagnitude
    rw [if_neg h]
    dsimp only
    rw [hexponent, hup, hdown, hplace, hinfinity, hmantissa, Nat.shiftLeft_eq, Nat.shiftLeft_eq,
      Nat.one_mul, nearest_of_dvd hpos ⟨q, hq⟩, hq, Nat.mul_div_cancel_left _ hpos,
      Nat.min_eq_right hbelow, hsum]
  · have hwhole : 0x10000000000000 + (q - 0x10000000000000) = q := by omega
    rw [hwhole, Nat.mul_comm, hq]

end Format

end Binary

namespace Binary64

open Binary

variable {x y : Binary64} {a b : ℚ}

/-! ## Doubles -/

theorem decode_ofPattern {n : Nat} (h : n < 0x10000000000000000) :
    (ofPattern n).decode = Format.double.decode n := by
  unfold decode ofPattern
  congr 1
  exact Nat.mod_eq_of_lt h

theorem lt_iff (hx : x.decode.value? = some a) (hy : y.decode.value? = some b) :
    x.lt y = true ↔ a < b := by
  obtain ⟨o, ho, hlt, -⟩ := Reading.compare?_of_value? hx hy
  rw [lt, ho, ← hlt]
  simp

theorem same_iff (hx : x.decode.value? = some a) (hy : y.decode.value? = some b) :
    x.same y = true ↔ a = b := by
  obtain ⟨o, ho, -, heq⟩ := Reading.compare?_of_value? hx hy
  rw [same, ho, ← heq]
  simp

theorem le_iff (hx : x.decode.value? = some a) (hy : y.decode.value? = some b) :
    x.le y = true ↔ a ≤ b := by
  rw [le, Bool.or_eq_true, lt_iff hx hy, same_iff hx hy, le_iff_lt_or_eq]

/-- **A double is an integer that a mantissa holds, or lies below 2^53.** -/
theorem exists_mantissa_or_lt (h : x.decode.value? = some a) :
    (∃ (n : Int) (m k : Nat), a = n ∧ m < 0x20000000000000 ∧ n.natAbs = m * 2 ^ k) ∨
      |a| < 2 ^ 53 := by
  obtain ⟨negative, m, e, hdecode, ha⟩ := Reading.value?_cases h
  have hm : m < 0x20000000000000 := Format.mantissa_lt_of_decode hdecode
  rcases Int.le_total 0 e with he | he
  · refine .inl ⟨Reading.numerator negative m e, m, e.toNat, ?_, hm,
      Reading.natAbs_numerator negative m e⟩
    have hwhole : Reading.denominator e = 1 := by
      have hzero : (-e).toNat = 0 := by omega
      rw [Reading.denominator, hzero]
    rw [ha, hwhole, Nat.cast_one, div_one]
  · refine .inr ?_
    have hnumerator : (Reading.numerator negative m e).natAbs = m := by
      have hplaces : e.toNat = 0 := by omega
      rw [Reading.natAbs_numerator, hplaces, Nat.pow_zero, Nat.mul_one]
    have hmantissa : |(Reading.numerator negative m e : ℚ)| = m := by
      rw [← Int.cast_abs, ← Nat.cast_natAbs, hnumerator]
    have hone : (1 : ℚ) ≤ Reading.denominator e := by exact_mod_cast Reading.denominator_pos e
    have hm' : (m : ℚ) < 2 ^ 53 := by exact_mod_cast hm
    rw [ha, abs_div, hmantissa, abs_of_pos (by linarith), div_lt_iff₀ (by linarith)]
    calc (m : ℚ) < 2 ^ 53 := hm'
      _ = 2 ^ 53 * 1 := (mul_one _).symm
      _ ≤ 2 ^ 53 * Reading.denominator e := by gcongr

theorem natAbs_lt_of_abs_lt {n : Int} {bound : Nat} (h : |(n : ℚ)| < bound) :
    n.natAbs < bound := by
  rw [← Int.cast_abs, ← Nat.cast_natAbs] at h
  exact_mod_cast h

/-- **Rounding an integer to a double is exact if some mantissa holds it.** -/
theorem value?_ofInt {n : Int} {m k : Nat} (hm : m < 0x20000000000000)
    (hn : n.natAbs = m * 2 ^ k) (hlog : n.natAbs.log2 < 1024) :
    (ofInt n).decode.value? = some (n : ℚ) := by
  by_cases hzero : n = 0
  · subst hzero
    decide +kernel
  · obtain ⟨stored, hstored, hpattern, hplaces⟩ :=
      Format.roundMagnitude_exact (Int.natAbs_ne_zero.2 hzero) hm hn hlog
    have hfields := Format.decode_of_fields (decide (n < 0)) (Nat.succ_ne_zero _)
      (show n.natAbs.log2 + 1023 < 2047 by omega) hstored
    rw [← hpattern] at hfields
    obtain ⟨hbits, hdecode⟩ := hfields
    have hofInt : (ofInt n).decode = .finite (decide (n < 0)) (0x10000000000000 + stored)
        ((n.natAbs.log2 : Int) - 52) := by
      have hexponent : ((n.natAbs.log2 + 1023 : Nat) : Int) - 1075 =
          (n.natAbs.log2 : Int) - 52 := by omega
      rw [← hexponent, ← hdecode, ← decode_ofPattern hbits]
      rfl
    have hup : ((n.natAbs.log2 : Int) - 52).toNat = n.natAbs.log2 - 52 := by omega
    have hdown : (-((n.natAbs.log2 : Int) - 52)).toNat = 52 - n.natAbs.log2 := by omega
    rw [hofInt]
    generalize 0x10000000000000 + stored = q at hplaces
    have hmagnitude : (q : ℚ) * 2 ^ ((n.natAbs.log2 : Int) - 52) = n.natAbs := by
      have hcast : (q : ℚ) * 2 ^ (n.natAbs.log2 - 52) = n.natAbs * 2 ^ (52 - n.natAbs.log2) := by
        exact_mod_cast hplaces
      rw [Reading.two_zpow, hup, hdown, ← mul_div_assoc, div_eq_iff (by positivity), hcast]
    rw [Reading.value?, mul_assoc, hmagnitude, Nat.cast_natAbs, Int.cast_abs]
    congr 1
    by_cases hneg : n < 0
    · have hneg' : (n : ℚ) < 0 := by exact_mod_cast hneg
      rw [decide_eq_true hneg, if_pos rfl, abs_of_neg hneg']
      ring
    · have hnonneg : (0 : ℚ) ≤ n := by exact_mod_cast Int.not_lt.1 hneg
      rw [decide_eq_false hneg, if_neg (by decide), abs_of_nonneg hnonneg, one_mul]

/-! ## Casts to 64 bits -/

/-- **The cast of a double in range drops what is behind the point.** -/
theorem toInt64_of_value? (h : x.decode.value? = some a) (hlow : -2 ^ 63 ≤ a)
    (hhigh : a < 2 ^ 63) :
    |(x.toInt64.toInt : ℚ)| ≤ |a| ∧ ∀ n : Int, a = n → x.toInt64.toInt = n := by
  obtain ⟨hge, hle, habs, hwhole⟩ := Reading.truncate_of_value? h
    (show (-0x8000000000000000 : Int) ≤ 0 by decide)
    (show (0 : Int) ≤ 0x7FFFFFFFFFFFFFFF by decide) (by push_cast; linarith)
    (by push_cast; linarith)
  have hcast : x.toInt64.toInt =
      x.decode.truncate (-0x8000000000000000) 0x7FFFFFFFFFFFFFFF :=
    Int64.toInt_ofInt_of_le (by omega) (by omega)
  rw [hcast]
  exact ⟨habs, hwhole⟩

theorem toUInt64_of_value? {n : Int} (h : x.decode.value? = some (n : ℚ)) (hlow : 0 ≤ n)
    (hhigh : n < 0x10000000000000000) : (x.toUInt64.toNat : Int) = n := by
  have hlow' : (0 : ℚ) ≤ n := by exact_mod_cast hlow
  have hhigh' : (n : ℚ) < 0x10000000000000000 := by exact_mod_cast hhigh
  obtain ⟨-, -, -, hwhole⟩ := Reading.truncate_of_value? h (Int.le_refl 0)
    (show (0 : Int) ≤ 0xFFFFFFFFFFFFFFFF by decide) (by push_cast; linarith)
    (by push_cast; linarith)
  have hnat : n.toNat < 0x10000000000000000 := by omega
  rw [toUInt64, hwhole n rfl, UInt64.toNat_ofNat_of_lt' hnat, Int.toNat_of_nonneg hlow]

/-- **Casting to 64 bits and back gives the same double if it is an integer**, and otherwise
another. -/
theorem same_ofInt_toInt64_iff (h : x.decode.value? = some a) (hlow : -2 ^ 63 ≤ a)
    (hhigh : a < 2 ^ 63) :
    (ofInt x.toInt64.toInt).same x = true ↔ (x.toInt64.toInt : ℚ) = a := by
  obtain ⟨habs, hwhole⟩ := toInt64_of_value? h hlow hhigh
  have hmantissa : ∃ m k, m < 0x20000000000000 ∧ x.toInt64.toInt.natAbs = m * 2 ^ k := by
    rcases exists_mantissa_or_lt h with ⟨n, m, k, hn, hm, hplaces⟩ | hlt
    · rw [hwhole n hn]
      exact ⟨m, k, hm, hplaces⟩
    · have hsmall : x.toInt64.toInt.natAbs < 0x20000000000000 :=
        natAbs_lt_of_abs_lt (by exact_mod_cast lt_of_le_of_lt habs hlt)
      exact ⟨_, 0, hsmall, by rw [Nat.pow_zero, Nat.mul_one]⟩
  obtain ⟨m, k, hm, hplaces⟩ := hmantissa
  have hword : x.toInt64.toInt.natAbs < 2 ^ 64 := by
    have hle := x.toInt64.le_toInt
    have hlt := x.toInt64.toInt_lt
    omega
  exact same_iff (value?_ofInt hm hplaces (Format.log2_lt_of_lt hword)) h

end Binary64

end ConfigBind
