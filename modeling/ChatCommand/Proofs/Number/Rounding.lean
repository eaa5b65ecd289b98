import Mathlib.Algebra.Order.Field.Power
import Mathlib.Data.Nat.Log
import Mathlib.Tactic.FieldSimp
import Mathlib.Tactic.Linarith
import Mathlib.Tactic.NormNum
import Mathlib.Tactic.Ring
import ChatCommand.Number.Decimal

/-! # Rounding to doubles

A number is rounded to the nearest magnitude with 53 leading bits, and of two to the one whose last
bit is zero. There is exactly one such magnitude, and a decimal number is read as the double that
has it, unless it is too large to be finite.
-/

namespace ChatCommand

namespace Binary64

variable {u v : Nat} {q : ℚ}

/-- A significand of 53 bits times a power of two. There is no largest one. -/
def IsPrecise (units : Nat) : Prop := ∃ m e, m < 2 ^ 53 ∧ units = m * 2 ^ e

/-- The magnitude of 53 bits nearest to `q` units, and of two the one whose last bit is zero. -/
structure IsNearest (q : ℚ) (units : Nat) : Prop where
  precise : IsPrecise units
  le : ∀ v, IsPrecise v → |q - units| ≤ |q - v|
  even : ∀ v, IsPrecise v → v ≠ units → |q - units| = |q - v| → Even (units / spacing units)

theorem spacing_eq (u : Nat) : spacing u = 2 ^ (u.log2 - 52) := rfl

theorem isPrecise_two_pow (k : Nat) : IsPrecise (2 ^ k) :=
  ⟨1, k, by decide, (Nat.one_mul _).symm⟩

theorem isPrecise_iff : IsPrecise u ↔ spacing u ∣ u := by
  constructor
  · rintro ⟨m, e, hm, rfl⟩
    by_cases h0 : m * 2 ^ e = 0
    · rw [h0]
      exact dvd_zero _
    · have hlt : m * 2 ^ e < 2 ^ (53 + e) := by
        rw [Nat.pow_add]
        exact Nat.mul_lt_mul_of_pos_right hm (Nat.two_pow_pos e)
      have hlog := (Nat.log2_lt h0).mpr hlt
      exact (Nat.pow_dvd_pow 2 (by omega)).trans (dvd_mul_left _ m)
  · intro h
    refine ⟨u / spacing u, u.log2 - 52, ?_, (Nat.div_mul_cancel h).symm⟩
    have hlt : u < 2 ^ (u.log2 + 1) := Nat.lt_log2_self
    have hle : 2 ^ (u.log2 + 1) ≤ 2 ^ 53 * spacing u := by
      rw [spacing_eq, ← Nat.pow_add]
      exact Nat.pow_le_pow_right (by decide) (by omega)
    exact Nat.div_lt_of_lt_mul (by rw [Nat.mul_comm]; omega)

theorem spacing_dvd_spacing (h : u ≤ v) : spacing u ∣ spacing v := by
  have hlog : u.log2 ≤ v.log2 := by
    rw [Nat.log2_eq_log_two, Nat.log2_eq_log_two]
    exact Nat.log_mono_right h
  exact Nat.pow_dvd_pow 2 (by omega)

theorem add_spacing_le (hu : IsPrecise u) (hv : IsPrecise v) (h : u < v) : u + spacing u ≤ v := by
  have hd : spacing u ∣ v - u :=
    Nat.dvd_sub ((spacing_dvd_spacing h.le).trans (isPrecise_iff.mp hv)) (isPrecise_iff.mp hu)
  have := Nat.le_of_dvd (Nat.sub_pos_of_lt h) hd
  omega

theorem add_spacing_cases (hu : IsPrecise u) :
    spacing (u + spacing u) = spacing u ∨ u + spacing u = 2 ^ (u.log2 + 1) := by
  have hs := spacing_pos u
  have hle : u + spacing u ≤ 2 ^ (u.log2 + 1) :=
    add_spacing_le hu (isPrecise_two_pow _) Nat.lt_log2_self
  rcases Nat.lt_or_eq_of_le hle with hlt | he
  · left
    have hlow : 2 ^ u.log2 ≤ u + spacing u := by
      by_cases h0 : u = 0
      · subst h0
        exact hs
      · exact (Nat.log2_self_le h0).trans (Nat.le_add_right _ _)
    rw [spacing_eq (u + spacing u), (Nat.log2_eq_iff (by omega)).mpr ⟨hlow, hlt⟩, spacing_eq]
  · exact .inr he

theorem IsPrecise.add_spacing (hu : IsPrecise u) : IsPrecise (u + spacing u) := by
  rcases add_spacing_cases hu with hs | he
  · rw [isPrecise_iff, hs]
    exact dvd_add (isPrecise_iff.mp hu) dvd_rfl
  · rw [he]
    exact isPrecise_two_pow _

/-- Of two neighbours exactly one has a last bit that is zero. -/
theorem even_add_spacing_iff (hu : IsPrecise u) :
    Even ((u + spacing u) / spacing (u + spacing u)) ↔ ¬ Even (u / spacing u) := by
  have hsucc : (u + spacing u) / spacing u = u / spacing u + 1 :=
    Nat.add_div_right _ (spacing_pos u)
  rcases add_spacing_cases hu with hs | he
  · rw [hs, hsucc, Nat.even_add_one]
  · have hs : spacing (u + spacing u) = 2 ^ (u.log2 + 1 - 52) := by
      rw [he, spacing_eq, Nat.log2_two_pow]
    by_cases hl : u.log2 < 52
    · have hsame : spacing (u + spacing u) = spacing u := by
        rw [hs, spacing_eq]
        congr 1
        omega
      rw [hsame, hsucc, Nat.even_add_one]
    · -- the last magnitude below a power of two has 53 ones, the power of two 52 zeros
      have hnext : (u + spacing u) / spacing (u + spacing u) = 2 ^ 52 := by
        rw [hs, he, Nat.pow_div (by omega) (by decide)]
        congr 1
        omega
      have hones : u / spacing u + 1 = 2 ^ 53 := by
        rw [← hsucc, he, spacing_eq, Nat.pow_div (by omega) (by decide)]
        congr 1
        omega
      have hodd : ¬ Even (u / spacing u) := by
        rw [← Nat.even_add_one, hones]
        decide
      rw [hnext]
      exact iff_of_true (by decide) hodd

theorem le_or_add_spacing_le (hu : IsPrecise u) (hv : IsPrecise v) :
    (v : ℚ) ≤ u ∨ (u : ℚ) + spacing u ≤ v := by
  rcases Nat.lt_or_ge u v with h | h
  · right
    exact_mod_cast add_spacing_le hu hv h
  · left
    exact_mod_cast h

theorem isNearest_of_le_half (hu : IsPrecise u) (hq : u ≤ q) (h : 2 * (q - u) ≤ spacing u)
    (ht : 2 * (q - u) = spacing u → Even (u / spacing u)) : IsNearest q u := by
  have hdist : |q - u| = q - u := abs_of_nonneg (by linarith)
  refine ⟨hu, fun v hv => ?_, fun v hv hne he => ht ?_⟩
  · rw [hdist]
    rcases le_or_add_spacing_le hu hv with hle | hle
    · linarith [le_abs_self (q - v)]
    · linarith [neg_le_abs (q - v)]
  · rw [hdist] at he
    rcases le_or_add_spacing_le hu hv with hle | hle
    · rw [abs_of_nonneg (by linarith)] at he
      have hv' : (v : ℚ) = u := by linarith
      exact absurd (Nat.cast_injective hv') hne
    · linarith [neg_le_abs (q - v)]

theorem isNearest_of_half_le (hu : IsPrecise u) (hq : q ≤ u + spacing u)
    (h : spacing u ≤ 2 * (q - u)) (ht : 2 * (q - u) = spacing u → ¬ Even (u / spacing u)) :
    IsNearest q (u + spacing u) := by
  have hdist : |q - (u + spacing u : Nat)| = u + spacing u - q := by
    rw [abs_sub_comm, abs_of_nonneg] <;> push_cast <;> linarith
  refine ⟨hu.add_spacing, fun v hv => ?_, fun v hv hne he => ?_⟩
  · rw [hdist]
    rcases le_or_add_spacing_le hu hv with hle | hle
    · linarith [le_abs_self (q - v)]
    · linarith [neg_le_abs (q - v)]
  · rw [even_add_spacing_iff hu]
    rw [hdist] at he
    rcases le_or_add_spacing_le hu hv with hle | hle
    · apply ht
      linarith [le_abs_self (q - v)]
    · rw [abs_sub_comm, abs_of_nonneg (by linarith)] at he
      have hv' : (v : ℚ) = (u + spacing u : Nat) := by
        push_cast
        linarith
      exact absurd (Nat.cast_injective hv') hne

theorem IsNearest.le_of_isNearest (hu : IsNearest q u) (hv : IsNearest q v) : v ≤ u := by
  apply Nat.le_of_not_lt
  intro h
  have hcast : (u : ℚ) < v := by exact_mod_cast h
  have hd : |q - u| = |q - v| := le_antisymm (hu.le v hv.precise) (hv.le u hu.precise)
  have hmid : q - u = v - q := by
    rcases abs_eq_abs.mp hd with he | he <;> linarith
  -- so the two are neighbours, and both would have a last bit that is zero
  have hnext : v = u + spacing u := by
    refine le_antisymm (Nat.le_of_not_lt fun hlt => ?_) (add_spacing_le hu.precise hv.precise h)
    have hlt' : ((u + spacing u : Nat) : ℚ) < v := by exact_mod_cast hlt
    have hs : (u : ℚ) < (u + spacing u : Nat) := by
      exact_mod_cast Nat.lt_add_of_pos_right (spacing_pos u)
    -- the upper neighbour of `u` would be nearer to the middle between `u` and `v`
    have hnear := hu.le _ hu.precise.add_spacing
    rw [abs_of_nonneg (by linarith : 0 ≤ q - u), le_abs] at hnear
    rcases hnear with hn | hn <;> linarith
  have heu := hu.even v hv.precise h.ne' hd
  have hev := hv.even u hu.precise h.ne hd.symm
  rw [hnext] at hev
  exact (even_add_spacing_iff hu.precise).mp hev heu

theorem IsNearest.unique (hu : IsNearest q u) (hv : IsNearest q v) : u = v :=
  le_antisymm (hv.le_of_isNearest hu) (hu.le_of_isNearest hv)

theorem spacing_div_mul_spacing (n : Nat) : spacing (n / spacing n * spacing n) = spacing n := by
  by_cases h0 : n = 0
  · subst h0
    rfl
  · have hlow : 2 ^ n.log2 ≤ n / spacing n * spacing n := by
      obtain ⟨k, hk⟩ : spacing n ∣ 2 ^ n.log2 := Nat.pow_dvd_pow 2 (Nat.sub_le _ _)
      rw [hk, Nat.mul_comm]
      apply Nat.mul_le_mul_right
      rw [Nat.le_div_iff_mul_le (spacing_pos n), Nat.mul_comm, ← hk]
      exact Nat.log2_self_le h0
    have hhigh : n / spacing n * spacing n < 2 ^ (n.log2 + 1) :=
      Nat.lt_of_le_of_lt (Nat.div_mul_le_self _ _) Nat.lt_log2_self
    have hpos := Nat.two_pow_pos n.log2
    rw [spacing_eq, (Nat.log2_eq_iff (by omega)).mpr ⟨hlow, hhigh⟩, spacing_eq]

section Fractions

variable {num den step k r : Nat}

theorem two_mul_div_le_iff (hden : 0 < den) :
    2 * ((r : ℚ) / den) ≤ step ↔ 2 * r ≤ den * step := by
  have hden' : (0 : ℚ) < den := by exact_mod_cast hden
  rw [← mul_div_assoc, div_le_iff₀ hden', mul_comm (step : ℚ)]
  exact_mod_cast Iff.rfl

theorem le_two_mul_div_iff (hden : 0 < den) :
    (step : ℚ) ≤ 2 * (r / den) ↔ den * step ≤ 2 * r := by
  have hden' : (0 : ℚ) < den := by exact_mod_cast hden
  rw [← mul_div_assoc, le_div_iff₀ hden', mul_comm (step : ℚ)]
  exact_mod_cast Iff.rfl

theorem isNearest_of_remainder (hden : 0 < den) (hk : spacing (k * step) = step)
    (hr : r < den * step) : IsNearest (k * step + r / den)
      (if 2 * r > den * step ∨ (2 * r = den * step ∧ k % 2 = 1) then (k + 1) * step
        else k * step) := by
  have hs : 0 < step := hk ▸ spacing_pos _
  have hu : IsPrecise (k * step) := by
    rw [isPrecise_iff, hk]
    exact Nat.dvd_mul_left _ _
  have hbit : k * step / spacing (k * step) = k := by
    rw [hk]
    exact Nat.mul_div_cancel _ hs
  have hrest : (k * step + r / den : ℚ) - (k * step : Nat) = r / den := by
    push_cast
    ring
  have htie : 2 * ((r : ℚ) / den) = step → 2 * r = den * step := fun he =>
    le_antisymm ((two_mul_div_le_iff hden).mp he.le) ((le_two_mul_div_iff hden).mp he.ge)
  split
  · next h =>
    have hle : (r : ℚ) / den ≤ step := by
      rw [div_le_iff₀ (by exact_mod_cast hden), mul_comm]
      exact_mod_cast hr.le
    have hnext : (k + 1) * step = k * step + spacing (k * step) := by
      rw [hk, Nat.succ_mul]
    rw [hnext]
    apply isNearest_of_half_le hu
    · rw [hk]
      push_cast
      linarith
    · rw [hk, hrest, le_two_mul_div_iff hden]
      omega
    · rw [hbit, hk, hrest, Nat.not_even_iff]
      intro he
      have := htie he
      omega
  · next h =>
    apply isNearest_of_le_half hu
    · push_cast
      exact le_add_of_nonneg_right (div_nonneg (Nat.cast_nonneg r) (Nat.cast_nonneg den))
    · rw [hk, hrest, two_mul_div_le_iff hden]
      omega
    · rw [hbit, hk, hrest, Nat.even_iff]
      intro he
      have := htie he
      omega

theorem isNearest_roundToMultiple (hden : 0 < den) :
    IsNearest (num / den) (roundToMultiple (spacing (num / den)) num den) := by
  have hk : spacing (num / (den * spacing (num / den)) * spacing (num / den)) =
      spacing (num / den) := by
    rw [← Nat.div_div_eq_div_mul]
    exact spacing_div_mul_spacing _
  have hs := Nat.mul_pos hden (spacing_pos (num / den))
  have hnum : (num : ℚ) / den = (num / (den * spacing (num / den)) : Nat) * spacing (num / den) +
      (num % (den * spacing (num / den)) : Nat) / den := by
    generalize spacing (num / den) = step
    have hden' : (den : ℚ) ≠ 0 := by exact_mod_cast hden.ne'
    have hsplit : ((den * step * (num / (den * step)) + num % (den * step) : Nat) : ℚ) = num := by
      rw [Nat.div_add_mod]
    rw [div_eq_iff hden', ← hsplit]
    push_cast
    field_simp
  rw [hnum]
  exact isNearest_of_remainder hden hk (Nat.mod_lt num hs)

theorem roundUnits?_eq_some_iff (hden : 0 < den) :
    roundUnits? num den = some u ↔ IsNearest (num / den) u ∧ u < limit := by
  have hn : IsNearest (num / den) (roundToMultiple (spacing (num / den)) num den) :=
    isNearest_roundToMultiple hden
  simp only [roundUnits?, Option.ite_none_right_eq_some, Option.some.injEq]
  constructor
  · rintro ⟨hlt, rfl⟩
    exact ⟨hn, hlt⟩
  · rintro ⟨hu, hlt⟩
    obtain rfl := hn.unique hu
    exact ⟨hlt, rfl⟩

end Fractions

theorem one_pos : 0 < one := by decide +kernel

theorem limit_pos : 0 < limit := by decide +kernel

theorem two_mul_one_le : 2 * one ≤ 10 ^ 401 := by decide +kernel

theorem limit_le : limit ≤ 10 ^ 401 * one := by decide +kernel

theorem isPrecise_limit : IsPrecise limit := isPrecise_iff.mpr (by decide +kernel)

theorem IsNearest.limit_le (hu : IsNearest q u) (h : limit ≤ q) : limit ≤ u := by
  apply Nat.le_of_not_lt
  intro hlt
  have hcast : (u : ℚ) < limit := by exact_mod_cast hlt
  have hle := hu.le limit isPrecise_limit
  rw [abs_of_nonneg (by linarith), abs_of_nonneg (by linarith)] at hle
  linarith

theorem isNearest_zero (h0 : 0 ≤ q) (h : 2 * q < 1) : IsNearest q 0 := by
  have hs : spacing 0 = 1 := rfl
  apply isNearest_of_le_half ⟨0, 0, by decide, rfl⟩
  · simpa using h0
  · simpa [hs] using h.le
  · intro he
    simp [hs] at he
    linarith

structure IsRounded (x : Binary64) (negative : Bool) (q : ℚ) : Prop where
  negative : x.negative = negative
  nearest : IsNearest (q * one) x.units
  lt_limit : x.units < limit

variable {x : Binary64} {negative : Bool}

theorem isRounded_iff : x.IsRounded negative q ↔
    ∃ u, (IsNearest (q * one) u ∧ u < limit) ∧ ⟨negative, u⟩ = x := by
  constructor
  · rintro ⟨rfl, hu, hlt⟩
    exact ⟨x.units, ⟨hu, hlt⟩, rfl⟩
  · rintro ⟨u, ⟨hu, hlt⟩, rfl⟩
    exact ⟨rfl, hu, hlt⟩

theorem IsNearest.isRounded_zero_iff (h : IsNearest (q * one) 0) :
    x.IsRounded negative q ↔ ⟨negative, 0⟩ = x := by
  rw [isRounded_iff]
  constructor
  · rintro ⟨u, ⟨hu, -⟩, rfl⟩
    rw [h.unique hu]
  · exact fun hx => ⟨0, ⟨h, limit_pos⟩, hx⟩

end Binary64

namespace Decimal

open Binary64

variable {d : Decimal}

def magnitude (d : Decimal) : ℚ := d.significand * 10 ^ d.exponent

theorem magnitude_nonneg (d : Decimal) : 0 ≤ d.magnitude :=
  mul_nonneg (Nat.cast_nonneg _) (zpow_nonneg (by norm_num) _)

theorem two_mul_magnitude_lt_one
    (h : d.exponent + (Nat.toDigits 10 d.significand).length < -400) :
    2 * (d.magnitude * one) < 1 := by
  have hsig : (d.significand : ℚ) < 10 ^ ((Nat.toDigits 10 d.significand).length : Int) := by
    rw [zpow_natCast]
    exact_mod_cast (Nat.length_toDigits_le_iff (by decide) Nat.length_toDigits_pos).mp le_rfl
  have hone : 2 * (one : ℚ) ≤ 10 ^ 401 := by exact_mod_cast two_mul_one_le
  have hpos : (0 : ℚ) < one := by exact_mod_cast one_pos
  have hlt : d.magnitude < 10 ^ (-401 : Int) :=
    calc d.magnitude < 10 ^ ((Nat.toDigits 10 d.significand).length : Int) * 10 ^ d.exponent :=
          mul_lt_mul_of_pos_right hsig (zpow_pos (by norm_num) _)
      _ = 10 ^ ((Nat.toDigits 10 d.significand).length + d.exponent) :=
          (zpow_add₀ (by norm_num) _ _).symm
      _ ≤ 10 ^ (-401 : Int) := zpow_le_zpow_right₀ (by norm_num) (by omega)
  calc 2 * (d.magnitude * one) < 2 * (10 ^ (-401 : Int) * one) := by
        linarith [mul_lt_mul_of_pos_right hlt hpos]
    _ = 2 * one / 10 ^ 401 := by
        rw [zpow_neg, zpow_ofNat]
        field_simp
    _ ≤ 1 := div_le_one_of_le₀ hone (by positivity)

theorem limit_le_magnitude (hs : d.significand ≠ 0) (h : 400 < d.exponent) :
    limit ≤ d.magnitude * one := by
  have hsig : (1 : ℚ) ≤ d.significand := by exact_mod_cast Nat.one_le_iff_ne_zero.mpr hs
  have hle : (10 : ℚ) ^ 401 ≤ d.magnitude :=
    calc (10 : ℚ) ^ 401 = 1 * 10 ^ (401 : Int) := by rw [one_mul, zpow_ofNat]
      _ ≤ d.significand * 10 ^ d.exponent :=
        mul_le_mul hsig (zpow_le_zpow_right₀ (by norm_num) (by omega)) (by positivity)
          (Nat.cast_nonneg _)
  calc (limit : ℚ) ≤ 10 ^ 401 * one := by exact_mod_cast limit_le
    _ ≤ d.magnitude * one := mul_le_mul_of_nonneg_right hle (Nat.cast_nonneg _)

theorem ten_zpow_eq (e : Int) : (10 : ℚ) ^ e = 10 ^ e.toNat / 10 ^ (-e).toNat := by
  rw [← zpow_natCast, ← zpow_natCast, ← zpow_sub₀ (by norm_num), Int.toNat_sub_toNat_neg]

/-- A decimal number is read as the double that it is rounded to, and as none if that is not
finite. -/
theorem round?_eq_some_iff {x : Binary64} :
    d.round? = some x ↔ x.IsRounded d.negative d.magnitude := by
  unfold round?
  split
  · next h =>
    have hpos := mul_nonneg d.magnitude_nonneg (Nat.cast_nonneg one)
    rw [Option.some.injEq, (isNearest_zero hpos ?_).isRounded_zero_iff]
    rcases h with h | h
    · rw [magnitude, h, Nat.cast_zero, zero_mul, zero_mul, mul_zero]
      exact zero_lt_one
    · exact two_mul_magnitude_lt_one h
  · next h =>
    have hs : d.significand ≠ 0 := fun hs => h (.inl hs)
    split
    · next he =>
      refine iff_of_false nofun fun hx => ?_
      exact absurd hx.lt_limit (Nat.not_lt.mpr (hx.nearest.limit_le (limit_le_magnitude hs he)))
    · have hden : 0 < Nat.pow 10 (-d.exponent).toNat := Nat.pow_pos (by decide)
      have hq : ((d.significand * Nat.pow 10 d.exponent.toNat * one : Nat) : ℚ) /
          (Nat.pow 10 (-d.exponent).toNat : Nat) = d.magnitude * one := by
        rw [magnitude, ten_zpow_eq, Nat.pow_eq, Nat.pow_eq]
        push_cast
        ring
      simp only [Option.map_eq_some_iff, roundUnits?_eq_some_iff hden, hq, isRounded_iff]

end Decimal

end ChatCommand
