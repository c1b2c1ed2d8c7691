import Mathlib.Tactic.LinearCombination
import PacketProtocol.Proofs.Binary.Rounding
/-!
# Shortest decimals read back

The search for the shortest decimal of a double ends, and what it finds lies among the numbers that round to the
double. So reading it gives the double back, whatever digits were left out.
-/

namespace PacketProtocol

open scoped Numerals

/-- The number a decimal stands for. -/
def Decimal.value (d : Decimal) : ℚ := d.unscaled / (10 ^ d.places : Nat)

theorem ten_pow_pos (n : Nat) : 0 < 10 ^ n := Nat.pow_pos (by decide)

namespace Shortest

namespace Interval

variable {i : Interval} {step count : Nat}

theorem contains_iff (n : Nat) : i.contains n = true ↔
    i.low ≤ n ∧ n ≤ i.high ∧ (i.closed = false → i.low < n ∧ n < i.high) := by
  unfold contains
  cases i.closed <;> simp
  omega

/-- What is found on a grid lies in the interval. -/
theorem contains_of_onGrid (h : i.onGrid step = some count) : i.contains (count * step) = true := by
  unfold onGrid at h
  dsimp only at h
  split at h
  · rename_i hbelow habove
    cases h
    split <;> assumption
  · rename_i hbelow _
    cases h
    exact hbelow
  · rename_i _ habove
    cases h
    exact habove
  · cases h

theorem contains_between {a b c : Nat} (ha : i.contains a = true) (hb : i.contains b = true) (hac : a ≤ c)
    (hcb : c ≤ b) : i.contains c = true := by
  rw [contains_iff] at ha hb ⊢
  obtain ⟨hlow, -, hopen⟩ := ha
  obtain ⟨-, hhigh, hopen'⟩ := hb
  refine ⟨by omega, by omega, fun hclosed => ?_⟩
  have := hopen hclosed
  have := hopen' hclosed
  omega

/-- A grid with a point in the interval has one next to the value. -/
theorem onGrid_isSome (hvalue : i.contains i.value = true) (hpoint : i.contains (count * step) = true) :
    (i.onGrid step).isSome := by
  have hnear : i.contains (i.value / step * step) = true ∨ i.contains ((i.value / step + 1) * step) = true := by
    obtain hle | hlt := Nat.lt_or_ge i.value (count * step) |>.symm
    · left
      have hcount : count * step ≤ i.value / step * step := by
        obtain rfl | hstep := Nat.eq_zero_or_pos step
        · exact Nat.le_refl _
        · exact Nat.mul_le_mul_right step ((Nat.le_div_iff_mul_le hstep).2 hle)
      exact contains_between hpoint hvalue hcount (Nat.div_mul_le_self _ _)
    · right
      have hstep : 0 < step := Nat.pos_of_ne_zero fun hzero => by simp [hzero] at hlt
      have hcount : (i.value / step + 1) * step ≤ count * step :=
        Nat.mul_le_mul_right step ((Nat.div_lt_iff_lt_mul hstep).2 hlt)
      have hnext : i.value < (i.value / step + 1) * step := by
        rw [Nat.mul_comm]
        exact Nat.lt_mul_div_succ _ hstep
      exact contains_between hvalue hpoint (Nat.le_of_lt hnext) hcount
  unfold onGrid
  dsimp only
  obtain hbelow | habove := hnear
  · rw [hbelow]
    cases i.contains ((i.value / step + 1) * step) <;> rfl
  · rw [habove]
    cases i.contains (i.value / step * step) <;> rfl

/-- Of the points of a grid in the interval none is nearer to the value than the one that is found. -/
theorem onGrid_nearest {c : Nat} (hvalue : i.contains i.value = true) (h : i.onGrid step = some count)
    (hc : i.contains (c * step) = true) :
    (((count * step : Nat) : Int) - i.value).natAbs ≤ (((c * step : Nat) : Int) - i.value).natAbs := by
  obtain rfl | hstep := Nat.eq_zero_or_pos step
  · exact Nat.le_refl _
  have hdiv := Nat.div_add_mod' i.value step
  have hrest := Nat.mod_lt i.value hstep
  have hnext : (i.value / step + 1) * step = i.value / step * step + step := Nat.succ_mul _ _
  unfold onGrid at h
  dsimp only at h
  -- another point is the one below or further down, or the one above or further up
  obtain hle | hlt := Nat.lt_or_ge (i.value / step) c |>.symm
  · have hdown : c * step ≤ i.value / step * step := Nat.mul_le_mul_right step hle
    have hbelow : i.contains (i.value / step * step) = true :=
      contains_between hc hvalue hdown (Nat.div_mul_le_self _ _)
    rw [hbelow] at h
    split at h
    · cases h
      split <;> omega
    · cases h
      omega
    · rename_i hfalse _
      cases hfalse
    · rename_i hfalse _
      cases hfalse
  · have hup : (i.value / step + 1) * step ≤ c * step := Nat.mul_le_mul_right step hlt
    have habove : i.contains ((i.value / step + 1) * step) = true :=
      contains_between hvalue hc (by omega) hup
    rw [habove] at h
    split at h
    · cases h
      split <;> omega
    · rename_i _ hfalse
      cases hfalse
    · cases h
      omega
    · rename_i _ hfalse
      cases hfalse

theorem contains_refine {factor n : Nat} (h : 0 < factor) : (i.refine factor).contains (n * factor) = i.contains n := by
  rw [Bool.eq_iff_iff, contains_iff, contains_iff]
  simp only [refine, Nat.mul_le_mul_right_iff h, Nat.mul_lt_mul_right h]

/-- Units of the two sides of a comparison, made whole. -/
theorem scale_grid (n count : Nat) (unit exponent : Int) :
    (n : ℚ) * 2 ^ unit * ((2 ^ (-unit).toNat * 10 ^ (-exponent).toNat : Nat) : ℚ) =
        ((n * (2 ^ unit.toNat * 10 ^ (-exponent).toNat) : Nat) : ℚ) ∧
      (count : ℚ) * 10 ^ exponent * ((2 ^ (-unit).toNat * 10 ^ (-exponent).toNat : Nat) : ℚ) =
        ((count * (2 ^ (-unit).toNat * 10 ^ exponent.toNat) : Nat) : ℚ) := by
  have htwo : (2 : ℚ) ^ (-unit).toNat ≠ 0 := pow_ne_zero _ (by norm_num)
  have hten : (10 : ℚ) ^ (-exponent).toNat ≠ 0 := pow_ne_zero _ (by norm_num)
  rw [zpow_eq_div (by norm_num : (2 : ℚ) ≠ 0), zpow_eq_div (by norm_num : (10 : ℚ) ≠ 0)]
  push_cast
  constructor <;> field_simp

/-- A point of a grid of powers of ten lies in the interval as it lies in the whole numbers it is compared in. -/
theorem contains_grid (unit exponent : Int) (count : Nat) :
    (i.refine (2 ^ unit.toNat * 10 ^ (-exponent).toNat)).contains
        (count * (2 ^ (-unit).toNat * 10 ^ exponent.toNat)) = true ↔
      i.Has unit (count * 10 ^ exponent) := by
  have hpos : (0 : ℚ) < ((2 ^ (-unit).toNat * 10 ^ (-exponent).toNat : Nat) : ℚ) := by
    exact_mod_cast Nat.mul_pos (Nat.two_pow_pos _) (ten_pow_pos _)
  have hle : ∀ n : Nat, (n : ℚ) * 2 ^ unit ≤ count * 10 ^ exponent ↔
      n * (2 ^ unit.toNat * 10 ^ (-exponent).toNat) ≤ count * (2 ^ (-unit).toNat * 10 ^ exponent.toNat) := fun n => by
    obtain ⟨hleft, hright⟩ := scale_grid n count unit exponent
    rw [← mul_le_mul_iff_of_pos_right hpos, hleft, hright, Nat.cast_le]
  have hge : ∀ n : Nat, (count : ℚ) * 10 ^ exponent ≤ n * 2 ^ unit ↔
      count * (2 ^ (-unit).toNat * 10 ^ exponent.toNat) ≤ n * (2 ^ unit.toNat * 10 ^ (-exponent).toNat) := fun n => by
    obtain ⟨hleft, hright⟩ := scale_grid n count unit exponent
    rw [← mul_le_mul_iff_of_pos_right hpos, hleft, hright, Nat.cast_le]
  have hlt : ∀ n : Nat, (n : ℚ) * 2 ^ unit < count * 10 ^ exponent ↔
      n * (2 ^ unit.toNat * 10 ^ (-exponent).toNat) < count * (2 ^ (-unit).toNat * 10 ^ exponent.toNat) := fun n => by
    rw [← not_le, hge, not_le]
  have hgt : ∀ n : Nat, (count : ℚ) * 10 ^ exponent < n * 2 ^ unit ↔
      count * (2 ^ (-unit).toNat * 10 ^ exponent.toNat) < n * (2 ^ unit.toNat * 10 ^ (-exponent).toNat) := fun n => by
    rw [← not_le, hle, not_le]
  rw [contains_iff, Has, hle, hge, hlt, hgt]
  exact Iff.rfl

/-- What lies between two numbers of an interval belongs to it. -/
theorem Has.between {unit : Int} {a b c : ℚ} (ha : i.Has unit a) (hb : i.Has unit b) (hac : a ≤ c) (hcb : c ≤ b) :
    i.Has unit c :=
  ⟨ha.1.trans hac, hcb.trans hb.2.1, fun hopen => ⟨(ha.2.2 hopen).1.trans_le hac, hcb.trans_lt (hb.2.2 hopen).2⟩⟩

end Interval

variable {i : Interval} {unit : Int}

theorem value_of_grid (count : Nat) (exponent : Int) :
    Decimal.value ⟨count * 10 ^ exponent.toNat, (-exponent).toNat⟩ = count * 10 ^ exponent := by
  rw [Decimal.value, zpow_eq_div (by norm_num : (10 : ℚ) ≠ 0)]
  push_cast
  ring

/-- If some grid has a point in the interval, the search finds one, on that grid or a coarser one. -/
theorem search_spec {exponent least : Int} {fuel : Nat} (hvalue : i.contains i.value = true) (hleast : least ≤ exponent)
    (hfuel : exponent - least < fuel) (hpoint : ∃ count : Nat, i.Has unit (count * 10 ^ least)) :
    i.Has unit (search i unit exponent fuel).value ∧ (search i unit exponent fuel).places ≤ (-least).toNat := by
  induction fuel generalizing exponent with
  | zero => omega
  | succ fuel ih =>
    rw [search]
    split
    · rename_i count hgrid
      have hhas := (Interval.contains_grid unit exponent count).1 (Interval.contains_of_onGrid hgrid)
      rw [value_of_grid]
      refine ⟨hhas, ?_⟩
      dsimp only
      omega
    · rename_i hgrid
      have hne : exponent ≠ least := by
        rintro rfl
        obtain ⟨count, hhas⟩ := hpoint
        have hfactor : 0 < 2 ^ unit.toNat * 10 ^ (-exponent).toNat := Nat.mul_pos (Nat.two_pow_pos _) (ten_pow_pos _)
        have hsome := @Interval.onGrid_isSome (i.refine (2 ^ unit.toNat * 10 ^ (-exponent).toNat))
          (2 ^ (-unit).toNat * 10 ^ exponent.toNat) count ((Interval.contains_refine hfactor).trans hvalue)
          ((Interval.contains_grid unit exponent count).2 hhas)
        rw [hgrid] at hsome
        cases hsome
      exact ih (by omega) (by push_cast at hfuel; omega)

/-- What the search finds is nearest to the value among the decimals of as many places in the interval, if it has
places. -/
theorem search_nearest {exponent : Int} {fuel : Nat} {d : Decimal} (hvalue : i.contains i.value = true)
    (hpos : 0 < (search i unit exponent fuel).places) (hplaces : d.places = (search i unit exponent fuel).places)
    (hhas : i.Has unit d.value) :
    |(search i unit exponent fuel).value - i.value * 2 ^ unit| ≤ |d.value - i.value * 2 ^ unit| := by
  induction fuel generalizing exponent with
  | zero => exact absurd hpos (Nat.lt_irrefl 0)
  | succ fuel ih =>
    rw [search] at hpos hplaces ⊢
    split at hpos
    · rename_i count hgrid
      rw [hgrid] at hplaces
      dsimp only at hpos hplaces
      have hd : d.value = (d.unscaled : ℚ) * 10 ^ exponent := by
        have hexponent : exponent = -(d.places : Int) := by omega
        rw [Decimal.value, hexponent, zpow_neg, zpow_natCast, Nat.cast_pow, Nat.cast_ofNat]
        rfl
      have hfactor : 0 < 2 ^ unit.toNat * 10 ^ (-exponent).toNat := Nat.mul_pos (Nat.two_pow_pos _) (ten_pow_pos _)
      have hscale : (0 : ℚ) < ((2 ^ (-unit).toNat * 10 ^ (-exponent).toNat : Nat) : ℚ) := by
        exact_mod_cast Nat.mul_pos (Nat.two_pow_pos _) (ten_pow_pos _)
      have hnear := Interval.onGrid_nearest ((Interval.contains_refine hfactor).trans hvalue) hgrid
        ((Interval.contains_grid unit exponent d.unscaled).2 (hd ▸ hhas))
      -- the whole numbers that were compared are the fractions in a common unit
      have hwhole : ∀ c : Nat, |(c : ℚ) * 10 ^ exponent - i.value * 2 ^ unit| *
          ((2 ^ (-unit).toNat * 10 ^ (-exponent).toNat : Nat) : ℚ) =
            (((((c * (2 ^ (-unit).toNat * 10 ^ exponent.toNat) : Nat) : Int) -
              (i.value * (2 ^ unit.toNat * 10 ^ (-exponent).toNat) : Nat)).natAbs : Nat) : ℚ) := fun c => by
        obtain ⟨hleft, hright⟩ := Interval.scale_grid i.value c unit exponent
        rw [Nat.cast_natAbs, Int.cast_abs, Int.cast_sub, Int.cast_natCast, Int.cast_natCast, ← hleft, ← hright,
          ← sub_mul, abs_mul, abs_of_pos hscale]
      rw [value_of_grid, hd, ← mul_le_mul_iff_of_pos_right hscale, hwhole, hwhole]
      exact_mod_cast hnear
    · rename_i hgrid
      rw [hgrid] at hplaces
      exact ih hpos hplaces

end Shortest

namespace Format

variable {f : Format} {m : Nat}

theorem interval_contains (hm : 0 < m) :
    (Shortest.interval f m).1.contains (Shortest.interval f m).1.value = true := by
  have hsig := f.significand_pos hm
  rw [Shortest.Interval.contains_iff, Shortest.interval]
  dsimp only
  split <;> omega

/-- The value in the interval of a magnitude is the number it stands for. -/
theorem interval_value (f : Format) (m : Nat) :
    ((Shortest.interval f m).1.value : ℚ) * 2 ^ (Shortest.interval f m).2 = (f.scaled m).value := by
  rw [Shortest.interval, Scaled.value, two_zpow_eq_quarters (f.scaled m).scale]
  push_cast
  ring

end Format

namespace Binary64

variable {x : Binary64}

theorem shortest_of_zero (h : x.magnitude = 0) : x.shortest = ⟨0, 0⟩ := if_pos h

theorem shortest_eq (h : 0 < x.magnitude) :
    x.shortest = Shortest.search (Shortest.interval Format.binary64 x.magnitude).1
      (Shortest.interval Format.binary64 x.magnitude).2 (toString (x.scaled.floorAt 0)).length
      ((toString (x.scaled.floorAt 0)).length + 1077) :=
  if_neg (Nat.ne_of_gt h)

/-- No number of the format is finer than this grid. -/
theorem value_on_grid (x : Binary64) : ∃ count : Nat, x.scaled.value = count * 10 ^ (-1076 : Int) := by
  have hscale : -1074 ≤ x.scaled.scale := (Format.holds_scaled Format.binary64 x.magnitude).scale
  have hsplit : x.scaled.scale = ((x.scaled.scale + 1076).toNat : Int) + -1076 := by omega
  have hten : (10 : ℚ) ^ (-1076 : Int) = 2 ^ (-1076 : Int) * 5 ^ (-1076 : Int) := by
    rw [← mul_zpow]
    norm_num
  have hfive : ((5 ^ 1076 : Nat) : ℚ) * 5 ^ (-1076 : Int) = 1 := by
    have hcast : ((5 ^ 1076 : Nat) : ℚ) = 5 ^ ((1076 : Nat) : Int) := by
      rw [zpow_natCast, Nat.cast_pow, Nat.cast_ofNat]
    rw [hcast, ← zpow_add₀ (by norm_num : (5 : ℚ) ≠ 0)]
    exact zpow_zero 5
  refine ⟨x.scaled.significand * 2 ^ (x.scaled.scale + 1076).toNat * 5 ^ 1076, ?_⟩
  rw [Scaled.value, Nat.cast_mul, Nat.cast_mul, hten]
  conv_lhs => rw [hsplit, two_zpow_natCast_add]
  linear_combination (-(x.scaled.significand : ℚ) * ((2 ^ (x.scaled.scale + 1076).toNat : Nat) : ℚ) *
    2 ^ (-1076 : Int)) * hfive

/-- The shortest decimal lies near the double, and on the coarsest grid that has a point there. -/
theorem shortest_spec (h : 0 < x.magnitude) : Format.binary64.Near x.magnitude x.shortest.value ∧
    ∀ d : Decimal, d.places ≤ 1076 → Format.binary64.Near x.magnitude d.value → x.shortest.places ≤ d.places := by
  rw [shortest_eq h]
  generalize (toString (x.scaled.floorAt 0)).length = start
  have hvalue := Format.interval_contains (f := Format.binary64) h
  constructor
  · obtain ⟨count, hcount⟩ := x.value_on_grid
    have hnear : Format.binary64.Near x.magnitude x.scaled.value := Format.near_scaled h
    rw [hcount] at hnear
    exact (Shortest.search_spec hvalue (by omega) (by push_cast; omega) ⟨count, hnear⟩).1
  · intro d hplaces hnear
    have hpoint : d.value = (d.unscaled : ℚ) * 10 ^ (-(d.places : Int)) := by
      rw [Decimal.value, zpow_neg, zpow_natCast, Nat.cast_pow, Nat.cast_ofNat]
      rfl
    rw [hpoint] at hnear
    obtain ⟨-, hsearch⟩ := @Shortest.search_spec _ _ start (-(d.places : Int)) (start + 1077) hvalue (by omega)
      (by push_cast; omega) ⟨d.unscaled, hnear⟩
    omega

theorem shortest_places_le (h : 0 < x.magnitude) : x.shortest.places ≤ 1076 := by
  obtain ⟨count, hcount⟩ := x.value_on_grid
  have hnear : Format.binary64.Near x.magnitude x.scaled.value := Format.near_scaled h
  have hvalue : Decimal.value ⟨count, 1076⟩ = x.scaled.value := by
    rw [hcount, zpow_neg, Decimal.value, Nat.cast_pow, Nat.cast_ofNat]
    rfl
  exact (shortest_spec h).2 ⟨count, 1076⟩ (Nat.le_refl _) (hvalue ▸ hnear)

/-- Of the decimals with as many places that lie near the double none is nearer than the shortest. -/
theorem shortest_nearest {d : Decimal} (h : 0 < x.magnitude) (hpos : 0 < x.shortest.places)
    (hplaces : d.places = x.shortest.places) (hnear : Format.binary64.Near x.magnitude d.value) :
    |x.shortest.value - x.scaled.value| ≤ |d.value - x.scaled.value| := by
  rw [shortest_eq h] at hpos hplaces ⊢
  rw [scaled, ← Format.interval_value]
  exact Shortest.search_nearest (Format.interval_contains h) hpos hplaces hnear

end Binary64

end PacketProtocol
