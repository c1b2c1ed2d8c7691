import Mathlib.Tactic.LinearCombination
import PacketProtocol.Proofs.Binary.Single
/-!
# The nearest number

Magnitudes are ordered as the numbers they stand for, and around each lie, up to the midpoints to its neighbours, the
numbers that are rounded to it. So no number of the format is nearer to a fraction than the one it is rounded to, and
if another is as near, the last bit of the one that is taken is zero.
-/

namespace PacketProtocol

open scoped Numerals

namespace Format

variable {f : Format} {m n : Nat} {r : ℚ}

/-! ## Neighbours -/

/-- The next magnitude has the next significand, or the least one of the next scale. -/
theorem scaled_succ (f : Format) (m : Nat) :
    f.scaled (m + 1) = ⟨(f.scaled m).significand + 1, (f.scaled m).scale⟩ ∧
        (2 ^ f.fractionBits ≤ (f.scaled m).significand ∨ (f.scaled m).scale = f.minScale) ∨
      f.scaled (m + 1) = ⟨2 ^ f.fractionBits, (f.scaled m).scale + 1⟩ ∧
        (f.scaled m).significand + 1 = 2 * 2 ^ f.fractionBits ∧ f.minScale ≤ (f.scaled m).scale := by
  have hholds := f.holds_scaled m
  have hplace := f.place_scaled m
  generalize f.scaled m = x at hholds hplace ⊢
  have hnext : f.place ⟨x.significand + 1, x.scale⟩ = m + 1 := by
    rw [← hplace]
    rfl
  obtain hlt | heq := Nat.lt_or_eq_of_le (Nat.succ_le_of_lt hholds.significand)
  · left
    have hheld : f.Holds ⟨x.significand + 1, x.scale⟩ :=
      ⟨hholds.scale, hlt, hholds.full.imp_left fun hle => Nat.le_succ_of_le hle⟩
    rw [← hnext, hheld.scaled_place]
    exact ⟨rfl, hholds.full⟩
  · right
    rw [Nat.succ_eq_add_one] at heq
    rw [← hnext, heq, place_carry hholds.scale, (holds_least (Int.le_add_one hholds.scale)).scaled_place]
    refine ⟨rfl, ?_, hholds.scale⟩
    rw [Nat.pow_succ, Nat.mul_comm]

/-- It stands for a unit of the last bit more. -/
theorem value_succ (f : Format) (m : Nat) :
    (f.scaled (m + 1)).value = (f.scaled m).value + 2 ^ (f.scaled m).scale := by
  obtain ⟨hsucc, -⟩ | ⟨hsucc, hcarry, -⟩ := f.scaled_succ m
  · rw [hsucc, Scaled.value, Scaled.value]
    push_cast
    ring
  · have hcast : ((f.scaled m).significand : ℚ) + 1 = 2 * ((2 ^ f.fractionBits : Nat) : ℚ) := by exact_mod_cast hcarry
    rw [hsucc, Scaled.value, Scaled.value, two_zpow_succ]
    linear_combination (-(2 : ℚ) ^ (f.scaled m).scale) * hcast

/-- What is rounded up to the next magnitude lies within half a unit of this one's last bit. -/
theorem margin_succ (f : Format) (m : Nat) :
    f.margin (f.scaled (m + 1)) * 2 ^ (f.scaled (m + 1)).scale = 2 ^ (f.scaled m).scale / 2 := by
  obtain ⟨hsucc, hfull⟩ | ⟨hsucc, -, hleast⟩ := f.scaled_succ m
  · have hmargin : f.margin (f.scaled (m + 1)) = 1 / 2 := by
      refine if_neg fun ⟨hsig, hscale⟩ => ?_
      rw [hsucc] at hsig hscale
      dsimp only at hsig hscale
      omega
    rw [hmargin, hsucc]
    ring
  · have hmargin : f.margin (f.scaled (m + 1)) = 1 / 4 := by
      refine if_pos ?_
      rw [hsucc]
      exact ⟨rfl, Int.lt_add_one_of_le hleast⟩
    rw [hmargin, hsucc, two_zpow_succ]
    ring

/-- Magnitudes are ordered as their numbers. -/
theorem value_strictMono (f : Format) : StrictMono fun m => (f.scaled m).value := by
  refine strictMono_nat_of_lt_succ fun m => ?_
  rw [value_succ]
  exact lt_add_of_pos_right _ (two_zpow_pos _)

theorem value_zero (f : Format) : (f.scaled 0).value = 0 := by
  rw [scaled_of_zero (Nat.zero_div _), Scaled.value, Nat.cast_zero, zero_mul]

theorem value_nonneg (f : Format) (m : Nat) : 0 ≤ (f.scaled m).value :=
  mul_nonneg (Nat.cast_nonneg _) (two_zpow_pos _).le

theorem value_eq_zero : (f.scaled m).value = 0 ↔ m = 0 := by
  rw [← f.value_zero]
  exact f.value_strictMono.injective.eq_iff

/-! ## Between midpoints -/

/-- The numbers from the midpoint to the magnitude below to that to the one above, without them if it is odd. -/
structure Midway (f : Format) (m : Nat) (r : ℚ) : Prop where
  high : r ≤ ((f.scaled m).value + (f.scaled (m + 1)).value) / 2
  low : ∀ k, m = k + 1 → ((f.scaled k).value + (f.scaled m).value) / 2 ≤ r
  strict : m % 2 = 1 → r < ((f.scaled m).value + (f.scaled (m + 1)).value) / 2 ∧
    ∀ k, m = k + 1 → ((f.scaled k).value + (f.scaled m).value) / 2 < r

theorem significand_parity (hfb : 0 < f.fractionBits) (m : Nat) : (f.scaled m).significand % 2 = m % 2 := by
  obtain ⟨bits, hbits⟩ := Nat.exists_eq_succ_of_ne_zero (Nat.ne_of_gt hfb)
  have hplace := f.place_scaled m
  rw [place, hbits, Nat.pow_succ, ← Nat.mul_assoc] at hplace
  omega

theorem Near.midway (hfb : 0 < f.fractionBits) (h : f.Near (m + 1) r) : f.Midway (m + 1) r := by
  have hclose := (near_iff (Nat.succ_pos m)).1 h
  have hunit := two_zpow_pos (f.scaled (m + 1)).scale
  have hhigh : ((f.scaled (m + 1)).value + (f.scaled (m + 1 + 1)).value) / 2 =
      ((f.scaled (m + 1)).significand + 1 / 2) * 2 ^ (f.scaled (m + 1)).scale := by
    rw [f.value_succ (m + 1), Scaled.value]
    ring
  have hlow : ((f.scaled m).value + (f.scaled (m + 1)).value) / 2 =
      ((f.scaled (m + 1)).significand - f.margin (f.scaled (m + 1))) * 2 ^ (f.scaled (m + 1)).scale := by
    rw [sub_mul, f.margin_succ]
    change _ = (f.scaled (m + 1)).value - _
    rw [f.value_succ m]
    ring
  refine ⟨?_, ?_, fun hodd => ⟨?_, ?_⟩⟩
  · rw [hhigh, ← div_le_iff₀ hunit]
    exact hclose.high
  · rintro k hk
    cases hk
    rw [hlow, ← le_div_iff₀ hunit]
    exact hclose.low
  · rw [hhigh, ← div_lt_iff₀ hunit]
    exact (hclose.strict ((significand_parity hfb _).trans hodd)).2
  · rintro k hk
    cases hk
    rw [hlow, ← lt_div_iff₀ hunit]
    exact (hclose.strict ((significand_parity hfb _).trans hodd)).1

/-- What is rounded to zero is at most half of the least positive number. -/
theorem le_of_round_eq_zero {num den : Nat} (hinfinity : 0 < f.infinity) (hden : 0 < den)
    (h : f.round num den = 0) : (num : ℚ) / den ≤ 2 ^ f.minScale / 2 := by
  obtain rfl | hnum := Nat.eq_zero_or_pos num
  · rw [Nat.cast_zero, zero_div]
    exact div_nonneg (two_zpow_pos _).le (by norm_num)
  · obtain ⟨exponent, significand, -, -, hrounds, hround⟩ := f.round_spec hnum hden
    have hpow : 0 < 2 ^ f.fractionBits := Nat.two_pow_pos _
    have hplace : f.place ⟨significand, f.keptScale exponent⟩ = 0 := by omega
    obtain ⟨hscale, hsig⟩ := Nat.add_eq_zero_iff.1 hplace
    have hleast : f.minScale ≤ f.keptScale exponent := Int.le_max_right _ _
    have hkept : f.keptScale exponent = f.minScale := by
      have := (Nat.mul_eq_zero.1 hscale).resolve_right (Nat.ne_of_gt hpow)
      dsimp only at this
      omega
    have hhigh := hrounds.high
    dsimp only at hsig
    rw [hkept, hsig, Nat.cast_zero, zero_add, div_le_iff₀ (two_zpow_pos _)] at hhigh
    linarith

/-- A fraction lies between the midpoints around what it is rounded to. -/
theorem midway_round {num den : Nat} (hfb : 0 < f.fractionBits) (hden : 0 < den)
    (hfinite : f.round num den < f.infinity) : f.Midway (f.round num den) ((num : ℚ) / den) := by
  generalize hround : f.round num den = m at hfinite
  cases m with
  | zero =>
    have hle := le_of_round_eq_zero hfinite hden hround
    refine ⟨?_, fun k hk => ?_, fun hodd => ?_⟩
    · rw [f.value_succ 0, f.value_zero, scaled_of_zero (Nat.zero_div _)]
      dsimp only
      linarith
    · cases hk
    · cases hodd
  | succ m =>
    have hnum : 0 < num := by
      by_contra hzero
      obtain rfl : num = 0 := by omega
      cases hround
    have hnear := near_round hfb hnum hden (hround ▸ Nat.succ_pos m) (hround ▸ hfinite)
    rw [hround] at hnear
    exact hnear.midway hfb

/-- A number below the midpoint of two is nearer to the smaller. -/
theorem abs_sub_le_of_le_midpoint {a b r : ℚ} (hab : a ≤ b) (h : r ≤ (a + b) / 2) : |a - r| ≤ |b - r| := by
  rw [abs_le, abs_of_nonneg (by linarith)]
  constructor <;> linarith

theorem abs_sub_le_of_midpoint_le {a b r : ℚ} (hab : a ≤ b) (h : (a + b) / 2 ≤ r) : |b - r| ≤ |a - r| := by
  rw [abs_le, abs_of_nonpos (a := a - r) (by linarith)]
  constructor <;> linarith

/-- No magnitude is nearer, and none as near if it is odd. -/
theorem Midway.nearest (h : f.Midway m r) (n : Nat) :
    |(f.scaled m).value - r| ≤ |(f.scaled n).value - r| ∧
      (|(f.scaled m).value - r| = |(f.scaled n).value - r| → n ≠ m → m % 2 = 0) := by
  obtain hlt | rfl | hgt := Nat.lt_trichotomy m n
  · -- past the neighbour above
    have hnext : (f.scaled (m + 1)).value ≤ (f.scaled n).value := f.value_strictMono.monotone hlt
    have hstep : (f.scaled m).value < (f.scaled n).value := f.value_strictMono hlt
    have hhigh := h.high
    refine ⟨abs_sub_le_of_le_midpoint hstep.le (by linarith), fun htie _ => ?_⟩
    by_contra hodd
    have hless := (h.strict (by omega)).1
    rw [abs_of_nonneg (a := (f.scaled n).value - r) (by linarith)] at htie
    obtain ⟨hcase, -⟩ | ⟨hcase, -⟩ := abs_cases ((f.scaled m).value - r) <;> linarith
  · exact ⟨le_refl _, fun _ hne => absurd rfl hne⟩
  · -- past the neighbour below
    obtain ⟨k, rfl⟩ := Nat.exists_eq_succ_of_ne_zero (Nat.ne_zero_of_lt hgt)
    have hprev : (f.scaled n).value ≤ (f.scaled k).value := f.value_strictMono.monotone (Nat.le_of_lt_succ hgt)
    have hstep : (f.scaled n).value < (f.scaled (k + 1)).value := f.value_strictMono hgt
    have hlow := h.low k rfl
    refine ⟨abs_sub_le_of_midpoint_le hstep.le (by linarith), fun htie _ => ?_⟩
    by_contra hodd
    have hless := (h.strict (by omega)).2 k rfl
    rw [abs_of_nonpos (a := (f.scaled n).value - r) (by linarith)] at htie
    obtain ⟨hcase, -⟩ | ⟨hcase, -⟩ := abs_cases ((f.scaled (k + 1)).value - r) <;> linarith

end Format

/-! ## Doubles -/

namespace Binary64

variable {x y : Binary64}

/-- A fraction under a sign. -/
def signed (negative : Bool) (r : ℚ) : ℚ := if negative then -r else r

theorem abs_signed {negative : Bool} {r : ℚ} (h : 0 ≤ r) : |signed negative r| = r := by
  unfold signed
  split
  · rw [abs_neg, abs_of_nonneg h]
  · exact abs_of_nonneg h

theorem abs_signed_sub (negative : Bool) (r s : ℚ) : |signed negative r - signed negative s| = |r - s| := by
  unfold signed
  split
  · rw [neg_sub_neg, abs_sub_comm]
  · rfl

/-- The number a finite double stands for. -/
def value (x : Binary64) : ℚ := signed x.negative x.scaled.value

theorem abs_value (x : Binary64) : |x.value| = x.scaled.value := abs_signed (Format.value_nonneg _ _)

theorem magnitude_eq_of_value (h : x.value = y.value) : x.magnitude = y.magnitude := by
  have habs : x.scaled.value = y.scaled.value := by rw [← x.abs_value, ← y.abs_value, h]
  exact (Format.value_strictMono Format.binary64).injective habs

/-- Doubles stand for the same number if they differ in the sign of a zero at most. -/
theorem value_eq_iff : x.value = y.value ↔
    x.magnitude = y.magnitude ∧ (x.negative = y.negative ∨ x.magnitude = 0) := by
  constructor
  · intro h
    have hmagnitude := magnitude_eq_of_value h
    refine ⟨hmagnitude, or_iff_not_imp_right.2 fun hne => ?_⟩
    have hscaled : x.scaled = y.scaled := congrArg Format.binary64.scaled hmagnitude
    have hpos : x.scaled.value ≠ 0 := mt Format.value_eq_zero.1 hne
    unfold value signed at h
    rw [← hscaled] at h
    by_contra hsign
    cases hx : x.negative <;> cases hy : y.negative <;> simp only [hx, hy] at h hsign
    · exact hsign trivial
    · exact hpos (by simpa using self_eq_neg.1 h)
    · exact hpos (by simpa using neg_eq_self.1 h)
    · exact hsign trivial
  · rintro ⟨hmagnitude, hsign⟩
    have hscaled : x.scaled = y.scaled := congrArg Format.binary64.scaled hmagnitude
    unfold value signed
    rw [← hscaled]
    obtain hsign | hzero := hsign
    · rw [hsign]
    · have hnone : x.scaled.value = 0 := Format.value_eq_zero.2 hzero
      rw [hnone, neg_zero, ite_self, ite_self]

theorem value_ofRatio (negative : Bool) (num den : Nat) : (ofRatio negative num den).value =
    signed negative (Format.binary64.scaled (Format.binary64.round num den)).value := by
  rw [value, negative_ofRatio, scaled, magnitude_ofRatio]

/-- No finite double is nearer to a fraction than the one it is rounded to. If another is as near, the last bit of
the one that is taken is zero. -/
theorem nearest_ofRatio {negative : Bool} {num den : Nat} (hden : 0 < den)
    (hfinite : (ofRatio negative num den).isFinite = true) (z : Binary64) :
    |(ofRatio negative num den).value - signed negative ((num : ℚ) / den)| ≤
        |z.value - signed negative ((num : ℚ) / den)| ∧
      (|(ofRatio negative num den).value - signed negative ((num : ℚ) / den)| =
          |z.value - signed negative ((num : ℚ) / den)| →
        z.magnitude = (ofRatio negative num den).magnitude ∨ (ofRatio negative num den).magnitude % 2 = 0) := by
  have hround : Format.binary64.round num den < Format.binary64.infinity := by
    simpa [isFinite, magnitude_ofRatio] using hfinite
  obtain ⟨hnear, htie⟩ := (Format.midway_round (f := Format.binary64) (by decide) hden hround).nearest z.magnitude
  -- a number is no nearer under another sign
  have hsign : |z.scaled.value - (num : ℚ) / den| ≤ |z.value - signed negative ((num : ℚ) / den)| := by
    have hnonneg : (0 : ℚ) ≤ (num : ℚ) / den := div_nonneg (Nat.cast_nonneg _) (Nat.cast_nonneg _)
    have habs := abs_abs_sub_abs_le z.value (signed negative ((num : ℚ) / den))
    rwa [abs_value, abs_signed hnonneg] at habs
  rw [value_ofRatio, abs_signed_sub, magnitude_ofRatio]
  refine ⟨hnear.trans hsign, fun heq => or_iff_not_imp_left.2 fun hne => ?_⟩
  exact htie (le_antisymm hnear (heq ▸ hsign)) hne

end Binary64

end PacketProtocol
