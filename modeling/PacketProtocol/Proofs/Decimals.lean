import PacketProtocol.Proofs.Binary.Single
import PacketProtocol.Proofs.Delimiting
import PacketProtocol.Proofs.Mirroring
import PacketProtocol.Proofs.Payload
/-!
# Decimals that are sent on

A double goes as the decimal that is kept of it. It can go if its whole part is not too large, and it comes back the
same iff it is the nearest to some decimal of no more places than are kept.
-/

namespace PacketProtocol

open scoped Numerals

/-! ## Values -/

namespace Scaled

variable {x : Scaled} {n : Nat}

theorem floorAt_zero_lt : x.floorAt 0 < n ↔ x.value < n := by
  have hfloor : x.floorAt 0 = x.numerator / x.denominator := by
    rw [floorAt, numerator, denominator, Int.sub_zero, Int.zero_sub]
  have hpos : (0 : ℚ) < x.denominator := by exact_mod_cast x.denominator_pos
  rw [hfloor, Nat.div_lt_iff_lt_mul x.denominator_pos, ← x.numerator_div_denominator, div_lt_iff₀ hpos]
  exact_mod_cast Iff.rfl

/-- Below a whole number lies a unit of the last bit, if that is not more than one. -/
theorem value_add_unit_le (hscale : x.scale ≤ 0) (h : x.value < n) : x.value + 2 ^ x.scale ≤ n := by
  have hunit := two_zpow_pos x.scale
  have hwhole : (n : ℚ) = ((n * 2 ^ (-x.scale).toNat : Nat) : ℚ) * 2 ^ x.scale := by
    have hzero : (((-x.scale).toNat : Nat) : Int) + x.scale = 0 := by omega
    rw [Nat.cast_mul, mul_assoc, ← two_zpow_natCast_add, hzero, zpow_zero, mul_one]
  rw [hwhole] at h ⊢
  have hlt := (mul_lt_mul_iff_left₀ hunit).1 h
  have hle : (x.significand : ℚ) + 1 ≤ ((n * 2 ^ (-x.scale).toNat : Nat) : ℚ) := by exact_mod_cast hlt
  calc x.value + 2 ^ x.scale
    _ = ((x.significand : ℚ) + 1) * 2 ^ x.scale := by rw [value]; ring
    _ ≤ _ := mul_le_mul_of_nonneg_right hle hunit.le

end Scaled

theorem Decimal.whole_lt {d : Decimal} {n : Nat} : d.whole < n ↔ d.value < n := by
  have hpos : (0 : ℚ) < ((10 ^ d.places : Nat) : ℚ) := by exact_mod_cast ten_pow_pos _
  rw [whole, Nat.div_lt_iff_lt_mul (ten_pow_pos _), value, div_lt_iff₀ hpos]
  exact_mod_cast Iff.rfl

namespace Binary64

variable {x : Binary64}

/-- The nearest double depends on the number only. -/
theorem ofDecimal_congr {negative : Bool} {d d' : Decimal} (h : d.value = d'.value) :
    ofDecimal negative d = ofDecimal negative d' := by
  unfold ofDecimal ofRatio
  rw [Format.round_congr (ten_pow_pos _) (ten_pow_pos _) h]

theorem unscaled_pos {d : Decimal} (h : 0 < Format.binary64.round d.unscaled (10 ^ d.places)) : 0 < d.unscaled := by
  by_contra hzero
  have hnone : d.unscaled = 0 := by omega
  rw [hnone] at h
  exact absurd h (Nat.lt_irrefl 0)

/-- A decimal that is read as a double other than zero lies near it. -/
theorem near_of_ofDecimal {negative : Bool} {d : Decimal} (hpos : 0 < x.magnitude) (hfinite : x.isFinite = true)
    (h : ofDecimal negative d = x) : Format.binary64.Near x.magnitude d.value := by
  have hround : Format.binary64.round d.unscaled (10 ^ d.places) = x.magnitude := by
    rw [← h, ofDecimal, magnitude_ofRatio]
  have hlt := isFinite_iff.1 hfinite
  rw [← hround] at hpos hlt ⊢
  exact Format.near_round (by decide) (unscaled_pos hpos) (ten_pow_pos _) hpos hlt

variable (h : x.scaled.value < (ZigZag.bound : Nat))

include h

/-- Numbers of this size have no more than whole units. -/
theorem scale_le_zero : x.scaled.scale ≤ 0 := by
  by_contra hscale
  have hfull : 2 ^ 52 ≤ x.scaled.significand :=
    (Format.holds_scaled Format.binary64 x.magnitude).full.resolve_right (by
      change x.scaled.scale ≠ -1074
      omega)
  have hsig : ((ZigZag.bound : Nat) : ℚ) ≤ x.scaled.significand := by
    exact_mod_cast Nat.le_trans (by decide) hfull
  have hone : (1 : ℚ) ≤ 2 ^ x.scaled.scale := by
    have hle : (2 : ℚ) ^ (0 : Int) ≤ 2 ^ x.scaled.scale := two_zpow_le.2 (by omega)
    rwa [zpow_zero] at hle
  have hvalue : ((ZigZag.bound : Nat) : ℚ) ≤ x.scaled.value :=
    hsig.trans (le_mul_of_one_le_right (Nat.cast_nonneg _) hone)
  linarith

theorem isFinite_of_value_lt : x.isFinite = true := by
  have hscale := scale_le_zero h
  rw [isFinite, decide_eq_true_eq]
  by_contra hlarge
  have hinfinity : 2047 * 2 ^ 52 ≤ x.magnitude := Nat.le_of_not_lt hlarge
  have hne : x.magnitude / 2 ^ Format.binary64.fractionBits ≠ 0 := by
    change x.magnitude / 2 ^ 52 ≠ 0
    omega
  rw [scaled, Format.scaled_of_ne_zero hne] at hscale
  change -1074 + ((x.magnitude / 2 ^ 52 - 1 : Nat) : Int) ≤ 0 at hscale
  omega

/-- Rounding to decimals that read back stays below the bound. -/
theorem shortest_lt : x.shortest.value < (ZigZag.bound : Nat) := by
  obtain hzero | hpos := Nat.eq_zero_or_pos x.magnitude
  · rw [shortest_of_zero hzero, Decimal.value, Nat.cast_zero, zero_div]
    exact_mod_cast Nat.two_pow_pos 48
  · have hclose : x.shortest.value / 2 ^ x.scaled.scale ≤ x.scaled.significand + 1 / 2 :=
      ((Format.near_iff hpos).1 (shortest_spec hpos).1).high
    have hunit := two_zpow_pos x.scaled.scale
    rw [div_le_iff₀ hunit] at hclose
    calc x.shortest.value
      _ ≤ (x.scaled.significand + 1 / 2) * 2 ^ x.scaled.scale := hclose
      _ < x.scaled.value + 2 ^ x.scaled.scale := by rw [Scaled.value]; linarith
      _ ≤ (ZigZag.bound : Nat) := Scaled.value_add_unit_le (scale_le_zero h) h

omit h in
theorem fixed_spec (x : Binary64) (places : Nat) :
    RoundsTo (x.scaled.value * (10 ^ places : Nat)) (x.fixed places).unscaled := by
  have hrounds := @roundEven_spec (x.scaled.numerator * 10 ^ places) _ x.scaled.denominator_pos
  rwa [Nat.cast_mul, mul_div_right_comm, Scaled.numerator_div_denominator] at hrounds

/-- So does rounding to the places that are kept. -/
theorem fixed_lt : (x.fixed Fraction.maxPlaces).value < (ZigZag.bound : Nat) := by
  have hrounds := (fixed_spec x Fraction.maxPlaces).low
  have hunit := two_zpow_pos x.scaled.scale
  have hbound : ((ZigZag.bound : Nat) : ℚ) = 2 ^ 48 := by norm_num [ZigZag.bound]
  have hplaces : ((10 ^ Fraction.maxPlaces : Nat) : ℚ) = 10 ^ 14 := by norm_num [Fraction.maxPlaces]
  have hvalue : x.scaled.value * 10 ^ 14 + 1 / 2 < 2 ^ 48 * 10 ^ 14 := by
    by_cases hscale : -40 ≤ x.scaled.scale
    · -- a unit of the last bit is more than one of the last place
      have hle := Scaled.value_add_unit_le (scale_le_zero h) h
      have hlarge : (2 : ℚ) ^ (-40 : Int) ≤ 2 ^ x.scaled.scale := two_zpow_le.2 hscale
      rw [hbound] at hle
      norm_num at hlarge hle ⊢
      linarith
    · have hsig : (x.scaled.significand : ℚ) < ((2 ^ 53 : Nat) : ℚ) := by
        exact_mod_cast (Format.holds_scaled Format.binary64 x.magnitude).significand
      have hsmall : x.scaled.value < 2 ^ (13 : Int) := by
        calc x.scaled.value
          _ < ((2 ^ 53 : Nat) : ℚ) * 2 ^ x.scaled.scale := mul_lt_mul_of_pos_right hsig hunit
          _ = 2 ^ (((53 : Nat) : Int) + x.scaled.scale) := (two_zpow_natCast_add 53 _).symm
          _ ≤ 2 ^ (13 : Int) := two_zpow_le.2 (by push_cast; omega)
      norm_num at hsmall ⊢
      linarith
  have hpos : (0 : ℚ) < 10 ^ 14 := by norm_num
  have hfixed : (x.fixed Fraction.maxPlaces).places = Fraction.maxPlaces := rfl
  rw [Decimal.value, hfixed, hplaces, hbound, div_lt_iff₀ hpos]
  rw [hplaces] at hrounds
  linarith

end Binary64

namespace Fraction

variable {x : Binary64}

/-- The whole part of the number has a signed varint. -/
def Sendable (x : Binary64) : Prop := x.scaled.floorAt 0 < ZigZag.bound

theorem kept_places (x : Binary64) : (kept x).places ≤ maxPlaces := by
  unfold kept
  split
  · exact Decimal.places_trimFrom_le _ _
  · omega

theorem Sendable.kept_lt (h : Sendable x) : (kept x).value < (ZigZag.bound : Nat) := by
  have hvalue := Scaled.floorAt_zero_lt.1 h
  unfold kept
  split
  · rw [Decimal.trim, Decimal.value_trimFrom]
    exact Binary64.fixed_lt hvalue
  · exact Binary64.shortest_lt hvalue

/-- A number whose whole part can be sent can be sent. -/
theorem Sendable.exists_encode (h : Sendable x) : ∃ bytes, encode x = .ok bytes := by
  have hfinite := Binary64.isFinite_of_value_lt (Scaled.floorAt_zero_lt.1 h)
  have hwhole : (kept x).whole < ZigZag.bound := Decimal.whole_lt.2 h.kept_lt
  have hmirrored : (kept x).mirrored < ZigZag.bound := by
    refine Nat.lt_of_lt_of_le (kept x).mirrored_lt ?_
    exact Nat.le_trans (Nat.pow_le_pow_right (by decide) (kept_places x)) (by decide)
  have hsigned : ∀ n : Nat, n < ZigZag.bound →
      ∃ bytes, ZigZag.encode ((if x.isBelowZero then -1 else 1) * (n : Int)) = .ok bytes := by
    intro n hn
    refine ⟨_, ZigZag.encode_eq_ok.2 ⟨?_, rfl⟩⟩
    split <;> simpa using hn
  obtain ⟨whole, hwholeBytes⟩ := hsigned _ hwhole
  obtain ⟨fraction, hfraction⟩ := hsigned _ hmirrored
  refine ⟨whole ++ fraction, ?_⟩
  have hlarge : ¬ 2 ^ 63 ≤ (kept x).whole := Nat.not_le.2 (Nat.lt_trans hwhole (by decide))
  rw [encode, if_neg (by simp [hfinite])]
  dsimp only
  rw [if_neg hlarge]
  exact Outcome.bind_eq_ok.2 ⟨_, hwholeBytes, Outcome.bind_eq_ok.2 ⟨_, hfraction, rfl⟩⟩

/-! ## What arrives -/

/-- The nearest double to the decimal that is kept arrives. -/
theorem carried_eq (x : Binary64) :
    carried x = .ofDecimal (x.isBelowZero ∧ (kept x).unscaled ≠ 0) (kept x) := by
  have hsign : ((kept x).whole ≠ 0 ∨ (kept x).mirrored ≠ 0) ↔ (kept x).unscaled ≠ 0 := by
    rw [Ne, Ne, Ne, ← Decimal.parts_eq_zero, not_and_or]
  unfold carried
  dsimp only
  simp only [hsign]
  exact Binary64.ofDecimal_congr (kept x).value_ofMirrored

/-- A number comes back the same iff it is nearest to some decimal of no more places than are kept. -/
theorem carried_eq_self (h : Sendable x) (hsign : x.magnitude = 0 → x.negative = false) :
    carried x = x ↔ ∃ negative d, d.places ≤ maxPlaces ∧ x = .ofDecimal negative d := by
  have hfinite := Binary64.isFinite_of_value_lt (Scaled.floorAt_zero_lt.1 h)
  rw [carried_eq]
  constructor
  · intro hcarried
    exact ⟨_, kept x, kept_places x, hcarried.symm⟩
  · rintro ⟨negative, d, hplaces, hx⟩
    have hmagnitude : Format.binary64.round d.unscaled (10 ^ d.places) = x.magnitude := by
      rw [hx, Binary64.ofDecimal, Binary64.magnitude_ofRatio]
    have hnegative : x.negative = negative := by
      rw [hx, Binary64.ofDecimal, Binary64.negative_ofRatio]
    obtain hzero | hpos := Nat.eq_zero_or_pos x.magnitude
    · have hkept : kept x = ⟨0, 0⟩ := by rw [kept, Binary64.shortest_of_zero hzero]; rfl
      rw [hkept]
      conv_rhs => rw [hx, Binary64.ofDecimal, Binary64.ofRatio, hmagnitude, hzero, ← hnegative, hsign hzero]
      simp [Binary64.ofDecimal, Binary64.ofRatio, Format.round]
    · have hlt := Binary64.isFinite_iff.1 hfinite
      obtain ⟨hnear, hleast⟩ := Binary64.shortest_spec hpos
      -- the shortest decimal has no more places than `d`, so it is the one that is kept
      have hd := Binary64.near_of_ofDecimal hpos hfinite hx.symm
      have hle : x.shortest.places ≤ d.places := hleast d (Nat.le_trans hplaces (by decide)) hd
      have hkept : kept x = x.shortest := if_neg (Nat.not_lt.2 (Nat.le_trans hle hplaces))
      have hround : Format.binary64.round x.shortest.unscaled (10 ^ x.shortest.places) = x.magnitude :=
        Format.round_of_near hpos hlt (ten_pow_pos _) hnear
      have hunscaled := Binary64.unscaled_pos (hround.symm ▸ hpos)
      have hbelow : x.isBelowZero = x.negative := by
        simp [Binary64.isBelowZero, Binary64.isNaN_of_isFinite hfinite, Nat.ne_of_gt hpos]
      have hsigned : decide (x.isBelowZero = true ∧ x.shortest.unscaled ≠ 0) = negative := by
        simp [hbelow, hnegative, Nat.ne_of_gt hunscaled]
      rw [hkept, hsigned, Binary64.ofDecimal, Binary64.ofRatio, hround]
      conv_rhs => rw [hx, Binary64.ofDecimal, Binary64.ofRatio, hmagnitude]

/-- A decimal of fifteen places is far from the least double. -/
theorem round_ne_zero {d : Decimal} (hpos : 0 < d.unscaled) (hplaces : d.places ≤ 15) :
    Format.binary64.round d.unscaled (10 ^ d.places) ≠ 0 := by
  have hten : ((10 ^ d.places : Nat) : ℚ) ≤ 10 ^ 15 := by
    exact_mod_cast Nat.pow_le_pow_right (by decide) hplaces
  have hone : (1 : ℚ) ≤ d.unscaled := by exact_mod_cast hpos
  have hleast : (2 : ℚ) ^ (Format.minScale Format.binary64) ≤ 2 ^ (-50 : Int) := two_zpow_le.2 (by decide)
  refine Nat.ne_of_gt (Format.round_pos (by decide) (ten_pow_pos _) ?_)
  rw [le_div_iff₀ (by exact_mod_cast ten_pow_pos _)]
  calc (2 : ℚ) ^ (Format.minScale Format.binary64) * ((10 ^ d.places : Nat) : ℚ)
    _ ≤ 2 ^ (-50 : Int) * 10 ^ 15 := mul_le_mul hleast hten (Nat.cast_nonneg _) (two_zpow_pos _).le
    _ ≤ 1 := by norm_num
    _ ≤ d.unscaled := hone

/-- No number is read as a zero with a sign. -/
theorem parser_delimits : parser.Delimits fun x => x.magnitude = 0 → x.negative = false := by
  refine Parser.signedVarint_delimits.bind fun whole _ => ?_
  refine Parser.signedVarint_delimits.bind fun fraction hfraction => .pure fun hzero => ?_
  rw [Binary64.ofDecimal, Binary64.magnitude_ofRatio] at hzero
  rw [Binary64.ofDecimal, Binary64.negative_ofRatio, decide_eq_false_iff_not]
  intro hsign
  refine round_ne_zero ?_ ?_ hzero
  · rw [Nat.pos_iff_ne_zero, Ne, Decimal.ofMirrored_eq_zero]
    omega
  · refine Decimal.length_digitsUp_le ?_
    simp only [ZigZag.lowest, ZigZag.bound] at hfraction
    omega

end Fraction

end PacketProtocol
