import PacketProtocol.Proofs.Binary.Nearest
import PacketProtocol.Proofs.Decimals
/-!
# Digits survive

What is sent of a finite double is its shortest decimal, or if that has too many places the nearest that has not. What
is read is the nearest double to it, under the sign of the one that was sent. The decimal is cut from the exact value,
but no decimal of so few places, nor a midpoint of two, lies between the exact value and the shortest decimal: cutting
either gives the same, or they are as near to two.
-/

namespace PacketProtocol

open scoped Numerals

/-! ## Nearest decimals -/

namespace Decimal

/-- A nearest decimal of at most `places` places to a number, without zeros at its end. -/
structure Rounds (d : Decimal) (places : Nat) (r : ℚ) : Prop where
  places_le : d.places ≤ places
  stripped : 0 < d.places → d.unscaled % 10 ≠ 0
  nearest : ∀ c : Decimal, c.places ≤ places → |d.value - r| ≤ |c.value - r|

theorem trimFrom_stripped {unscaled places : Nat} (h : 0 < (trimFrom unscaled places).places) :
    (trimFrom unscaled places).unscaled % 10 ≠ 0 := by
  induction places generalizing unscaled with
  | zero => exact absurd h (Nat.lt_irrefl 0)
  | succ places ih =>
    rw [trimFrom] at h ⊢
    split at h
    · rename_i hzero
      rw [if_pos hzero]
      exact ih h
    · rename_i hdigit
      rw [if_neg hdigit]
      exact hdigit

/-- A decimal of fewer places is one of more. -/
theorem value_eq_of_places_le {d : Decimal} {places : Nat} (h : d.places ≤ places) :
    ∃ k : Nat, d.value = (k : ℚ) / (10 ^ places : Nat) := by
  have hscale := value_scale d.unscaled d.places (places - d.places)
  rw [Nat.add_sub_cancel' h] at hscale
  exact ⟨_, hscale.symm⟩

/-- A whole number at most a half away is a nearest one. -/
theorem abs_sub_le_of_le_half {k m : Nat} {t : ℚ} (h : |(k : ℚ) - t| ≤ 1 / 2) : |(k : ℚ) - t| ≤ |(m : ℚ) - t| := by
  obtain rfl | hne := eq_or_ne k m
  · exact le_refl _
  · have hone : (1 : ℚ) ≤ |(m : ℚ) - k| := by
      have hint : (1 : Int) ≤ |(m : Int) - k| := Int.one_le_abs (by omega)
      exact_mod_cast hint
    have htriangle := abs_sub_abs_le_abs_sub ((m : ℚ) - k) (t - k)
    rw [sub_sub_sub_cancel_right, abs_sub_comm t] at htriangle
    linarith

/-- A decimal at most half a unit of the last place away is a nearest one. -/
theorem abs_value_sub_le {c d : Decimal} {places k : Nat} {r : ℚ} (hd : d.value = (k : ℚ) / (10 ^ places : Nat))
    (hhalf : |(k : ℚ) - r * (10 ^ places : Nat)| ≤ 1 / 2) (hc : c.places ≤ places) :
    |d.value - r| ≤ |c.value - r| := by
  have hpos : (0 : ℚ) < ((10 ^ places : Nat) : ℚ) := by exact_mod_cast ten_pow_pos places
  obtain ⟨m, hm⟩ := value_eq_of_places_le hc
  have hscale : ∀ n : Nat, |(n : ℚ) / (10 ^ places : Nat) - r| * (10 ^ places : Nat) =
      |(n : ℚ) - r * (10 ^ places : Nat)| := by
    intro n
    conv_lhs => rw [← abs_of_pos hpos, ← abs_mul, sub_mul]
    rw [abs_of_pos hpos, div_mul_cancel₀ _ (ne_of_gt hpos)]
  rw [hd, hm, ← mul_le_mul_iff_of_pos_right hpos, hscale, hscale]
  exact abs_sub_le_of_le_half hhalf

end Decimal

/-! ## Shortest decimals -/

namespace Binary64

variable {x : Binary64} {negative : Bool} {d : Decimal}

/-- The shortest decimal of a double: it is read as the double, none of fewer places is, and of those of as many
places that are, if there are any places, none is nearer to the double. -/
structure IsShortest (x : Binary64) (d : Decimal) : Prop where
  reads : ofDecimal x.negative d = x
  least : ∀ c : Decimal, ofDecimal x.negative c = x → d.places ≤ c.places
  nearest : ∀ c : Decimal, 0 < d.places → c.places = d.places → ofDecimal x.negative c = x →
    |d.value - x.scaled.value| ≤ |c.value - x.scaled.value|

theorem isShortest_shortest (hfinite : x.isFinite = true) : x.IsShortest x.shortest := by
  obtain hzero | hpos := Nat.eq_zero_or_pos x.magnitude
  · rw [shortest_of_zero hzero]
    refine ⟨?_, fun _ _ => Nat.zero_le _, fun _ hplaces => absurd hplaces (Nat.lt_irrefl 0)⟩
    conv_rhs => rw [← x.ofParts_parts, hzero]
    rfl
  · obtain ⟨hnear, hleast⟩ := shortest_spec hpos
    refine ⟨?_, fun c hc => ?_, fun c hplaces hcplaces hc => ?_⟩
    · have hround := Format.round_of_near hpos (isFinite_iff.1 hfinite) (ten_pow_pos _) hnear
      rw [ofDecimal, ofRatio, hround, x.ofParts_parts]
    · obtain hle | hgt := Nat.le_total c.places 1076
      · exact hleast c hle (near_of_ofDecimal hpos hfinite hc)
      · exact Nat.le_trans (shortest_places_le hpos) hgt
    · exact shortest_nearest hpos hplaces hcplaces (near_of_ofDecimal hpos hfinite hc)

/-- A decimal of no more places is on the same side of the double and of its shortest decimal. -/
theorem shortest_side (hpos : 0 < x.magnitude) (hplaces : 0 < x.shortest.places) (h : d.places ≤ x.shortest.places) :
    (d.value ≤ x.scaled.value → d.value ≤ x.shortest.value) ∧
      (x.scaled.value ≤ d.value → x.shortest.value ≤ d.value) := by
  obtain ⟨hshortest, hleast⟩ := shortest_spec hpos
  have hself : Format.binary64.Near x.magnitude x.scaled.value := Format.near_scaled hpos
  -- between the two it would be read as the double, and be nearer than the shortest
  have hnearest : Format.binary64.Near x.magnitude d.value →
      |x.shortest.value - x.scaled.value| ≤ |d.value - x.scaled.value| := by
    intro hnear
    have hle := hleast d (Nat.le_trans h (shortest_places_le hpos)) hnear
    exact shortest_nearest hpos hplaces (Nat.le_antisymm h hle) hnear
  constructor
  · intro hdown
    by_contra hbetween
    have hlt := lt_of_not_ge hbetween
    have hle := hnearest (hshortest.between hself hlt.le hdown)
    rw [abs_of_nonpos (by linarith), abs_of_nonpos (by linarith)] at hle
    linarith
  · intro hup
    by_contra hbetween
    have hlt := lt_of_not_ge hbetween
    have hle := hnearest (hself.between hshortest hup hlt.le)
    rw [abs_of_nonneg (by linarith), abs_of_nonneg (by linarith)] at hle
    linarith

/-- The shortest decimal is rounded to fewer places as the double is. -/
theorem shortest_rounds {places k : Nat} (hpos : 0 < x.magnitude) (hplaces : places < x.shortest.places)
    (h : RoundsTo (x.scaled.value * (10 ^ places : Nat)) k) :
    |(k : ℚ) - x.shortest.value * (10 ^ places : Nat)| ≤ 1 / 2 := by
  have hten : (0 : ℚ) < ((10 ^ places : Nat) : ℚ) := by exact_mod_cast ten_pow_pos places
  have hside := fun c : Decimal => shortest_side (d := c) hpos (Nat.zero_lt_of_lt hplaces)
  have hmidpoint : ∀ n : Nat, Decimal.value ⟨10 * n + 5, places + 1⟩ = (n + 1 / 2) / (10 ^ places : Nat) := by
    intro n
    rw [Decimal.value, Nat.pow_succ]
    push_cast
    field_simp
    ring
  have hhigh : x.shortest.value * (10 ^ places : Nat) ≤ k + 1 / 2 := by
    have habove := (hside ⟨10 * k + 5, places + 1⟩ hplaces).2
    rw [hmidpoint, le_div_iff₀ hten, le_div_iff₀ hten] at habove
    exact habove h.high
  have hlow : (k : ℚ) - 1 / 2 ≤ x.shortest.value * (10 ^ places : Nat) := by
    cases k with
    | zero =>
      have hnonneg : 0 ≤ x.shortest.value * (10 ^ places : Nat) :=
        mul_nonneg (div_nonneg (Nat.cast_nonneg _) (Nat.cast_nonneg _)) hten.le
      rw [Nat.cast_zero]
      linarith
    | succ n =>
      have hbelow := (hside ⟨10 * n + 5, places + 1⟩ hplaces).1
      rw [hmidpoint, div_le_iff₀ hten, div_le_iff₀ hten] at hbelow
      have hle := h.low
      rw [Nat.cast_succ] at hle ⊢
      have hhalf := hbelow (by linarith)
      linarith
  rw [abs_le]
  constructor <;> linarith

/-! ## Nearest doubles -/

/-- A finite double nearest to a number; if another is as near, the one whose last bit is zero. -/
structure IsNearest (y : Binary64) (r : ℚ) : Prop where
  finite : y.isFinite = true
  le : ∀ z : Binary64, z.isFinite = true → |y.value - r| ≤ |z.value - r|
  even : ∀ z : Binary64, z.isFinite = true → |y.value - r| = |z.value - r| →
    z.magnitude = y.magnitude ∨ y.magnitude % 2 = 0

/-- What is far below the largest double is not rounded to infinity. -/
theorem round_lt_infinity {num den : Nat} (hden : 0 < den) (h : (num : ℚ) / den < 2 ^ (1000 : Int)) :
    Format.binary64.round num den < Format.binary64.infinity := by
  obtain rfl | hnum := Nat.eq_zero_or_pos num
  · rw [Format.round, if_pos rfl]
    decide
  · obtain ⟨exponent, significand, hlow, hhigh, hrounds, hround⟩ := Format.binary64.round_spec hnum hden
    have hexponent : exponent < 1000 := two_zpow_lt.1 (hlow.trans_lt h)
    have hsig : significand ≤ 2 ^ 53 := Format.significand_le hhigh hrounds
    have hkept : Format.binary64.keptScale exponent - Format.binary64.minScale ≤ 2022 := by
      change max (exponent - 52) (-1074) - -1074 ≤ 2022
      omega
    have hplace : Format.binary64.place ⟨significand, Format.binary64.keptScale exponent⟩ <
        Format.binary64.infinity := by
      change (Format.binary64.keptScale exponent - Format.binary64.minScale).toNat * 2 ^ 52 + significand <
        2047 * 2 ^ 52
      omega
    rw [hround]
    exact Nat.lt_of_le_of_lt (Nat.min_le_left _ _) hplace

theorem isFinite_ofDecimal (h : d.value < (ZigZag.bound : Nat)) : (ofDecimal negative d).isFinite = true := by
  rw [isFinite, ofDecimal, magnitude_ofRatio, decide_eq_true_eq]
  refine round_lt_infinity (ten_pow_pos _) (lt_trans h ?_)
  calc ((ZigZag.bound : Nat) : ℚ)
    _ = 2 ^ (48 : Int) := by norm_num [ZigZag.bound]
    _ < 2 ^ (1000 : Int) := two_zpow_lt.2 (by decide)

theorem isNearest_ofDecimal (h : d.value < (ZigZag.bound : Nat)) :
    (ofDecimal negative d).IsNearest (signed negative d.value) :=
  have hfinite := isFinite_ofDecimal h
  ⟨hfinite, fun z _ => (nearest_ofRatio (ten_pow_pos _) hfinite z).1,
    fun z _ => (nearest_ofRatio (ten_pow_pos _) hfinite z).2⟩

end Binary64

/-! ## What is sent and read -/

namespace Fraction

variable {x : Binary64} {bytes : Bytes}

theorem encode_isFinite (h : encode x = .ok bytes) : x.isFinite = true := by
  by_contra hinfinite
  rw [encode, if_pos (by simp [hinfinite])] at h
  cases h

/-- The whole part that was sent has a signed varint. -/
theorem encode_value_lt (h : encode x = .ok bytes) : (kept x).value < (ZigZag.bound : Nat) := by
  obtain ⟨whole, -, hwhole, -, -⟩ := encode_eq_ok h
  have hlt := (ZigZag.encode_eq_ok.1 hwhole).1
  rw [Int.natAbs_mul, Int.natAbs_natCast] at hlt
  refine Decimal.whole_lt.1 ?_
  split at hlt <;> simpa using hlt

/-- Of a decimal with too many places the nearest that has not is kept, as near to the shortest as to the double. -/
theorem kept_rounds (h : maxPlaces < x.shortest.places) : (kept x).Rounds maxPlaces x.shortest.value ∧
    ∃ k : Nat, RoundsTo (x.scaled.value * (10 ^ maxPlaces : Nat)) k ∧
      (kept x).value = (k : ℚ) / (10 ^ maxPlaces : Nat) := by
  have hpos : 0 < x.magnitude := by
    by_contra hzero
    rw [Binary64.shortest_of_zero (by omega)] at h
    cases h
  have hkept : kept x = (x.fixed maxPlaces).trim := if_pos h
  have hrounds := x.fixed_spec maxPlaces
  have hvalue : (kept x).value = ((x.fixed maxPlaces).unscaled : ℚ) / (10 ^ maxPlaces : Nat) := by
    rw [hkept, Decimal.trim, Decimal.value_trimFrom]
    rfl
  refine ⟨⟨kept_places x, ?_, fun c hc => ?_⟩, _, hrounds, hvalue⟩
  · rw [hkept]
    exact Decimal.trimFrom_stripped
  · exact Decimal.abs_value_sub_le hvalue (Binary64.shortest_rounds hpos h hrounds) hc

/-- A zero arrives without a sign. -/
theorem carried_of_eq_zero (h : (kept x).unscaled = 0) : carried x = ⟨0⟩ := by
  rw [carried_eq, Binary64.ofDecimal, Binary64.ofRatio, h]
  simp [Format.round, Binary64.ofParts]

/-- What is sent of a zero is one. -/
theorem magnitude_ne_zero (h : (kept x).unscaled ≠ 0) : x.magnitude ≠ 0 := by
  intro hzero
  rw [kept, Binary64.shortest_of_zero hzero] at h
  exact h rfl

/-- Any other number arrives under the sign of the double. -/
theorem carried_of_ne_zero (hfinite : x.isFinite = true) (h : (kept x).unscaled ≠ 0) :
    carried x = .ofDecimal x.negative (kept x) := by
  have hnan := Binary64.isNaN_of_isFinite hfinite
  have hbelow : x.isBelowZero = x.negative := by simp [Binary64.isBelowZero, hnan, magnitude_ne_zero h]
  simp [carried_eq, hbelow, h]

theorem carried_isNearest (hfinite : x.isFinite = true) (h : (kept x).value < (ZigZag.bound : Nat)) :
    (carried x).IsNearest (Binary64.signed x.negative (kept x).value) := by
  by_cases hzero : (kept x).unscaled = 0
  · have hvalue : Binary64.signed x.negative (kept x).value = Binary64.value ⟨0⟩ := by
      rw [Decimal.value, hzero, Nat.cast_zero, zero_div, Binary64.signed, neg_zero, ite_self]
      exact (Format.value_zero Format.binary64).symm
    rw [carried_of_eq_zero hzero, hvalue]
    refine ⟨by decide, fun z _ => ?_, fun _ _ _ => .inr rfl⟩
    rw [sub_self, abs_zero]
    exact abs_nonneg _
  · rw [carried_of_ne_zero hfinite hzero]
    exact Binary64.isNearest_ofDecimal h

/-- A double whose shortest decimal is kept comes back. -/
theorem carried_equal (hfinite : x.isFinite = true) (h : kept x = x.shortest) : (carried x).equal x = true := by
  have hnan := Binary64.isNaN_of_isFinite hfinite
  have hreads := (Binary64.isShortest_shortest hfinite).reads
  by_cases hzero : (kept x).unscaled = 0
  · have hmagnitude : x.magnitude = 0 := by
      rw [← hreads, Binary64.ofDecimal, Binary64.magnitude_ofRatio, ← h, hzero]
      rfl
    have hnone : Binary64.magnitude ⟨0⟩ = 0 := by decide
    have hnumber : Binary64.isNaN ⟨0⟩ = false := by decide
    rw [carried_of_eq_zero hzero]
    simp [Binary64.equal, hnan, hmagnitude, hnone, hnumber]
  · rw [carried_of_ne_zero hfinite hzero, h, hreads]
    simp [Binary64.equal, hnan]

/-- The octets of a finite double are read, and no others, as the double nearest to its shortest decimal under its
sign, or to what that is rounded to if it has more places than are kept. A zero is read without a sign, and a double
whose shortest decimal has no more places comes back. -/
theorem encode_reads_nearest (h : encode x = .ok bytes) : ∃ (d : Decimal) (y : Binary64),
    x.IsShortest x.shortest ∧
    (x.shortest.places ≤ maxPlaces → d = x.shortest) ∧
    (maxPlaces < x.shortest.places → d.Rounds maxPlaces x.shortest.value ∧
      ∃ k : Nat, RoundsTo (x.scaled.value * (10 ^ maxPlaces : Nat)) k ∧ d.value = (k : ℚ) / (10 ^ maxPlaces : Nat)) ∧
    parser.Reads bytes y ∧
    y.IsNearest (Binary64.signed x.negative d.value) ∧
    (d.unscaled = 0 → y = ⟨0⟩) ∧ (d.unscaled ≠ 0 → y.negative = x.negative) ∧
    (x.shortest.places ≤ maxPlaces → y.equal x = true) := by
  have hfinite := encode_isFinite h
  have hkept : x.shortest.places ≤ maxPlaces → kept x = x.shortest := fun hle => if_neg (Nat.not_lt.2 hle)
  refine ⟨kept x, carried x, Binary64.isShortest_shortest hfinite, hkept, kept_rounds, parser_reads h,
    carried_isNearest hfinite (encode_value_lt h), carried_of_eq_zero, fun hne => ?_,
    fun hle => carried_equal hfinite (hkept hle)⟩
  rw [carried_of_ne_zero hfinite hne, Binary64.ofDecimal, Binary64.negative_ofRatio]

/-- `-0.30000000000000004`, with three places more than are kept. -/
def surplus : Binary64 := ⟨0xbfd3333333333334⟩

/-- Its fraction goes as `-3`, and the double nearest to what is kept of it is read. -/
theorem encode_reads_nearest_surplus : encode surplus = .ok [0, 5] ∧ surplus.shortest = ⟨30000000000000004, 17⟩ ∧
    parser [0, 5] = .ok (⟨0xbfd3333333333333⟩, []) ∧
    ∃ d : Decimal, d.Rounds maxPlaces surplus.shortest.value ∧
      Binary64.IsNearest ⟨0xbfd3333333333333⟩ (Binary64.signed true d.value) := by
  have hencode : encode surplus = .ok [0, 5] := by cbv
  have hshortest : surplus.shortest = ⟨30000000000000004, 17⟩ := by cbv
  have hparser : parser [0, 5] = .ok (⟨0xbfd3333333333333⟩, []) := by cbv
  obtain ⟨d, y, -, -, hrounds, hreads, hnearest, -⟩ := encode_reads_nearest hencode
  obtain rfl : y = ⟨0xbfd3333333333333⟩ := by
    have hread := (hreads []).symm.trans hparser
    simpa using hread
  exact ⟨hencode, hshortest, hparser, d, (hrounds (by rw [hshortest]; decide)).1, hnearest⟩

end Fraction

end PacketProtocol
