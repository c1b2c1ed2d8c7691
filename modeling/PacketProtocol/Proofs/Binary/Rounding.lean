import Mathlib.Algebra.Order.Field.Power
import Mathlib.Data.Rat.Cast.Order
import Mathlib.Tactic.FieldSimp
import Mathlib.Tactic.Linarith
import Mathlib.Tactic.NormNum
import Mathlib.Tactic.Positivity
import Mathlib.Tactic.Ring
import PacketProtocol.Binary.Shortest
/-!
# Rounding to a format

Which fractions a format rounds to which magnitude. Around every finite magnitude lies an interval of numbers that
round to it, and no others do, so rounding can be undone wherever one number of the interval is known.
-/

namespace PacketProtocol

open scoped Numerals

/-! ## Powers -/

/-- A power of an integer exponent as a fraction of two natural ones. -/
theorem zpow_eq_div {base : ℚ} (h : base ≠ 0) (n : Int) : base ^ n = base ^ n.toNat / base ^ (-n).toNat := by
  rw [eq_div_iff (pow_ne_zero _ h), ← zpow_natCast, ← zpow_natCast, ← zpow_add₀ h]
  congr 1
  omega

theorem two_zpow_pos (n : Int) : (0 : ℚ) < 2 ^ n := zpow_pos (by norm_num) n

theorem two_zpow_succ (n : Int) : (2 : ℚ) ^ (n + 1) = 2 * 2 ^ n := by
  rw [zpow_add_one₀ (by norm_num), mul_comm]

/-- A power in quarters of it. -/
theorem two_zpow_eq_quarters (n : Int) : (2 : ℚ) ^ n = 4 * 2 ^ (n - 2) := by
  rw [zpow_sub₀ (by norm_num)]
  norm_num
  ring

/-- Exponents are ordered as their powers. -/
theorem two_zpow_lt {m n : Int} : (2 : ℚ) ^ m < 2 ^ n ↔ m < n := zpow_lt_zpow_iff_right₀ (by norm_num)

theorem two_zpow_le {m n : Int} : (2 : ℚ) ^ m ≤ 2 ^ n ↔ m ≤ n := zpow_le_zpow_iff_right₀ (by norm_num)

theorem two_zpow_natCast_add (k : Nat) (n : Int) : (2 : ℚ) ^ ((k : Int) + n) = ((2 ^ k : Nat) : ℚ) * 2 ^ n := by
  rw [zpow_add₀ (by norm_num), zpow_natCast, Nat.cast_pow, Nat.cast_ofNat]

/-- A fraction in units of a power of two. -/
theorem div_two_zpow (num den : Nat) (n : Int) :
    ((num * 2 ^ (-n).toNat : Nat) : ℚ) / ((den * 2 ^ n.toNat : Nat) : ℚ) = (num : ℚ) / den / 2 ^ n := by
  rw [zpow_eq_div (by norm_num : (2 : ℚ) ≠ 0), Nat.cast_mul, Nat.cast_mul, Nat.cast_pow, Nat.cast_pow, Nat.cast_ofNat,
    div_div_div_eq]

/-! ## Whole numbers -/

/-- The numbers that round to a whole one, halves to the even. -/
structure RoundsTo (r : ℚ) (q : Nat) : Prop where
  low : (q : ℚ) - 1 / 2 ≤ r
  high : r ≤ q + 1 / 2
  strict : q % 2 = 1 → (q : ℚ) - 1 / 2 < r ∧ r < q + 1 / 2

theorem RoundsTo.unique {r : ℚ} {p q : Nat} (hp : RoundsTo r p) (hq : RoundsTo r q) : p = q := by
  have hle : ∀ {p q : Nat}, RoundsTo r p → RoundsTo r q → ¬ p < q := by
    intro p q hp hq hlt
    have hcast : (p : ℚ) + 1 ≤ q := by exact_mod_cast hlt
    have hhigh := hp.high
    have hlow := hq.low
    -- both would be a half away, and one of two neighbours is odd
    have heq : (q : ℚ) = p + 1 := by linarith
    have hnext : q = p + 1 := by exact_mod_cast heq
    obtain hodd | hodd : p % 2 = 1 ∨ q % 2 = 1 := by omega
    · have := (hp.strict hodd).2
      linarith
    · have := (hq.strict hodd).1
      linarith
  exact Nat.le_antisymm (Nat.le_of_not_lt (hle hq hp)) (Nat.le_of_not_lt (hle hp hq))

theorem RoundsTo.of_whole {r : ℚ} {q : Nat} (h : r = q) : RoundsTo r q := by
  subst h
  refine ⟨?_, ?_, fun _ => ⟨?_, ?_⟩⟩ <;> linarith

theorem roundEven_spec {num den : Nat} (hden : 0 < den) : RoundsTo ((num : ℚ) / den) (roundEven num den) := by
  have hpos : (0 : ℚ) < den := by exact_mod_cast hden
  have hdiv : (num : ℚ) = den * (num / den : Nat) + (num % den : Nat) := by
    exact_mod_cast (Nat.div_add_mod num den).symm
  have hrest : ((num % den : Nat) : ℚ) < den := by exact_mod_cast Nat.mod_lt num hden
  have hnonneg : (0 : ℚ) ≤ (num % den : Nat) := Nat.cast_nonneg _
  unfold roundEven
  dsimp only
  generalize num / den = quotient at hdiv ⊢
  generalize num % den = rest at hdiv hrest hnonneg ⊢
  split
  · rename_i hup
    -- what is left over is at least a half
    have hhalf : (den : ℚ) ≤ 2 * rest := by
      obtain hlt | ⟨heq, -⟩ := hup
      · exact_mod_cast hlt.le
      · exact_mod_cast heq.ge
    have hsum : ((quotient + 1 : Nat) : ℚ) = quotient + 1 := by push_cast; ring
    refine ⟨?_, ?_, fun hodd => ⟨?_, ?_⟩⟩
    · rw [hsum, le_div_iff₀ hpos]; linarith
    · rw [hsum, div_le_iff₀ hpos]; linarith
    · have hmore : (den : ℚ) < 2 * rest := by
        obtain hlt | ⟨-, hone⟩ := hup
        · exact_mod_cast hlt
        · omega
      rw [hsum, lt_div_iff₀ hpos]; linarith
    · rw [hsum, div_lt_iff₀ hpos]; linarith
  · rename_i hdown
    have hhalf : 2 * (rest : ℚ) ≤ den := by exact_mod_cast Nat.le_of_not_lt fun hlt => hdown (.inl hlt)
    refine ⟨?_, ?_, fun hodd => ⟨?_, ?_⟩⟩
    · rw [le_div_iff₀ hpos]; linarith
    · rw [div_le_iff₀ hpos]; linarith
    · rw [lt_div_iff₀ hpos]; linarith
    · have hless : 2 * (rest : ℚ) < den := by
        refine lt_of_le_of_ne hhalf fun heq => hdown (.inr ⟨?_, hodd⟩)
        exact_mod_cast heq
      rw [div_lt_iff₀ hpos]; linarith

/-! ## Exponents -/

theorem lt_two_pow_iff {num den : Nat} (hden : 0 < den) (n : Int) :
    num * 2 ^ (-n).toNat < den * 2 ^ n.toNat ↔ (num : ℚ) / den < 2 ^ n := by
  have hpos : (0 : ℚ) < ((den * 2 ^ n.toNat : Nat) : ℚ) := by
    exact_mod_cast Nat.mul_pos hden (Nat.two_pow_pos _)
  rw [← div_lt_one (two_zpow_pos n), ← div_two_zpow, div_lt_one hpos]
  exact_mod_cast Iff.rfl

theorem two_pow_log2_le {n : Nat} (h : 0 < n) : (2 : ℚ) ^ (n.log2 : Int) ≤ n := by
  rw [zpow_natCast]
  exact_mod_cast Nat.log2_self_le (Nat.ne_of_gt h)

theorem lt_two_pow_log2 (n : Nat) : (n : ℚ) < 2 ^ ((n.log2 : Int) + 1) := by
  have hlt : (n : ℚ) < ((2 ^ (n.log2 + 1) : Nat) : ℚ) := by exact_mod_cast Nat.lt_log2_self
  rwa [Nat.cast_pow, Nat.cast_ofNat, ← zpow_natCast, Nat.cast_succ] at hlt

theorem floorLog2_spec {num den : Nat} (hnum : 0 < num) (hden : 0 < den) :
    (2 : ℚ) ^ floorLog2 num den ≤ (num : ℚ) / den ∧ (num : ℚ) / den < 2 ^ (floorLog2 num den + 1) := by
  have hpos : (0 : ℚ) < den := by exact_mod_cast hden
  have hlow : (2 : ℚ) ^ ((num.log2 : Int) - den.log2 - 1) ≤ (num : ℚ) / den := by
    rw [le_div_iff₀ hpos]
    calc (2 : ℚ) ^ ((num.log2 : Int) - den.log2 - 1) * den
      _ ≤ 2 ^ ((num.log2 : Int) - den.log2 - 1) * 2 ^ ((den.log2 : Int) + 1) :=
        mul_le_mul_of_nonneg_left (lt_two_pow_log2 den).le (two_zpow_pos _).le
      _ = 2 ^ (num.log2 : Int) := by rw [← zpow_add₀ (by norm_num)]; congr 1; ring
      _ ≤ num := two_pow_log2_le hnum
  have hhigh : (num : ℚ) / den < 2 ^ ((num.log2 : Int) - den.log2 + 1) := by
    rw [div_lt_iff₀ hpos]
    calc (num : ℚ)
      _ < 2 ^ ((num.log2 : Int) + 1) := lt_two_pow_log2 num
      _ = 2 ^ ((num.log2 : Int) - den.log2 + 1) * 2 ^ (den.log2 : Int) := by
        rw [← zpow_add₀ (by norm_num)]; congr 1; ring
      _ ≤ 2 ^ ((num.log2 : Int) - den.log2 + 1) * den :=
        mul_le_mul_of_nonneg_left (two_pow_log2_le hden) (two_zpow_pos _).le
  unfold floorLog2
  dsimp only
  split
  · rename_i hless
    rw [sub_add_cancel]
    exact ⟨hlow, (lt_two_pow_iff hden _).1 hless⟩
  · rename_i hmore
    exact ⟨le_of_not_gt fun hless => hmore ((lt_two_pow_iff hden _).2 hless), hhigh⟩

/-- A number lies between two neighbouring powers only. -/
theorem exponent_unique {r : ℚ} {m n : Int} (hm : (2 : ℚ) ^ m ≤ r ∧ r < 2 ^ (m + 1))
    (hn : (2 : ℚ) ^ n ≤ r ∧ r < 2 ^ (n + 1)) : m = n := by
  have hmn := two_zpow_lt.1 (hm.1.trans_lt hn.2)
  have hnm := two_zpow_lt.1 (hn.1.trans_lt hm.2)
  omega

/-! ## Numbers of a format -/

namespace Scaled

/-- The number itself. -/
def value (x : Scaled) : ℚ := x.significand * 2 ^ x.scale

theorem numerator_div_denominator (x : Scaled) : (x.numerator : ℚ) / x.denominator = x.value := by
  rw [numerator, denominator, value, zpow_eq_div (by norm_num : (2 : ℚ) ≠ 0), Nat.cast_mul, Nat.cast_pow, Nat.cast_pow,
    Nat.cast_ofNat, mul_div_assoc]

theorem denominator_pos (x : Scaled) : 0 < x.denominator := Nat.two_pow_pos _

end Scaled

/-- The numbers of an interval, which is given in a power of two. -/
def Shortest.Interval.Has (i : Shortest.Interval) (unit : Int) (r : ℚ) : Prop :=
  (i.low : ℚ) * 2 ^ unit ≤ r ∧ r ≤ i.high * 2 ^ unit ∧
    (i.closed = false → (i.low : ℚ) * 2 ^ unit < r ∧ r < i.high * 2 ^ unit)

namespace Format

/-- A significand and scale as the format has them: the significand fills its bits, unless the scale is the least. -/
structure Holds (f : Format) (x : Scaled) : Prop where
  scale : f.minScale ≤ x.scale
  significand : x.significand < 2 ^ (f.fractionBits + 1)
  full : 2 ^ f.fractionBits ≤ x.significand ∨ x.scale = f.minScale

/-- The magnitude that stands for a number. -/
def place (f : Format) (x : Scaled) : Nat := (x.scale - f.minScale).toNat * 2 ^ f.fractionBits + x.significand

variable {f : Format} {m : Nat} {x : Scaled}

theorem scaled_of_zero (h : m / 2 ^ f.fractionBits = 0) : f.scaled m = ⟨m, f.minScale⟩ := if_pos h

theorem scaled_of_ne_zero (h : m / 2 ^ f.fractionBits ≠ 0) :
    f.scaled m = ⟨m % 2 ^ f.fractionBits + 2 ^ f.fractionBits,
      f.minScale + (m / 2 ^ f.fractionBits - 1 : Nat)⟩ := if_neg h

theorem Holds.scaled_place (h : f.Holds x) : f.scaled (f.place x) = x := by
  obtain ⟨significand, scale⟩ := x
  obtain ⟨hscale, hsignificand, hfull⟩ := h
  have hpow : 0 < 2 ^ f.fractionBits := Nat.two_pow_pos _
  simp only [Nat.pow_succ] at hscale hsignificand hfull
  have hplace : f.place ⟨significand, scale⟩ = 2 ^ f.fractionBits * (scale - f.minScale).toNat + significand := by
    rw [place, Nat.mul_comm]
  by_cases hnormal : 2 ^ f.fractionBits ≤ significand
  · -- the leading bit counts one to the exponent field
    have hone : significand / 2 ^ f.fractionBits = 1 := Nat.div_eq_of_lt_le (by omega) (by omega)
    have hquotient : f.place ⟨significand, scale⟩ / 2 ^ f.fractionBits = (scale - f.minScale).toNat + 1 := by
      rw [hplace, Nat.mul_add_div hpow, hone]
    have hrest : f.place ⟨significand, scale⟩ % 2 ^ f.fractionBits = significand - 2 ^ f.fractionBits := by
      rw [hplace, Nat.mul_add_mod, Nat.mod_eq_sub_mod hnormal, Nat.mod_eq_of_lt (by omega)]
    rw [scaled_of_ne_zero (by omega), hquotient, hrest, Scaled.mk.injEq]
    omega
  · obtain rfl : scale = f.minScale := by
      obtain h | h := hfull
      · exact absurd h hnormal
      · exact h
    rw [Int.sub_self, Int.toNat_zero, Nat.mul_zero, Nat.zero_add] at hplace
    rw [scaled_of_zero (by rw [hplace, Nat.div_eq_of_lt (Nat.lt_of_not_le hnormal)]), hplace]

theorem holds_scaled (f : Format) (m : Nat) : f.Holds (f.scaled m) := by
  have hpow : 0 < 2 ^ f.fractionBits := Nat.two_pow_pos _
  have hrest := Nat.mod_lt m hpow
  by_cases hzero : m / 2 ^ f.fractionBits = 0
  · have hlt : m < 2 ^ f.fractionBits := (Nat.div_eq_zero_iff_lt hpow).1 hzero
    rw [scaled_of_zero hzero]
    exact ⟨Int.le_refl _, by dsimp only; rw [Nat.pow_succ]; omega, .inr rfl⟩
  · rw [scaled_of_ne_zero hzero]
    exact ⟨by dsimp only; omega, by dsimp only; rw [Nat.pow_succ]; omega, .inl (Nat.le_add_left _ _)⟩

theorem place_scaled (f : Format) (m : Nat) : f.place (f.scaled m) = m := by
  have hdiv := Nat.div_add_mod m (2 ^ f.fractionBits)
  by_cases hzero : m / 2 ^ f.fractionBits = 0
  · rw [scaled_of_zero hzero, place, Int.sub_self, Int.toNat_zero, Nat.zero_mul, Nat.zero_add]
  · have hscale : (f.minScale + ((m / 2 ^ f.fractionBits - 1 : Nat) : Int) - f.minScale).toNat =
        m / 2 ^ f.fractionBits - 1 := by omega
    have hle : 2 ^ f.fractionBits ≤ 2 ^ f.fractionBits * (m / 2 ^ f.fractionBits) :=
      Nat.le_mul_of_pos_right _ (Nat.pos_of_ne_zero hzero)
    rw [scaled_of_ne_zero hzero, place, hscale, Nat.sub_mul, Nat.one_mul, Nat.mul_comm]
    dsimp only
    omega

/-- Only zero has no significand. -/
theorem significand_pos (hm : 0 < m) : 0 < (f.scaled m).significand := by
  by_contra hzero
  have hplace := f.place_scaled m
  have hholds := f.holds_scaled m
  have hpow : 0 < 2 ^ f.fractionBits := Nat.two_pow_pos _
  obtain h | h := hholds.full
  · omega
  · rw [place, h, Int.sub_self, Int.toNat_zero, Nat.zero_mul] at hplace
    omega

/-! ## Intervals -/

/-- The numbers that are rounded to a finite magnitude. -/
def Near (f : Format) (m : Nat) (r : ℚ) : Prop := (Shortest.interval f m).1.Has (Shortest.interval f m).2 r

/-- How far below a number those lie that round to it, in units of its last bit. Below the least significand that
fills its bits numbers are twice as close, unless the scale is the least. -/
def margin (f : Format) (x : Scaled) : ℚ :=
  if x.significand = 2 ^ f.fractionBits ∧ f.minScale < x.scale then 1 / 4 else 1 / 2

theorem margin_scaled (f : Format) (m : Nat) : f.margin (f.scaled m) =
    if m % 2 ^ f.fractionBits = 0 ∧ 1 < m / 2 ^ f.fractionBits then 1 / 4 else 1 / 2 := by
  refine if_congr ?_ rfl rfl
  by_cases hzero : m / 2 ^ f.fractionBits = 0
  · rw [scaled_of_zero hzero, hzero]
    simp
  · rw [scaled_of_ne_zero hzero]
    dsimp only
    omega

/-- What lies near a magnitude, in units of its last bit. -/
structure Close (f : Format) (x : Scaled) (t : ℚ) : Prop where
  low : (x.significand : ℚ) - f.margin x ≤ t
  high : t ≤ x.significand + 1 / 2
  strict : x.significand % 2 = 1 → (x.significand : ℚ) - f.margin x < t ∧ t < x.significand + 1 / 2

theorem near_iff {r : ℚ} (hm : 0 < m) : f.Near m r ↔ f.Close (f.scaled m) (r / 2 ^ (f.scaled m).scale) := by
  have hsig := f.significand_pos hm
  have hunit := two_zpow_eq_quarters (f.scaled m).scale
  have hpos := two_zpow_pos ((f.scaled m).scale - 2)
  have hlow : ((Shortest.interval f m).1.low : ℚ) = 4 * ((f.scaled m).significand - f.margin (f.scaled m)) := by
    rw [margin_scaled, Shortest.interval]
    dsimp only
    split
    · rw [Nat.cast_sub (by omega)]
      push_cast
      ring
    · rw [Nat.cast_sub (by omega)]
      push_cast
      ring
  have hhigh : ((Shortest.interval f m).1.high : ℚ) = 4 * ((f.scaled m).significand + 1 / 2) := by
    rw [Shortest.interval]
    push_cast
    ring
  have hclosed : (Shortest.interval f m).1.closed = false ↔ (f.scaled m).significand % 2 = 1 := by
    simp [Shortest.interval]
  have hscale : (Shortest.interval f m).2 = (f.scaled m).scale - 2 := rfl
  unfold Near Shortest.Interval.Has
  rw [hlow, hhigh, hclosed, hscale, hunit]
  generalize (2 : ℚ) ^ ((f.scaled m).scale - 2) = unit at hpos ⊢
  have hle : ∀ a : ℚ, 4 * a * unit ≤ r ↔ a ≤ r / (4 * unit) := fun a => by
    rw [le_div_iff₀ (by positivity)]
    constructor <;> intro h <;> linarith
  have hge : ∀ a : ℚ, r ≤ 4 * a * unit ↔ r / (4 * unit) ≤ a := fun a => by
    rw [div_le_iff₀ (by positivity)]
    constructor <;> intro h <;> linarith
  have hlt : ∀ a : ℚ, 4 * a * unit < r ↔ a < r / (4 * unit) := fun a => by
    rw [lt_div_iff₀ (by positivity)]
    constructor <;> intro h <;> linarith
  have hgt : ∀ a : ℚ, r < 4 * a * unit ↔ r / (4 * unit) < a := fun a => by
    rw [div_lt_iff₀ (by positivity)]
    constructor <;> intro h <;> linarith
  rw [hle, hge, hlt, hgt]
  exact ⟨fun ⟨low, high, strict⟩ => ⟨low, high, strict⟩, fun ⟨low, high, strict⟩ => ⟨low, high, strict⟩⟩

/-! ## Rounding -/

/-- The scale of the last bit that is kept of a number between `2 ^ exponent` and the next power. -/
def keptScale (f : Format) (exponent : Int) : Int := max (exponent - f.fractionBits) f.minScale

/-- A positive fraction is rounded at the scale of the last bit that is kept of it. -/
theorem round_spec (f : Format) {num den : Nat} (hnum : 0 < num) (hden : 0 < den) : ∃ exponent significand,
    (2 : ℚ) ^ exponent ≤ (num : ℚ) / den ∧ (num : ℚ) / den < 2 ^ (exponent + 1) ∧
      RoundsTo ((num : ℚ) / den / 2 ^ f.keptScale exponent) significand ∧
      f.round num den = min (f.place ⟨significand, f.keptScale exponent⟩) f.infinity := by
  obtain ⟨hlow, hhigh⟩ := floorLog2_spec hnum hden
  have hrounds := @roundEven_spec (num * 2 ^ (-f.keptScale (floorLog2 num den)).toNat)
    (den * 2 ^ (f.keptScale (floorLog2 num den)).toNat) (Nat.mul_pos hden (Nat.two_pow_pos _))
  rw [div_two_zpow] at hrounds
  exact ⟨floorLog2 num den, _, hlow, hhigh, hrounds, if_neg (Nat.ne_of_gt hnum)⟩

theorem round_eq_place {num den significand : Nat} {exponent : Int} (hnum : 0 < num) (hden : 0 < den)
    (hlow : (2 : ℚ) ^ exponent ≤ (num : ℚ) / den) (hhigh : (num : ℚ) / den < 2 ^ (exponent + 1))
    (h : RoundsTo ((num : ℚ) / den / 2 ^ f.keptScale exponent) significand) :
    f.round num den = min (f.place ⟨significand, f.keptScale exponent⟩) f.infinity := by
  obtain ⟨exponent', significand', hlow', hhigh', hrounds, hround⟩ := f.round_spec hnum hden
  obtain rfl := exponent_unique ⟨hlow, hhigh⟩ ⟨hlow', hhigh'⟩
  rw [hround, h.unique hrounds]

/-- What a fraction is rounded to depends on its value only. -/
theorem round_congr {num den num' den' : Nat} (hden : 0 < den) (hden' : 0 < den')
    (h : (num : ℚ) / den = (num' : ℚ) / den') : f.round num den = f.round num' den' := by
  have hne : (den : ℚ) ≠ 0 := by exact_mod_cast Nat.ne_of_gt hden
  have hne' : (den' : ℚ) ≠ 0 := by exact_mod_cast Nat.ne_of_gt hden'
  have hzero : num = 0 ↔ num' = 0 := by
    have hiff : (num : ℚ) / den = 0 ↔ (num' : ℚ) / den' = 0 := by rw [h]
    simpa [hne, hne'] using hiff
  obtain rfl | hnum := Nat.eq_zero_or_pos num
  · obtain rfl := hzero.1 rfl
    rfl
  · have hnum' : 0 < num' := Nat.pos_of_ne_zero fun h => Nat.ne_of_gt hnum (hzero.2 h)
    obtain ⟨exponent, significand, hlow, hhigh, hrounds, hround⟩ := f.round_spec hnum hden
    rw [hround, round_eq_place hnum' hden' (h ▸ hlow) (h ▸ hhigh) (h ▸ hrounds)]

theorem round_le_infinity (f : Format) (num den : Nat) : f.round num den ≤ f.infinity := by
  unfold round
  split
  · exact Nat.zero_le _
  · exact Nat.min_le_right _ _

theorem margin_pos (f : Format) (x : Scaled) : 0 < f.margin x := by
  unfold margin
  split <;> norm_num

theorem margin_le (f : Format) (x : Scaled) : f.margin x ≤ 1 / 2 := by
  unfold margin
  split <;> norm_num

/-- A significand that is carried over its bits is the least of the next scale. -/
theorem place_carry {scale : Int} (h : f.minScale ≤ scale) :
    f.place ⟨2 ^ (f.fractionBits + 1), scale⟩ = f.place ⟨2 ^ f.fractionBits, scale + 1⟩ := by
  have hnext : (scale + 1 - f.minScale).toNat = (scale - f.minScale).toNat + 1 := by omega
  rw [place, place, hnext, Nat.add_mul, Nat.one_mul, Nat.pow_succ]
  dsimp only
  omega

theorem holds_least {scale : Int} (h : f.minScale ≤ scale) : f.Holds ⟨2 ^ f.fractionBits, scale⟩ := by
  refine ⟨h, ?_, .inl (Nat.le_refl _)⟩
  exact Nat.pow_lt_pow_right (by decide) (Nat.lt_succ_self _)

section Kept

variable {r : ℚ} {exponent : Int} (hlow : (2 : ℚ) ^ exponent ≤ r) (hhigh : r < 2 ^ (exponent + 1))

include hhigh in
theorem kept_lt : r / 2 ^ f.keptScale exponent < ((2 ^ (f.fractionBits + 1) : Nat) : ℚ) := by
  rw [div_lt_iff₀ (two_zpow_pos _), ← two_zpow_natCast_add]
  refine hhigh.trans_le (two_zpow_le.2 ?_)
  unfold keptScale
  omega

include hlow in
theorem le_kept (h : f.minScale < f.keptScale exponent) :
    ((2 ^ f.fractionBits : Nat) : ℚ) ≤ r / 2 ^ f.keptScale exponent := by
  rw [le_div_iff₀ (two_zpow_pos _), ← two_zpow_natCast_add]
  refine le_trans (two_zpow_le.2 ?_) hlow
  unfold keptScale at h ⊢
  omega

variable {significand : Nat} (h : RoundsTo (r / 2 ^ f.keptScale exponent) significand)

include hhigh h in
theorem significand_le : significand ≤ 2 ^ (f.fractionBits + 1) := by
  have hlt := kept_lt (f := f) hhigh
  have hless : (significand : ℚ) < ((2 ^ (f.fractionBits + 1) : Nat) : ℚ) + 1 := by
    have := h.low
    linarith
  have hnat : significand < 2 ^ (f.fractionBits + 1) + 1 := by exact_mod_cast hless
  omega

include hlow h in
theorem le_significand (hscale : f.minScale < f.keptScale exponent) : 2 ^ f.fractionBits ≤ significand := by
  have hle := le_kept hlow hscale
  have hless : ((2 ^ f.fractionBits : Nat) : ℚ) < significand + 1 := by
    have := h.high
    linarith
  have hnat : 2 ^ f.fractionBits < significand + 1 := by exact_mod_cast hless
  omega

end Kept

section Near

variable {num den : Nat} (hnum : 0 < num) (hden : 0 < den)

include hnum hden

/-- What is close to a number whose last bit is kept is rounded to it. -/
theorem round_of_close {exponent : Int} (hlow : (2 : ℚ) ^ exponent ≤ (num : ℚ) / den)
    (hhigh : (num : ℚ) / den < 2 ^ (exponent + 1)) (hkept : f.keptScale exponent = x.scale)
    (h : f.Close x ((num : ℚ) / den / 2 ^ x.scale)) : f.round num den = min (f.place x) f.infinity := by
  have hmargin := f.margin_le x
  have hrounds : RoundsTo ((num : ℚ) / den / 2 ^ f.keptScale exponent) x.significand := by
    rw [hkept]
    refine ⟨?_, h.high, fun hodd => ⟨?_, (h.strict hodd).2⟩⟩
    · have := h.low
      linarith
    · have := (h.strict hodd).1
      linarith
  rw [round_eq_place hnum hden hlow hhigh hrounds, hkept]

/-- What is a little below the least significand of a scale is carried up to it. -/
theorem round_of_below {scale : Int} (hscale : f.minScale < scale)
    (hlow : ((2 ^ f.fractionBits : Nat) : ℚ) - 1 / 4 ≤ (num : ℚ) / den / 2 ^ scale)
    (hhigh : (num : ℚ) / den / 2 ^ scale < ((2 ^ f.fractionBits : Nat) : ℚ)) :
    f.round num den = min (f.place ⟨2 ^ f.fractionBits, scale⟩) f.infinity := by
  have hone : (1 : ℚ) ≤ ((2 ^ f.fractionBits : Nat) : ℚ) := by exact_mod_cast Nat.two_pow_pos _
  have hunit := two_zpow_pos scale
  have hhalf : (2 : ℚ) ^ (scale - 1) = 2 ^ scale / 2 := by rw [zpow_sub₀ (by norm_num), zpow_one]
  have hexp : (2 : ℚ) ^ ((f.fractionBits : Int) + (scale - 1)) ≤ (num : ℚ) / den := by
    have hge : ((2 ^ f.fractionBits : Nat) : ℚ) / 2 ≤ (num : ℚ) / den / 2 ^ scale := by linarith
    rw [le_div_iff₀ hunit] at hge
    rw [two_zpow_natCast_add, hhalf]
    linarith
  have hexp' : (num : ℚ) / den < 2 ^ ((f.fractionBits : Int) + (scale - 1) + 1) := by
    rw [add_assoc, sub_add_cancel, two_zpow_natCast_add, ← div_lt_iff₀ hunit]
    exact hhigh
  have hkept : f.keptScale ((f.fractionBits : Int) + (scale - 1)) = scale - 1 := by
    unfold keptScale
    omega
  have hdouble : (num : ℚ) / den / 2 ^ (scale - 1) = 2 * ((num : ℚ) / den / 2 ^ scale) := by
    rw [hhalf, div_div_eq_mul_div]
    ring
  have hpow : ((2 ^ (f.fractionBits + 1) : Nat) : ℚ) = 2 * ((2 ^ f.fractionBits : Nat) : ℚ) := by
    rw [Nat.pow_succ]
    push_cast
    ring
  have hrounds : RoundsTo ((num : ℚ) / den / 2 ^ f.keptScale ((f.fractionBits : Int) + (scale - 1)))
      (2 ^ (f.fractionBits + 1)) := by
    rw [hkept, hdouble]
    refine ⟨by linarith, by linarith, fun hodd => ?_⟩
    rw [Nat.pow_succ] at hodd
    omega
  have hcarried := @place_carry f (scale - 1) (by omega)
  rw [sub_add_cancel] at hcarried
  rw [round_eq_place hnum hden hexp hexp' hrounds, hkept, hcarried]

end Near

/-- What is close to a number is more than nothing. -/
theorem Close.pos {t : ℚ} (h : f.Close x t) (hsig : 0 < x.significand) : 0 < t := by
  have hone : (1 : ℚ) ≤ x.significand := by exact_mod_cast hsig
  have hmargin := f.margin_le x
  have hlow := h.low
  linarith

/-- What lies near a finite magnitude is rounded to it. -/
theorem round_of_near {num den : Nat} (hm : 0 < m) (hfinite : m < f.infinity) (hden : 0 < den)
    (h : f.Near m ((num : ℚ) / den)) : f.round num den = m := by
  have hclose := (near_iff hm).1 h
  have hholds := f.holds_scaled m
  have hplace := f.place_scaled m
  have hpos := hclose.pos (f.significand_pos hm)
  generalize f.scaled m = x at hclose hholds hplace hpos
  have hnum : 0 < num := by
    by_contra hzero
    obtain rfl : num = 0 := by omega
    simp at hpos
  obtain ⟨hexp, hexp'⟩ := floorLog2_spec hnum hden
  generalize floorLog2 num den = exponent at hexp hexp'
  have hless : exponent < ((f.fractionBits + 1 : Nat) : Int) + x.scale := by
    refine two_zpow_lt.1 (hexp.trans_lt ?_)
    have hnext : (x.significand : ℚ) + 1 ≤ ((2 ^ (f.fractionBits + 1) : Nat) : ℚ) := by
      exact_mod_cast hholds.significand
    rw [two_zpow_natCast_add, ← div_lt_iff₀ (two_zpow_pos x.scale)]
    have := hclose.high
    linarith
  by_cases hcarry : exponent - f.fractionBits < x.scale ∧ f.minScale < x.scale
  · have hbelow : (num : ℚ) / den / 2 ^ x.scale < ((2 ^ f.fractionBits : Nat) : ℚ) := by
      rw [div_lt_iff₀ (two_zpow_pos _), ← two_zpow_natCast_add]
      exact hexp'.trans_le (two_zpow_le.2 (by omega))
    have hfull : 2 ^ f.fractionBits ≤ x.significand := hholds.full.resolve_right (ne_of_gt hcarry.2)
    -- nothing below it is close to a larger significand
    have hleast : x.significand = 2 ^ f.fractionBits := by
      have hcast : (x.significand : ℚ) < ((2 ^ f.fractionBits : Nat) : ℚ) + 1 := by
        have := f.margin_le x
        have := hclose.low
        linarith
      have hnat : x.significand < 2 ^ f.fractionBits + 1 := by exact_mod_cast hcast
      omega
    have hlow := hclose.low
    rw [show f.margin x = 1 / 4 from if_pos ⟨hleast, hcarry.2⟩, hleast] at hlow
    have hx : (⟨2 ^ f.fractionBits, x.scale⟩ : Scaled) = x := by rw [← hleast]
    rw [round_of_below hnum hden hcarry.2 hlow hbelow, hx, hplace, Nat.min_eq_left (Nat.le_of_lt hfinite)]
  · have hkept : f.keptScale exponent = x.scale := by
      have := hholds.scale
      unfold keptScale
      omega
    rw [round_of_close hnum hden hexp hexp' hkept hclose, hplace, Nat.min_eq_left (Nat.le_of_lt hfinite)]

/-- Nothing from the least positive number of the format on is rounded to zero. -/
theorem round_pos {num den : Nat} (hinfinity : 0 < f.infinity) (hden : 0 < den)
    (h : (2 : ℚ) ^ f.minScale ≤ (num : ℚ) / den) : 0 < f.round num den := by
  have hnum : 0 < num := by
    by_contra hzero
    obtain rfl : num = 0 := by omega
    rw [Nat.cast_zero, zero_div] at h
    exact absurd h (not_le_of_gt (two_zpow_pos _))
  obtain ⟨exponent, significand, hlow, -, hrounds, hround⟩ := f.round_spec hnum hden
  have hone : 1 ≤ (num : ℚ) / den / 2 ^ f.keptScale exponent := by
    obtain heq | hlt := Int.le_iff_eq_or_lt.1 (Int.le_max_right (exponent - f.fractionBits) f.minScale)
    · have hkept : f.keptScale exponent = f.minScale := heq.symm
      rw [hkept, le_div_iff₀ (two_zpow_pos _), one_mul]
      exact h
    · have hpow : (1 : ℚ) ≤ ((2 ^ f.fractionBits : Nat) : ℚ) := by exact_mod_cast Nat.two_pow_pos _
      exact hpow.trans (le_kept hlow hlt)
  have hsig : 0 < significand := by
    by_contra hzero
    obtain rfl : significand = 0 := by omega
    have hhigh := hrounds.high
    rw [Nat.cast_zero, zero_add] at hhigh
    linarith
  rw [hround]
  exact Nat.lt_min.2 ⟨Nat.lt_of_lt_of_le hsig (Nat.le_add_left _ _), hinfinity⟩

/-- A number is near what it is rounded to. -/
theorem near_round {num den : Nat} (hfb : 0 < f.fractionBits) (hnum : 0 < num) (hden : 0 < den)
    (hpos : 0 < f.round num den) (hfinite : f.round num den < f.infinity) :
    f.Near (f.round num den) ((num : ℚ) / den) := by
  obtain ⟨exponent, significand, hexp, hexp', hrounds, hround⟩ := f.round_spec hnum hden
  rw [near_iff hpos]
  rw [hround] at hpos hfinite ⊢
  have hkept : f.minScale ≤ f.keptScale exponent := Int.le_max_right _ _
  have hless := @kept_lt f _ _ hexp'
  have hle := significand_le hexp' hrounds
  have hmore := fun h => @le_kept f _ _ hexp h
  have hfull := fun h => le_significand hexp hrounds h
  generalize f.keptScale exponent = scale at *
  have hmin : min (f.place ⟨significand, scale⟩) f.infinity = f.place ⟨significand, scale⟩ := by omega
  rw [hmin]
  obtain hlt | rfl := Nat.lt_or_eq_of_le hle
  · have hholds : f.Holds ⟨significand, scale⟩ := by
      refine ⟨hkept, hlt, ?_⟩
      obtain heq | hgt := Int.le_iff_eq_or_lt.1 hkept
      · exact .inr heq.symm
      · exact .inl (hfull hgt)
    rw [hholds.scaled_place]
    -- no number rounds up to the least significand of a scale from below at that scale
    have hmargin : f.margin ⟨significand, scale⟩ = 1 / 2 ∨ (significand : ℚ) ≤ (num : ℚ) / den / 2 ^ scale := by
      by_cases htight : significand = 2 ^ f.fractionBits ∧ f.minScale < scale
      · right
        rw [htight.1]
        exact hmore htight.2
      · exact .inl (if_neg htight)
    have hquarter := f.margin_pos ⟨significand, scale⟩
    refine ⟨?_, hrounds.high, fun hodd => ⟨?_, (hrounds.strict hodd).2⟩⟩
    · obtain hhalf | hle := hmargin
      · rw [hhalf]
        exact hrounds.low
      · dsimp only
        linarith
    · obtain hhalf | hle := hmargin
      · rw [hhalf]
        exact (hrounds.strict hodd).1
      · dsimp only
        linarith
  · rw [place_carry hkept, (holds_least (by omega)).scaled_place]
    have hpow : ((2 ^ (f.fractionBits + 1) : Nat) : ℚ) = 2 * ((2 ^ f.fractionBits : Nat) : ℚ) := by
      rw [Nat.pow_succ]
      push_cast
      ring
    have hhalf : (num : ℚ) / den / 2 ^ (scale + 1) = (num : ℚ) / den / 2 ^ scale / 2 := by
      rw [two_zpow_succ, mul_comm, div_mul_eq_div_div]
    have hquarter : f.margin ⟨2 ^ f.fractionBits, scale + 1⟩ = 1 / 4 := if_pos ⟨rfl, by dsimp only; omega⟩
    have hlow := hrounds.low
    rw [hpow] at hlow hless
    dsimp only
    rw [hhalf]
    refine ⟨?_, ?_, fun hodd => ?_⟩
    · rw [hquarter]
      linarith
    · linarith
    · obtain ⟨bits, hbits⟩ := Nat.exists_eq_succ_of_ne_zero (Nat.ne_of_gt hfb)
      simp only [hbits, Nat.pow_succ] at hodd
      omega

/-- A number that the format has is rounded to itself. -/
theorem round_exact {num den : Nat} (hpos : 0 < x.significand) (hsig : x.significand < 2 ^ (f.fractionBits + 1))
    (hlow : f.minScale ≤ x.scale) (hhigh : x.scale + 3 ≤ f.minScale + 2 ^ f.exponentBits) (hden : 0 < den)
    (h : (num : ℚ) / den = x.value) :
    0 < f.round num den ∧ f.round num den < f.infinity ∧ (f.scaled (f.round num den)).value = x.value := by
  have hunit := two_zpow_pos x.scale
  have hvalue : 0 < x.value := by
    have hone : (0 : ℚ) < x.significand := by exact_mod_cast hpos
    exact mul_pos hone hunit
  have hnum : 0 < num := by
    by_contra hzero
    obtain rfl : num = 0 := by omega
    rw [← h] at hvalue
    simp at hvalue
  obtain ⟨hexp, hexp'⟩ := floorLog2_spec hnum hden
  rw [h] at hexp hexp'
  generalize floorLog2 num den = exponent at hexp hexp'
  have hless : exponent < ((f.fractionBits + 1 : Nat) : Int) + x.scale := by
    refine two_zpow_lt.1 (hexp.trans_lt ?_)
    rw [two_zpow_natCast_add, Scaled.value]
    exact mul_lt_mul_of_pos_right (by exact_mod_cast hsig) hunit
  have hscale : f.minScale ≤ f.keptScale exponent ∧ f.keptScale exponent ≤ x.scale := by
    unfold keptScale
    omega
  -- at the scale of the last bit that is kept the number is whole
  have hwhole : x.value / 2 ^ f.keptScale exponent =
      ((x.significand * 2 ^ (x.scale - f.keptScale exponent).toNat : Nat) : ℚ) := by
    have hsplit : x.scale = ((x.scale - f.keptScale exponent).toNat : Int) + f.keptScale exponent := by omega
    rw [div_eq_iff (ne_of_gt (two_zpow_pos _)), Scaled.value, Nat.cast_mul, mul_assoc, ← two_zpow_natCast_add, ← hsplit]
  have hkept := @kept_lt f _ _ hexp'
  have hfull := fun h => @le_kept f _ _ hexp h
  have hround := round_eq_place hnum hden (h ▸ hexp) (h ▸ hexp') (h ▸ RoundsTo.of_whole hwhole)
  rw [hwhole] at hkept hfull
  have hpositive : 0 < x.significand * 2 ^ (x.scale - f.keptScale exponent).toNat :=
    Nat.mul_pos hpos (Nat.two_pow_pos _)
  generalize x.significand * 2 ^ (x.scale - f.keptScale exponent).toNat = significand at *
  generalize f.keptScale exponent = scale at *
  have hlt : significand < 2 ^ (f.fractionBits + 1) := by exact_mod_cast hkept
  have hholds : f.Holds ⟨significand, scale⟩ := by
    refine ⟨hscale.1, hlt, ?_⟩
    obtain heq | hgt := Int.le_iff_eq_or_lt.1 hscale.1
    · exact .inr heq.symm
    · exact .inl (by exact_mod_cast hfull hgt)
  have hfinite : f.place ⟨significand, scale⟩ < f.infinity := by
    have hexponents : (scale - f.minScale).toNat + 2 ≤ 2 ^ f.exponentBits - 1 := by
      have hcast : ((2 ^ f.exponentBits : Nat) : Int) = 2 ^ f.exponentBits := by push_cast; rfl
      omega
    have hmul := Nat.mul_le_mul_right (2 ^ f.fractionBits) hexponents
    rw [Nat.add_mul] at hmul
    rw [Nat.pow_succ] at hlt
    unfold place infinity
    dsimp only
    omega
  rw [Nat.min_eq_left (Nat.le_of_lt hfinite)] at hround
  rw [hround, hholds.scaled_place]
  refine ⟨?_, hfinite, ?_⟩
  · unfold place
    dsimp only
    omega
  · rw [Scaled.value, ← hwhole, div_mul_cancel₀ _ (ne_of_gt (two_zpow_pos _))]

/-- A magnitude is near the number it stands for. -/
theorem near_scaled (hm : 0 < m) : f.Near m (f.scaled m).value := by
  have hvalue : (f.scaled m).value / 2 ^ (f.scaled m).scale = (f.scaled m).significand :=
    mul_div_cancel_right₀ _ (ne_of_gt (two_zpow_pos _))
  have hmargin := f.margin_pos (f.scaled m)
  rw [near_iff hm, hvalue]
  refine ⟨?_, ?_, fun _ => ⟨?_, ?_⟩⟩ <;> linarith

/-- The number that a finite magnitude stands for is rounded to it. -/
theorem round_scaled (hfinite : m < f.infinity) : f.round (f.scaled m).numerator (f.scaled m).denominator = m := by
  obtain rfl | hm := Nat.eq_zero_or_pos m
  · have hzero : (f.scaled 0).numerator = 0 := by
      rw [scaled_of_zero (Nat.zero_div _), Scaled.numerator, Nat.zero_mul]
    rw [hzero]
    rfl
  · refine round_of_near hm hfinite (Scaled.denominator_pos _) ?_
    rw [Scaled.numerator_div_denominator]
    exact near_scaled hm

end Format

end PacketProtocol
