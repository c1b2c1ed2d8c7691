import PacketProtocol.Binary.Binary32
import PacketProtocol.Proofs.Binary.Rounding
import PacketProtocol.Proofs.Record
/-!
# Singles survive

A single is put on the wire from its exponent and fraction and read back bit by bit, whatever guess the search for
the exponent starts from, and a double that stands for a single is rounded to it. Only the NaNs are made one.
-/

namespace PacketProtocol

open scoped Numerals

/-! ## Signs and magnitudes -/

namespace Binary64

variable {negative : Bool} {m : Nat}

theorem magnitude_ofParts (h : m < 2 ^ 63) : (ofParts negative m).magnitude = m := by
  unfold magnitude ofParts
  rw [UInt64.toNat_ofNat']
  cases negative <;> simp only [Bool.false_eq_true, if_true, if_false] <;> omega

theorem negative_ofParts (h : m < 2 ^ 63) : (ofParts negative m).negative = negative := by
  unfold Binary64.negative ofParts
  rw [UInt64.toNat_ofNat']
  cases negative <;> simp only [Bool.false_eq_true, if_true, if_false, decide_eq_true_eq, decide_eq_false_iff_not] <;>
    omega

theorem infinity_lt : Format.binary64.infinity < 2 ^ 63 := by decide

/-- A double is put together from its sign and magnitude. -/
theorem ofParts_parts (x : Binary64) : ofParts x.negative x.magnitude = x := by
  have hlt := x.bits.toNat_lt
  have hbits : x.magnitude + (if x.negative then 2 ^ 63 else 0) = x.bits.toNat := by
    unfold magnitude Binary64.negative
    by_cases hsign : 2 ^ 63 ≤ x.bits.toNat
    · rw [decide_eq_true hsign, if_pos rfl]
      omega
    · rw [decide_eq_false hsign, if_neg Bool.false_ne_true]
      omega
  rw [ofParts, hbits, UInt64.ofNat_toNat]

theorem isFinite_iff {x : Binary64} : x.isFinite = true ↔ x.magnitude < Format.binary64.infinity := decide_eq_true_iff

theorem isNaN_of_isFinite {x : Binary64} (h : x.isFinite = true) : x.isNaN = false :=
  decide_eq_false (Nat.lt_asymm (isFinite_iff.1 h))

theorem magnitude_ofRatio (negative : Bool) (num den : Nat) :
    (ofRatio negative num den).magnitude = Format.binary64.round num den :=
  magnitude_ofParts (Nat.lt_of_le_of_lt (Format.binary64.round_le_infinity num den) infinity_lt)

theorem negative_ofRatio (negative : Bool) (num den : Nat) : (ofRatio negative num den).negative = negative :=
  negative_ofParts (Nat.lt_of_le_of_lt (Format.binary64.round_le_infinity num den) infinity_lt)

/-- A fraction is rounded to a number or to infinity. -/
theorem isNaN_ofRatio (negative : Bool) (num den : Nat) : (ofRatio negative num den).isNaN = false := by
  rw [isNaN, magnitude_ofRatio, decide_eq_false_iff_not, Nat.not_lt]
  exact Format.binary64.round_le_infinity num den

end Binary64

namespace Binary32

variable {x : Binary32} {negative : Bool} {m : Nat}

/-- The bits are the sign and the magnitude. -/
theorem magnitude_add_sign (x : Binary32) : x.magnitude + (if x.negative then 2 ^ 31 else 0) = x.bits.toNat := by
  have hlt := x.bits.toNat_lt
  unfold magnitude Binary32.negative
  by_cases hsign : 2 ^ 31 ≤ x.bits.toNat
  · rw [decide_eq_true hsign, if_pos rfl]
    omega
  · rw [decide_eq_false hsign, if_neg Bool.false_ne_true]
    omega

theorem ofParts_parts (x : Binary32) : ofParts x.negative x.magnitude = x := by
  rw [ofParts, x.magnitude_add_sign, UInt32.ofNat_toNat]

/-- The number itself, or for any NaN the one that is sent. -/
def canonical (x : Binary32) : Binary32 := if x.isNaN then nan else x

theorem canonical_of_not_isNaN (h : x.isNaN = false) : x.canonical = x := if_neg (by simp [h])

theorem canonical_canonical (x : Binary32) : x.canonical.canonical = x.canonical := by
  by_cases h : x.isNaN = true
  · have hcanonical : x.canonical = nan := if_pos h
    rw [hcanonical]
    rfl
  · have hcanonical := canonical_of_not_isNaN (by simpa using h)
    rw [hcanonical, hcanonical]

/-- A number is a NaN, infinite or finite. -/
theorem magnitude_cases (x : Binary32) : x.isNaN = true ∨ x.isNaN = false ∧ x.isFinite = false ∧
    x.magnitude = Format.binary32.infinity ∨ x.isNaN = false ∧ x.isFinite = true := by
  unfold isNaN isFinite
  rcases Nat.lt_trichotomy x.magnitude Format.binary32.infinity with h | h | h
  · right; right
    simp [h, Nat.le_of_lt h]
  · right; left
    simp [h]
  · left
    simp [h]

/-! ## Widening and narrowing -/

/-- The double that a finite single is widened to, without signs. -/
def widen (m : Nat) : Nat :=
  Format.binary64.round (Format.binary32.scaled m).numerator (Format.binary32.scaled m).denominator

/-- It is the same number. -/
theorem widen_spec (hm : 0 < m) (hfinite : m < Format.binary32.infinity) :
    widen m < Format.binary64.infinity ∧
      (Format.binary64.scaled (widen m)).value = (Format.binary32.scaled m).value := by
  have hholds := Format.binary32.holds_scaled m
  have hplace := Format.binary32.place_scaled m
  have hpos := Format.binary32.significand_pos hm
  unfold widen
  generalize Format.binary32.scaled m = x at hholds hplace hpos ⊢
  have hsig : x.significand < 2 ^ 24 := hholds.significand
  have hlow : -149 ≤ x.scale := hholds.scale
  have hhigh : x.scale ≤ 104 := by
    by_contra hlarge
    have hfull : 2 ^ 23 ≤ x.significand := hholds.full.resolve_right (by change x.scale ≠ -149; omega)
    have hinfinity : m < 255 * 2 ^ 23 := hfinite
    have hvalue : (x.scale + 149).toNat * 2 ^ 23 + x.significand = m := hplace
    omega
  refine (Format.round_exact hpos ?_ ?_ ?_ x.denominator_pos x.numerator_div_denominator).2
  · exact Nat.lt_trans hsig (by decide)
  · exact Int.le_trans (by decide) hlow
  · exact Int.le_trans (Int.add_le_add_right hhigh 3) (by decide)

/-- So it is narrowed to what it was widened from. -/
theorem round_widen (hfinite : m < Format.binary32.infinity) : widen m < Format.binary64.infinity ∧
    Format.binary32.round (Format.binary64.scaled (widen m)).numerator (Format.binary64.scaled (widen m)).denominator =
      m := by
  obtain rfl | hm := Nat.eq_zero_or_pos m
  · decide
  · obtain ⟨hlt, hvalue⟩ := widen_spec hm hfinite
    refine ⟨hlt, Format.round_of_near hm hfinite (Scaled.denominator_pos _) ?_⟩
    rw [Scaled.numerator_div_denominator, hvalue]
    exact Format.near_scaled hm

/-- Narrowing undoes widening. -/
theorem ofBinary64_toBinary64 (x : Binary32) : ofBinary64 x.toBinary64 = x.canonical := by
  have hparts := x.ofParts_parts
  obtain hnan | ⟨hnan, hfinite, hmagnitude⟩ | ⟨hnan, hfinite⟩ := x.magnitude_cases
  · rw [canonical, if_pos hnan, toBinary64, if_pos hnan]
    decide
  · rw [canonical_of_not_isNaN hnan, toBinary64, if_neg (by simp [hnan]), if_neg (by simp [hfinite])]
    conv_rhs => rw [← hparts, hmagnitude]
    cases x.negative <;> decide
  · obtain ⟨hlt, hround⟩ := round_widen (by simpa [isFinite] using hfinite : x.magnitude < _)
    have hwide : x.toBinary64 = .ofParts x.negative (widen x.magnitude) := by
      rw [toBinary64, if_neg (by simp [hnan]), if_pos hfinite]
      rfl
    have hsmall := Nat.lt_trans hlt Binary64.infinity_lt
    unfold ofBinary64 Binary64.isNaN Binary64.isFinite Binary64.scaled ofScaled
    rw [canonical_of_not_isNaN hnan, hwide, Binary64.magnitude_ofParts hsmall, Binary64.negative_ofParts hsmall, hround,
      hparts, if_neg (by simp [Nat.le_of_lt hlt]), if_pos (by simpa using hlt)]

/-- All NaNs are the same double. -/
theorem toBinary64_canonical (x : Binary32) : x.canonical.toBinary64 = x.toBinary64 := by
  by_cases h : x.isNaN = true
  · rw [canonical, if_pos h, toBinary64, toBinary64, if_pos h]
    rfl
  · rw [canonical_of_not_isNaN (by simpa using h)]

end Binary32

/-! ## Exponents -/

namespace Scaled

theorem reaches_iff {x : Scaled} {exponent : Int} : x.reaches exponent = true ↔ (2 : ℚ) ^ exponent ≤ x.value := by
  have hunit := two_zpow_pos x.scale
  have hpos : (0 : ℚ) < 2 ^ (x.scale - exponent).toNat := pow_pos (by norm_num) _
  have hsplit : (2 : ℚ) ^ exponent =
      2 ^ x.scale * (2 ^ (exponent - x.scale).toNat / 2 ^ (x.scale - exponent).toNat) := by
    have hback : x.scale - exponent = -(exponent - x.scale) := by ring
    rw [hback, ← zpow_eq_div (by norm_num), ← zpow_add₀ (by norm_num)]
    congr 1
    ring
  rw [reaches, decide_eq_true_eq, value, hsplit, mul_comm (x.significand : ℚ), mul_le_mul_iff_right₀ hunit,
    div_le_iff₀ hpos]
  exact_mod_cast Iff.rfl

end Scaled

namespace Binary32

variable {x : Scaled} {guess : Int}

theorem reaches_lowerExponent (h : 0 < x.significand) (guess : Int) : x.reaches (lowerExponent x guess) = true := by
  induction guess using lowerExponent.induct x with
  | case1 exponent hlower ih =>
    rw [lowerExponent, if_pos hlower]
    exact ih
  | case2 exponent hstop =>
    rw [lowerExponent, if_neg hstop]
    by_cases hscale : x.scale < exponent
    · by_contra hreaches
      exact hstop ⟨hscale, hreaches⟩
    · -- at or below its own scale the significand is enough
      have hone : (1 : ℚ) ≤ x.significand := by exact_mod_cast h
      rw [Scaled.reaches_iff]
      calc (2 : ℚ) ^ exponent
        _ ≤ 2 ^ x.scale := two_zpow_le.2 (by omega)
        _ ≤ x.value := le_mul_of_one_le_left (two_zpow_pos _).le hone

theorem raiseExponent_spec {exponent : Int} (h : x.reaches exponent = true) :
    x.reaches (raiseExponent x exponent) = true ∧ x.reaches (raiseExponent x exponent + 1) = false := by
  induction exponent using raiseExponent.induct x with
  | case1 exponent hnext ih =>
    rw [raiseExponent, if_pos hnext]
    exact ih hnext
  | case2 exponent hstop =>
    rw [raiseExponent, if_neg hstop]
    exact ⟨h, by simpa using hstop⟩

/-- From any guess the exponent of a positive number is found. -/
theorem exponentFrom_spec (h : 0 < x.significand) (guess : Int) :
    (2 : ℚ) ^ exponentFrom guess x ≤ x.value ∧ x.value < 2 ^ (exponentFrom guess x + 1) := by
  obtain ⟨hlow, hhigh⟩ := raiseExponent_spec (reaches_lowerExponent h guess)
  refine ⟨Scaled.reaches_iff.1 hlow, ?_⟩
  by_contra hle
  exact absurd (Scaled.reaches_iff.2 (le_of_not_gt hle)) (Bool.eq_false_iff.1 hhigh)

/-! ## Octets -/

theorem floorAt_scale (x : Scaled) : x.floorAt x.scale = x.significand := by
  simp [Scaled.floorAt]

/-- Putting a finite magnitude together from its number gives it back. -/
theorem assemble_scaled (hm : 0 < m) (hfinite : m < Format.binary32.infinity) (guess : Int) :
    assemble guess (Format.binary32.scaled m) = m := by
  have hsig := Format.binary32.significand_pos hm
  have hholds := Format.binary32.holds_scaled m
  have hplace := Format.binary32.place_scaled m
  generalize Format.binary32.scaled m = x at hsig hholds hplace
  have hexponent := exponentFrom_spec hsig guess
  have hscale : -149 ≤ x.scale := hholds.scale
  have hbits : x.significand < 2 ^ 24 := hholds.significand
  have hsum : (x.scale + 149).toNat * 2 ^ 23 + x.significand = m := hplace
  have hinfinity : m < 255 * 2 ^ 23 := hfinite
  have hunit := two_zpow_pos x.scale
  unfold assemble
  dsimp only
  by_cases hnormal : 2 ^ 23 ≤ x.significand
  · have heq : exponentFrom guess x = 23 + x.scale := by
      refine exponent_unique hexponent ⟨?_, ?_⟩
      · have hcast : ((2 ^ 23 : Nat) : ℚ) ≤ x.significand := by exact_mod_cast hnormal
        calc (2 : ℚ) ^ (23 + x.scale)
          _ = ((2 ^ 23 : Nat) : ℚ) * 2 ^ x.scale := two_zpow_natCast_add 23 x.scale
          _ ≤ x.value := mul_le_mul_of_nonneg_right hcast hunit.le
      · have hcast : (x.significand : ℚ) < ((2 ^ 24 : Nat) : ℚ) := by exact_mod_cast hbits
        calc x.value
          _ < ((2 ^ 24 : Nat) : ℚ) * 2 ^ x.scale := mul_lt_mul_of_pos_right hcast hunit
          _ = 2 ^ (24 + x.scale) := (two_zpow_natCast_add 24 x.scale).symm
          _ = 2 ^ (23 + x.scale + 1) := by congr 1; ring
    have hunits : exponentFrom guess x - 23 = x.scale := by omega
    have hfield : (exponentFrom guess x + 127).toNat = (x.scale + 149).toNat + 1 := by omega
    rw [hunits, floorAt_scale, hfield, Nat.add_mul, Nat.one_mul, if_neg (by omega), if_neg (by omega),
      Nat.add_assoc, Nat.add_sub_cancel' hnormal]
    exact hsum
  · have hleast : x.scale = -149 := hholds.full.resolve_left hnormal
    -- below the least full significand no exponent field is left
    have hlt : exponentFrom guess x < -126 := by
      have hcast : (x.significand : ℚ) < ((2 ^ 23 : Nat) : ℚ) := by exact_mod_cast Nat.lt_of_not_le hnormal
      refine two_zpow_lt.1 (hexponent.1.trans_lt ?_)
      calc x.value
        _ < ((2 ^ 23 : Nat) : ℚ) * 2 ^ x.scale := mul_lt_mul_of_pos_right hcast hunit
        _ = 2 ^ (23 + x.scale) := (two_zpow_natCast_add 23 x.scale).symm
        _ = 2 ^ (-126 : Int) := by rw [hleast]; rfl
    rw [if_neg (by omega), if_pos (by omega), ← hleast, floorAt_scale]
    omega

/-- What is put on the wire are the number's own bits. -/
theorem wireBits_eq (guess : Int) (x : Binary32) : wireBits guess x = x.canonical.bits.toNat := by
  obtain hnan | ⟨hnan, hfinite, hmagnitude⟩ | ⟨hnan, hfinite⟩ := x.magnitude_cases
  · rw [wireBits, if_pos hnan, canonical, if_pos hnan]
  all_goals
    rw [wireBits, if_neg (by simp [hnan]), canonical_of_not_isNaN hnan, ← x.magnitude_add_sign,
      Nat.add_comm x.magnitude]
    dsimp only
  · rw [if_neg (by rw [hmagnitude]; decide), if_neg (by simp [hfinite]), ← hmagnitude]
  · split
    · omega
    · rename_i hzero
      rw [scaled, assemble_scaled (Nat.pos_of_ne_zero hzero) (by simpa [isFinite] using hfinite)]

/-- Four octets are read as the number with these bits. -/
theorem decode_eq (bytes : Bytes) : decode bytes = canonical ⟨UInt32.ofNat (Bytes.toNat bytes)⟩ := by
  generalize hx : (⟨UInt32.ofNat (Bytes.toNat bytes)⟩ : Binary32) = x
  have hbits : Bytes.toNat bytes % 2 ^ 32 = x.bits.toNat := by
    rw [← hx]
    exact UInt32.toNat_ofNat'.symm
  have hlt := x.bits.toNat_lt
  have hparts := x.ofParts_parts
  have hexponent : x.bits.toNat / 2 ^ 23 % 2 ^ 8 = x.magnitude / 2 ^ 23 := by
    unfold magnitude
    omega
  have hfraction : x.bits.toNat % 2 ^ 23 = x.magnitude % 2 ^ 23 := by
    unfold magnitude
    omega
  have hinfinity : Format.binary32.infinity = 255 * 2 ^ 23 := rfl
  -- the fields are those the format reads a magnitude by
  have hscaled : x.magnitude < Format.binary32.infinity →
      ofScaled x.negative (Format.binary32.scaled x.magnitude) = x := by
    intro hfinite
    rw [ofScaled, Format.round_scaled hfinite, hparts]
  have hsign : decide (2 ^ 31 ≤ x.bits.toNat) = x.negative := rfl
  unfold decode
  dsimp only
  rw [hbits, hexponent, hfraction, hsign]
  obtain hnan | ⟨hnan, -, hmagnitude⟩ | ⟨hnan, hfinite⟩ := x.magnitude_cases
  · have hlarge : Format.binary32.infinity < x.magnitude := by simpa [isNaN] using hnan
    have hmagnitude : x.magnitude < 2 ^ 31 := Nat.mod_lt _ (by decide)
    rw [canonical, if_pos hnan, if_pos (by omega), if_neg (by omega)]
  · rw [canonical_of_not_isNaN hnan, if_pos (by omega), if_pos (by omega), ← hmagnitude, hparts]
  · have hlarge : x.magnitude < Format.binary32.infinity := by simpa [isFinite] using hfinite
    have hscaled := hscaled hlarge
    rw [canonical_of_not_isNaN hnan, if_neg (by omega)]
    by_cases hzero : x.magnitude / 2 ^ 23 = 0
    · rw [Format.scaled_of_zero hzero] at hscaled
      rw [if_pos hzero, Nat.mod_eq_of_lt (by omega)]
      exact hscaled
    · rw [Format.scaled_of_ne_zero hzero] at hscaled
      have hscale : ((x.magnitude / 2 ^ 23 : Nat) : Int) - 150 = -149 + (x.magnitude / 2 ^ 23 - 1 : Nat) := by omega
      rw [if_neg hzero, hscale]
      exact hscaled

theorem decode_encode (x : Binary32) : decode x.encode = x.canonical := by
  rw [decode_eq, encode, wireBits_eq, Bytes.toNat_bigEndian x.canonical.bits.toNat_lt, UInt32.ofNat_toNat]
  exact x.canonical_canonical

/-! ## The search for the exponent -/

/-- Steps down from an exponent to the first whose power of two a value reaches. -/
inductive Lowers (value : ℚ) : Int → Int → Prop
  | stop {exponent : Int} : (2 : ℚ) ^ exponent ≤ value → Lowers value exponent exponent
  | step {exponent final : Int} : value < 2 ^ exponent → Lowers value (exponent - 1) final →
      Lowers value exponent final

/-- Steps up from an exponent while a value reaches the next power of two. -/
inductive Raises (value : ℚ) : Int → Int → Prop
  | stop {exponent : Int} : value < (2 : ℚ) ^ (exponent + 1) → Raises value exponent exponent
  | step {exponent final : Int} : 2 ^ (exponent + 1) ≤ value → Raises value (exponent + 1) final →
      Raises value exponent final

theorem not_reaches_iff {exponent : Int} : x.reaches exponent = false ↔ x.value < (2 : ℚ) ^ exponent := by
  rw [← Bool.not_eq_true, Scaled.reaches_iff, not_le]

/-- A positive number needs no bound on the steps down. -/
theorem lowers_lowerExponent (h : 0 < x.significand) (guess : Int) :
    Lowers x.value guess (lowerExponent x guess) := by
  induction guess using lowerExponent.induct x with
  | case1 exponent hlower ih =>
    rw [lowerExponent, if_pos hlower]
    exact .step (not_reaches_iff.1 (by simpa using hlower.2)) ih
  | case2 exponent hstop =>
    have hreaches := reaches_lowerExponent h exponent
    rw [lowerExponent, if_neg hstop] at hreaches ⊢
    exact .stop (Scaled.reaches_iff.1 hreaches)

theorem raises_raiseExponent (x : Scaled) (exponent : Int) : Raises x.value exponent (raiseExponent x exponent) := by
  induction exponent using raiseExponent.induct x with
  | case1 exponent hnext ih =>
    rw [raiseExponent, if_pos hnext]
    exact .step (Scaled.reaches_iff.1 hnext) ih
  | case2 exponent hstop =>
    rw [raiseExponent, if_neg hstop]
    exact .stop (not_reaches_iff.1 (by simpa using hstop))

/-- Every number travels as its own bits and is read as itself, a zero with its sign; every NaN travels as one, and
whatever NaN arrives is read as one. The guess that the search for the exponent starts from does not matter: from
any, both loops end, at the exponent whose power of two is the last that the number reaches. -/
theorem encode_exact (x : Binary32) :
    (x.isNaN = false → x.encode = Bytes.bigEndian 4 x.bits.toNat ∧ decode (Bytes.bigEndian 4 x.bits.toNat) = x) ∧
      (x.isNaN = true →
        x.encode = [0x7f, 0xc0, 0, 0] ∧ (decode (Bytes.bigEndian 4 x.bits.toNat)).isNaN = true) ∧
      (∀ guess, x.encode = Bytes.bigEndian 4 (wireBits guess x)) ∧
      (x.isFinite = true → x.magnitude ≠ 0 → ∀ guess,
        ∃ lowered final, Lowers x.scaled.value guess lowered ∧ Raises x.scaled.value lowered final ∧
          final = exponentFrom guess x.scaled ∧ (2 : ℚ) ^ final ≤ x.scaled.value ∧
          x.scaled.value < 2 ^ (final + 1)) := by
  have hencode : x.encode = Bytes.bigEndian 4 x.canonical.bits.toNat := by rw [encode, wireBits_eq]
  have hdecode : decode (Bytes.bigEndian 4 x.bits.toNat) = x.canonical := by
    rw [decode_eq, Bytes.toNat_bigEndian x.bits.toNat_lt, UInt32.ofNat_toNat]
  refine ⟨fun hnan => ?_, fun hnan => ?_, fun guess => ?_, fun _ hpos guess => ?_⟩
  · rw [hencode, hdecode, canonical_of_not_isNaN hnan]
    exact ⟨rfl, rfl⟩
  · have hcanonical : x.canonical = nan := if_pos hnan
    rw [hencode, hdecode, hcanonical]
    decide
  · rw [hencode, wireBits_eq]
  · have hsig := Format.binary32.significand_pos (Nat.pos_of_ne_zero hpos)
    obtain ⟨hlow, hhigh⟩ := exponentFrom_spec hsig guess
    exact ⟨_, _, lowers_lowerExponent hsig guess, raises_raiseExponent _ _, rfl, hlow, hhigh⟩

/-- The least number there is, below zero, from a guess that is far too high. -/
theorem encode_exact_least :
    (⟨0x80000001⟩ : Binary32).encode = [0x80, 0, 0, 1] ∧ decode [0x80, 0, 0, 1] = ⟨0x80000001⟩ ∧
      exponentFrom 1000 (⟨0x80000001⟩ : Binary32).scaled = -149 ∧
      (⟨0xff800001⟩ : Binary32).encode = [0x7f, 0xc0, 0, 0] ∧
      (decode [0xff, 0x80, 0, 1]).isNaN = true := by
  obtain ⟨hleast, -, -, hsearch⟩ := encode_exact ⟨0x80000001⟩
  obtain ⟨hencode, hdecode⟩ := hleast (by decide)
  obtain ⟨-, hnan, -⟩ := encode_exact ⟨0xff800001⟩
  obtain ⟨hsent, hread⟩ := hnan (by decide)
  obtain ⟨lowered, final, -, -, hfinal, hbounds⟩ := hsearch (by decide) (by decide) 1000
  have hvalue : (⟨0x80000001⟩ : Binary32).scaled.value = 2 ^ (-149 : Int) := by
    have hscaled : (⟨0x80000001⟩ : Binary32).scaled = ⟨1, -149⟩ := by decide
    rw [hscaled, Scaled.value]
    norm_num
  rw [hvalue] at hbounds
  have hunique : final = -149 := exponent_unique hbounds ⟨le_rfl, two_zpow_lt.2 (by omega)⟩
  exact ⟨hencode, hdecode, hfinal.symm.trans hunique, hsent, hread⟩

end Binary32

end PacketProtocol
