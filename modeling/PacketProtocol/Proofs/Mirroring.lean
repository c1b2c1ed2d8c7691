import PacketProtocol.Payload.Fraction
import PacketProtocol.Proofs.Binary.Shortest
/-!
# Mirrored fractions

A fraction travels as one integer whose digits run backwards. Zeros that end the fraction are lost on the way, and
they are all that is lost: what is put together at the other end is the same number.
-/

namespace PacketProtocol

open scoped Numerals

namespace Decimal

/-! ## Digits -/

theorem digit_lt {count n digit : Nat} (h : digit ∈ digits count n) : digit < 10 := by
  induction count with
  | zero => cases h
  | succ count ih =>
    obtain rfl | h := List.mem_cons.1 h
    · exact Nat.mod_lt _ (by decide)
    · exact ih h

theorem length_digits (count n : Nat) : (digits count n).length = count := by
  induction count with
  | zero => rfl
  | succ count ih => rw [digits, List.length_cons, ih]

theorem ofDigits_append (low high : List Nat) :
    ofDigits (low ++ high) = ofDigits low + 10 ^ low.length * ofDigits high := by
  induction low with
  | nil => simp [ofDigits]
  | cons digit low ih =>
    rw [List.cons_append, ofDigits, ofDigits, ih, List.length_cons, Nat.pow_succ, Nat.mul_add]
    ring

theorem ofDigits_eq_zero {list : List Nat} : ofDigits list = 0 ↔ ∀ digit ∈ list, digit = 0 := by
  induction list with
  | nil => exact iff_of_true rfl nofun
  | cons digit list ih =>
    rw [ofDigits, List.forall_mem_cons, ← ih]
    omega

theorem ofDigits_zeros (count : Nat) : ofDigits (List.replicate count 0) = 0 :=
  ofDigits_eq_zero.2 fun _ => List.eq_of_mem_replicate

theorem ofDigits_lt {list : List Nat} (h : ∀ digit ∈ list, digit < 10) : ofDigits list < 10 ^ list.length := by
  induction list with
  | nil => decide
  | cons digit list ih =>
    simp only [List.mem_cons, forall_eq_or_imp] at h
    have := ih h.2
    rw [ofDigits, List.length_cons, Nat.pow_succ]
    omega

/-- Reading the low digits of a number backwards gives what they stand for. -/
theorem ofDigits_reverse (count n : Nat) : ofDigits (digits count n).reverse = n % 10 ^ count := by
  induction count with
  | zero => rw [Nat.pow_zero, Nat.mod_one]; rfl
  | succ count ih =>
    rw [digits, List.reverse_cons, ofDigits_append, ih, List.length_reverse, length_digits, Nat.mod_pow_succ]
    rfl

/-- Digits are those of the number they stand for, and zeros behind them. -/
theorem digitsUp_ofDigits {list : List Nat} (h : ∀ digit ∈ list, digit < 10) :
    ∃ zeros, list = digitsUp (ofDigits list) ++ List.replicate zeros 0 := by
  induction list with
  | nil => exact ⟨0, by rw [ofDigits, digitsUp]; rfl⟩
  | cons digit list ih =>
    simp only [List.mem_cons, forall_eq_or_imp] at h
    obtain ⟨zeros, hzeros⟩ := ih h.2
    by_cases hzero : digit + 10 * ofDigits list = 0
    · have hlist : list = List.replicate zeros 0 := by
        have hnone : ofDigits list = 0 := by omega
        rw [hnone, digitsUp] at hzeros
        exact hzeros
      have hdigit : digit = 0 := by omega
      refine ⟨zeros + 1, ?_⟩
      rw [ofDigits, hzero, digitsUp, hdigit, List.replicate_succ, ← hlist]
      rfl
    · have hlow : (digit + 10 * ofDigits list) % 10 = digit := by omega
      have hhigh : (digit + 10 * ofDigits list) / 10 = ofDigits list := by omega
      refine ⟨zeros, ?_⟩
      rw [ofDigits, digitsUp, if_neg hzero, hlow, hhigh, List.cons_append, ← hzeros]

theorem ofDigits_digitsUp (n : Nat) : ofDigits (digitsUp n) = n := by
  induction n using digitsUp.induct with
  | case1 => rw [digitsUp]; rfl
  | case2 n hne ih =>
    rw [digitsUp, if_neg hne, ofDigits, ih]
    exact Nat.mod_add_div n 10

theorem length_digitsUp_le {n count : Nat} (h : n < 10 ^ count) : (digitsUp n).length ≤ count := by
  induction count generalizing n with
  | zero =>
    obtain rfl : n = 0 := by omega
    rw [digitsUp]
    exact Nat.le_refl _
  | succ count ih =>
    rw [digitsUp]
    split
    · exact Nat.zero_le _
    · have := @ih (n / 10) (by rw [Nat.pow_succ] at h; omega)
      rw [List.length_cons]
      omega

/-! ## Numbers -/

theorem value_scale (unscaled places zeros : Nat) :
    value ⟨unscaled * 10 ^ zeros, places + zeros⟩ = value ⟨unscaled, places⟩ := by
  have hpos : ((10 ^ zeros : Nat) : ℚ) ≠ 0 := by exact_mod_cast Nat.ne_of_gt (ten_pow_pos zeros)
  rw [value, value, Nat.cast_mul, Nat.pow_add, Nat.cast_mul, mul_div_mul_right _ _ hpos]

theorem mirrored_lt (d : Decimal) : d.mirrored < 10 ^ d.places := by
  have hlt := @ofDigits_lt d.fraction fun _ => digit_lt
  rwa [fraction, length_digits] at hlt

/-- Whole part and mirrored fraction give the decimal back, but for the zeros at its end. -/
theorem ofMirrored_spec (d : Decimal) : ∃ zeros, d.unscaled = (ofMirrored d.whole d.mirrored).unscaled * 10 ^ zeros ∧
    d.places = (ofMirrored d.whole d.mirrored).places + zeros := by
  obtain ⟨zeros, hzeros⟩ := @digitsUp_ofDigits d.fraction fun _ => digit_lt
  have hplaces : d.places = (digitsUp d.mirrored).length + zeros := by
    have hlength := congrArg List.length hzeros
    rwa [fraction, length_digits, List.length_append, List.length_replicate] at hlength
  have hfraction : d.unscaled % 10 ^ d.places = 10 ^ zeros * ofDigits (digitsUp d.mirrored).reverse := by
    have hreverse := congrArg (fun list => ofDigits list.reverse) hzeros
    rw [fraction, ofDigits_reverse, List.reverse_append, List.reverse_replicate, ofDigits_append, ofDigits_zeros,
      List.length_replicate, Nat.zero_add] at hreverse
    exact hreverse
  refine ⟨zeros, ?_, hplaces⟩
  calc d.unscaled
    _ = 10 ^ d.places * d.whole + d.unscaled % 10 ^ d.places := (Nat.div_add_mod _ _).symm
    _ = (ofMirrored d.whole d.mirrored).unscaled * 10 ^ zeros := by
      rw [hfraction, hplaces, Nat.pow_add, ofMirrored]
      ring

theorem value_ofMirrored (d : Decimal) : (ofMirrored d.whole d.mirrored).value = d.value := by
  obtain ⟨zeros, hunscaled, hplaces⟩ := d.ofMirrored_spec
  have hvalue := value_scale (ofMirrored d.whole d.mirrored).unscaled (ofMirrored d.whole d.mirrored).places zeros
  rw [← hunscaled, ← hplaces] at hvalue
  exact hvalue.symm

/-- Both parts are zero for zero only. -/
theorem parts_eq_zero {d : Decimal} : d.whole = 0 ∧ d.mirrored = 0 ↔ d.unscaled = 0 := by
  have hfraction : d.mirrored = 0 ↔ d.unscaled % 10 ^ d.places = 0 := by
    rw [← ofDigits_reverse, mirrored, fraction, ofDigits_eq_zero, ofDigits_eq_zero]
    simp only [List.mem_reverse]
  have hsplit := Nat.div_add_mod d.unscaled (10 ^ d.places)
  rw [hfraction, whole]
  constructor
  · rintro ⟨hwhole, hrest⟩
    rw [hwhole, hrest] at hsplit
    exact hsplit.symm
  · intro hzero
    rw [hzero, Nat.zero_div, Nat.zero_mod]
    exact ⟨rfl, rfl⟩

theorem ofMirrored_eq_zero {whole fraction : Nat} :
    (ofMirrored whole fraction).unscaled = 0 ↔ whole = 0 ∧ fraction = 0 := by
  have hfraction : ofDigits (digitsUp fraction).reverse = 0 ↔ fraction = 0 := by
    conv_rhs => rw [← ofDigits_digitsUp fraction]
    rw [ofDigits_eq_zero, ofDigits_eq_zero]
    simp only [List.mem_reverse]
  rw [ofMirrored]
  dsimp only
  rw [Nat.add_eq_zero_iff, hfraction, Nat.mul_eq_zero, or_iff_left (Nat.ne_of_gt (Nat.pow_pos (by decide)))]

theorem value_trimFrom (unscaled places : Nat) : (trimFrom unscaled places).value = value ⟨unscaled, places⟩ := by
  induction places generalizing unscaled with
  | zero => rfl
  | succ places ih =>
    rw [trimFrom]
    split
    · rename_i hzero
      have hten : unscaled / 10 * 10 ^ 1 = unscaled := by omega
      rw [ih, ← value_scale _ places 1, hten]
    · rfl

theorem places_trimFrom_le (unscaled places : Nat) : (trimFrom unscaled places).places ≤ places := by
  induction places generalizing unscaled with
  | zero => exact Nat.le_refl _
  | succ places ih =>
    rw [trimFrom]
    split
    · exact Nat.le_succ_of_le (ih _)
    · exact Nat.le_refl _

end Decimal

end PacketProtocol
