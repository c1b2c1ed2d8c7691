import PacketProtocol.Flags
import PacketProtocol.Proofs.Outcome
import PacketProtocol.Sector
/-!
# Sectors and flags are read back

An integer is read from the units it was put in, whatever their number. Flags are read from the
octets they were packed in, with those the last octet was filled up with behind them.
-/

namespace PacketProtocol

open scoped Numerals

namespace Sector

/-! ## Digits -/

/-- The low `width` base-128 digits of a magnitude, most significant first. -/
def digits : Nat → Nat → List Nat
  | 0, _ => []
  | width + 1, magnitude => magnitude / base ^ width % base :: digits width magnitude

theorem units_eq (negative : Bool) (width magnitude : Nat) :
    units negative width magnitude = (digits width magnitude).map (unit negative) := by
  induction width with
  | zero => rfl
  | succ width ih => rw [units, digits, List.map_cons, ih]

theorem length_units (negative : Bool) (width magnitude : Nat) : (units negative width magnitude).length = width := by
  induction width with
  | zero => rfl
  | succ width ih => rw [units, List.length_cons, ih]

theorem digits_lt {width magnitude d : Nat} (h : d ∈ digits width magnitude) : d < base := by
  induction width with
  | zero => cases h
  | succ width ih =>
    rcases List.mem_cons.1 h with rfl | h
    · exact Nat.mod_lt _ (by decide)
    · exact ih h

theorem foldl_digits (width magnitude acc : Nat) :
    (digits width magnitude).foldl (fun magnitude digit => base * magnitude + digit) acc =
      base ^ width * acc + magnitude % base ^ width := by
  induction width generalizing acc with
  | zero => simp [digits, Nat.mod_one]
  | succ width ih =>
    rw [digits, List.foldl_cons, ih, Nat.mod_pow_succ, Nat.pow_succ, Nat.mul_add, ← Nat.mul_assoc]
    omega

theorem ofDigits_digits {width magnitude : Nat} (h : magnitude < base ^ width) :
    ofDigits (digits width magnitude) = magnitude := by
  rw [ofDigits, foldl_digits, Nat.mul_zero, Nat.zero_add, Nat.mod_eq_of_lt h]

theorem lt_pow_digitCount (magnitude : Nat) : magnitude < base ^ digitCount magnitude := by
  induction magnitude using digitCount.induct with
  | case1 magnitude h => rw [digitCount, if_pos h]; exact h
  | case2 magnitude h ih =>
    rw [digitCount, if_neg h, Nat.add_comm, Nat.pow_succ]
    have : magnitude / base < base ^ digitCount (magnitude / base) := ih
    exact (Nat.div_lt_iff_lt_mul (by decide)).1 this

theorem digitCount_pos (magnitude : Nat) : 0 < digitCount magnitude := by
  rw [digitCount]
  split <;> omega

/-! ## Units -/

theorem toNat_unit {d : Nat} (negative : Bool) (h : d < base) :
    (unit negative d).toNat = if negative ∧ d ≠ 0 then d + base else d := by
  simp only [base] at h
  unfold unit
  cases negative <;> by_cases hd : d = 0 <;> simp [hd, base] <;> omega

theorem digit_unit {d : Nat} (negative : Bool) (h : d < base) : digit negative (unit negative d) = .ok d := by
  have hn := toNat_unit negative h
  have hz : unit negative d = 0 ↔ d = 0 := by
    rw [← UInt8.toNat_inj, hn]
    split
    · rename_i hd
      simp [base, hd.2]
    · simp
  unfold digit
  by_cases hd : d = 0
  · rw [if_pos (hz.2 hd), hd]
  · rw [if_neg (mt hz.1 hd), hn]
    cases negative with
    | false => simp
    | true =>
      have : base < d + base := by simp only [base]; omega
      simp [hd, this]

/-- A unit lies in the upper half iff it stands for a non-zero digit of a negative number. -/
theorem any_units {negative : Bool} {width magnitude : Nat} (h : magnitude < base ^ width)
    (hne : negative = true → magnitude ≠ 0) :
    (units negative width magnitude).any (fun unit => base ≤ unit.toNat) = negative := by
  rw [units_eq, List.any_map]
  cases negative with
  | false =>
    refine List.any_eq_false.2 fun d hd => ?_
    have := digits_lt hd
    simpa [toNat_unit false this] using this
  | true =>
    -- all digits zero would make the number zero
    by_contra hnone
    have hzero : ∀ d ∈ digits width magnitude, d = 0 := by
      intro d hd
      have hlt := digits_lt hd
      have := List.any_eq_false.1 (Bool.eq_false_iff.2 hnone) d hd
      by_contra hd0
      simp [toNat_unit true hlt, hd0] at this
    refine hne rfl ?_
    rw [← ofDigits_digits h]
    generalize digits width magnitude = ds at hzero
    unfold ofDigits
    induction ds with
    | nil => rfl
    | cons d ds ih =>
      rw [List.foldl_cons, hzero d (by simp)]
      exact ih fun d hd => hzero d (by simp [hd])

theorem digit_lt {negative : Bool} {unit : UInt8} {d : Nat} (hunit : negative = false → unit.toNat < base)
    (h : digit negative unit = .ok d) : d < base := by
  have hlt := unit.toNat_lt
  unfold digit at h
  split at h
  · cases h
    decide
  · split at h
    · cases h
      exact hunit (by simp_all)
    · split at h
      · have hdigit := Except.ok.inj h
        simp only [base] at *
        omega
      · cases h

theorem ofDigits_lt {digits : List Nat} (h : ∀ digit ∈ digits, digit < base) :
    ofDigits digits < base ^ digits.length := by
  have hfold : ∀ taken acc, acc < base ^ taken →
      digits.foldl (fun magnitude digit => base * magnitude + digit) acc < base ^ (taken + digits.length) := by
    induction digits with
    | nil => exact fun _ _ hacc => hacc
    | cons digit digits ih =>
      intro taken acc hacc
      obtain ⟨hdigit, hdigits⟩ := List.forall_mem_cons.1 h
      have hnext : base * acc + digit < base ^ (taken + 1) := by
        rw [Nat.pow_succ]
        simp only [base] at *
        omega
      rw [List.foldl_cons, List.length_cons, Nat.add_comm digits.length, ← Nat.add_assoc]
      exact ih hdigits (taken + 1) _ hnext
  have hlt := hfold 0 0 (by decide)
  rwa [Nat.zero_add] at hlt

theorem encode_eq_ok {n : Int64} {width : Nat} {bytes : Bytes} :
    encode n width = .ok bytes ↔
      (size n ≤ width ∧ width ≤ maxUnits) ∧ units (n.toInt < 0) width n.toInt.natAbs = bytes := by
  unfold encode
  split <;> simp [*]

theorem digitCount_le {magnitude width : Nat} (hwidth : 0 < width) (h : magnitude < base ^ width) :
    digitCount magnitude ≤ width := by
  induction width generalizing magnitude with
  | zero => omega
  | succ width ih =>
    rw [digitCount]
    split
    · omega
    · rename_i hlarge
      have hpos : 0 < width := by
        by_contra hzero
        obtain rfl : width = 0 := by omega
        exact hlarge (by simpa using h)
      have hhigh : magnitude / base < base ^ width := by
        rw [Nat.div_lt_iff_lt_mul (by decide)]
        exact h
      have := ih hpos hhigh
      omega

/-- Every integer has its units. -/
theorem size_le_maxUnits (n : Int64) : size n ≤ maxUnits := by
  have hlow := n.le_toInt
  have hhigh := n.toInt_lt
  refine digitCount_le (by decide) (Nat.lt_of_le_of_lt ?_ (by decide : 2 ^ 63 < base ^ maxUnits))
  omega

/-- So many units hold no larger integers. -/
theorem natAbs_lt_of_decode {bytes : Bytes} {n : Int64} (h : decode bytes = .ok n) :
    n.toInt.natAbs < base ^ bytes.length := by
  unfold decode at h
  split at h
  · cases h
  obtain ⟨digits, hdigits, h⟩ := Outcome.bind_eq_ok.1 h
  have hall := Outcome.mapM_eq_ok.1 hdigits
  have hlt : ofDigits digits < base ^ bytes.length := by
    rw [hall.length_eq]
    refine ofDigits_lt fun digit hdigit => ?_
    obtain ⟨unit, hunit, hread⟩ := Outcome.exists_of_forall₂ hall digit hdigit
    refine digit_lt (fun hnone => ?_) hread
    simpa using List.any_eq_false.1 hnone unit hunit
  dsimp only at h
  split at h
  · split at h
    · cases h
      rw [Int64.toInt_ofInt_of_le (by omega) (by omega), Int.natAbs_neg]
      exact hlt
    · cases h
  · split at h
    · cases h
      rw [Int64.toInt_ofInt_of_le (by omega) (by omega)]
      exact hlt
    · cases h

/-- An integer is read from its units. -/
theorem decode_encode {n : Int64} {width : Nat} {bytes : Bytes} (h : encode n width = .ok bytes) :
    decode bytes = .ok n := by
  obtain ⟨⟨hsize, hwidth⟩, rfl⟩ := encode_eq_ok.1 h
  have hpos : 0 < width := Nat.lt_of_lt_of_le (digitCount_pos _) hsize
  have hlt : n.toInt.natAbs < base ^ width :=
    Nat.lt_of_lt_of_le (lt_pow_digitCount _) (Nat.pow_le_pow_right (by decide) hsize)
  have hlength := length_units (n.toInt < 0) width n.toInt.natAbs
  have hnegative := @any_units (n.toInt < 0) width n.toInt.natAbs hlt (by simp; omega)
  have hdigits : (units (n.toInt < 0) width n.toInt.natAbs).mapM (digit (n.toInt < 0)) =
      .ok (digits width n.toInt.natAbs) := by
    rw [units_eq]
    refine Outcome.mapM_eq_ok.2 (List.forall₂_map_left_iff.2 ?_)
    exact List.forall₂_same.2 fun d hd => digit_unit _ (digits_lt hd)
  have hne : units (n.toInt < 0) width n.toInt.natAbs ≠ [] := List.ne_nil_of_length_pos (by omega)
  have hlow := n.le_toInt
  have hhigh := n.toInt_lt
  unfold decode
  rw [if_neg (by simp [hne, hlength, hwidth])]
  simp only [bind, Except.bind, pure, Except.pure, hnegative, hdigits, ofDigits_digits hlt, decide_eq_true_eq]
  by_cases hn : n.toInt < 0
  · have hneg : -(n.toInt.natAbs : Int) = n.toInt := by omega
    rw [if_pos hn, if_pos (by omega), hneg, Int64.ofInt_toInt]
  · rw [if_neg hn, if_pos (by omega), Int.natAbs_of_nonneg (by omega), Int64.ofInt_toInt]

end Sector

namespace Flags

theorem ofOctet_eight (a b c d e f g h : Bool) :
    ofOctet (toOctet [a, b, c, d, e, f, g, h]) = [a, b, c, d, e, f, g, h] := by
  revert a b c d e f g h
  decide

theorem sum_pad (weights : List Nat) (flags : List Bool) (count : Nat) :
    (List.zipWith (fun weight flag => if flag then weight else 0) weights
        (flags ++ List.replicate count false)).sum =
      (List.zipWith (fun weight flag => if flag then weight else 0) weights flags).sum := by
  induction weights generalizing flags count with
  | nil => simp
  | cons weight weights ih =>
    rcases flags with _ | ⟨flag, flags⟩
    · rcases count with _ | count
      · rfl
      · simpa [List.replicate_succ] using ih [] count
    · simpa using ih flags count

/-- An octet holds its flags; those it was not given are `false`. -/
theorem ofOctet_toOctet {flags : List Bool} (h : flags.length ≤ 8) :
    ofOctet (toOctet flags) = flags ++ List.replicate (8 - flags.length) false := by
  have hpad : toOctet (flags ++ List.replicate (8 - flags.length) false) = toOctet flags := by
    rw [toOctet, sum_pad]
    rfl
  have hlength : (flags ++ List.replicate (8 - flags.length) false).length = 8 := by simp; omega
  rw [← hpad]
  generalize flags ++ List.replicate (8 - flags.length) false = padded at hlength
  match padded, hlength with
  | [a, b, c, d, e, f, g, h], _ => exact ofOctet_eight a b c d e f g h

theorem length_unpack (bytes : Bytes) : (unpack bytes).length = 8 * bytes.length := by
  induction bytes with
  | nil => rfl
  | cons octet bytes ih =>
    rw [unpack, List.flatMap_cons, ← unpack, List.length_append, ih, List.length_cons, ofOctet, List.length_map]
    simp only [List.length_cons, List.length_nil]
    omega

theorem length_pack (flags : List Bool) : (pack flags).length = packedLength flags.length := by
  induction flags using pack.induct with
  | case1 => rw [pack]; rfl
  | case2 flag rest ih =>
    rw [pack, List.length_cons, ih, List.length_drop, List.length_cons]
    simp only [packedLength]
    omega

/-- Flags are read from their octets, with the `false` that the last one was filled up with. -/
theorem unpack_pack (flags : List Bool) :
    unpack (pack flags) = flags ++ List.replicate (8 * packedLength flags.length - flags.length) false := by
  induction flags using pack.induct with
  | case1 => rw [pack]; rfl
  | case2 flag rest ih =>
    have htake : (flag :: rest.take 7).length ≤ 8 := by rw [List.length_cons, List.length_take]; omega
    rw [pack, unpack, List.flatMap_cons, ← unpack, ih, ofOctet_toOctet htake]
    by_cases hlast : rest.length ≤ 7
    · have hcount : 8 * packedLength (flag :: rest).length - (flag :: rest).length = 8 - (flag :: rest).length := by
        simp only [packedLength, List.length_cons]
        omega
      rw [hcount, List.take_of_length_le hlast, List.drop_of_length_le hlast]
      simp [packedLength]
    · have hcount : 8 * packedLength (rest.drop 7).length - (rest.drop 7).length =
          8 * packedLength (flag :: rest).length - (flag :: rest).length := by
        simp only [packedLength, List.length_cons, List.length_drop]
        omega
      have hfull : 8 - (flag :: rest.take 7).length = 0 := by simp; omega
      rw [hcount, hfull, List.replicate_zero, List.append_nil, ← List.append_assoc, List.cons_append,
        List.take_append_drop]

end Flags

end PacketProtocol
