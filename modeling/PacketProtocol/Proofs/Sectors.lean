import Mathlib.Data.Nat.Digits.Lemmas
import Mathlib.Order.Bounds.Basic
import PacketProtocol.Proofs.Machine.Payload
/-!
# Units that are numbers

Not every string of octets is a number in units, but one that is has been written from exactly one number, and from
no other string of that length: writing and reading are inverse to each other. The machine, which calculates in
words, gives the same, so nothing is lost to a carry on the way.
-/

namespace PacketProtocol

open scoped Numerals

namespace Sector

variable {bytes : Bytes} {n : Int64}

/-! ## What units stand for -/

/-- The number whose base-128 digits the units show, whatever half they lie in. -/
def magnitude (units : Bytes) : Nat := Nat.ofDigits 128 (units.reverse.map fun unit => unit.toNat % 128)

/-- Whether a unit lies in the upper half. -/
def IsNegative (units : Bytes) : Prop := ∃ unit ∈ units, 128 < unit

/-- The number that the units show, under its sign. -/
def IsValue (units : Bytes) (n : Int) : Prop :=
  (IsNegative units → n = -magnitude units) ∧ (¬IsNegative units → n = magnitude units)

/-- Units of a number: not too many, `128` is none of them, those that are not zero lie in one half, and 64 bits hold
the magnitude under its sign. -/
structure WellFormed (units : Bytes) : Prop where
  length_pos : 1 ≤ units.length
  length_le : units.length ≤ 10
  not_base : 128 ∉ units
  one_half : (∀ unit ∈ units, unit ≠ 0 → unit < 128) ∨ ∀ unit ∈ units, unit ≠ 0 → 128 < unit
  nonnegative : ¬IsNegative units → magnitude units ≤ 2 ^ 63 - 1
  negative : IsNegative units → magnitude units ≤ 2 ^ 63

theorem ofDigits_map (bytes : Bytes) : ofDigits (bytes.map fun unit => unit.toNat % base) = magnitude bytes := by
  rw [ofDigits, magnitude, List.map_reverse, Nat.ofDigits_eq_foldr, List.foldr_reverse]
  exact congrArg (fun f => List.foldl f 0 _) (funext₂ fun magnitude digit => Nat.add_comm _ _)

/-- A unit that may stand under a sign shows its digit. -/
theorem digit_eq_ok {negative : Bool} {unit : UInt8} {d : Nat} (hunit : negative = false → unit.toNat < base) :
    digit negative unit = .ok d ↔ (negative = true → unit = 0 ∨ base < unit.toNat) ∧ unit.toNat % base = d := by
  have hlt := unit.toNat_lt
  unfold digit
  by_cases hzero : unit = 0
  · subst hzero
    simp
  · rw [if_neg hzero]
    cases negative with
    | false => simp [Nat.mod_eq_of_lt (hunit rfl)]
    | true =>
      by_cases hupper : base < unit.toNat
      · have hdigit : unit.toNat - base = unit.toNat % base := by
          simp only [base] at hupper ⊢
          omega
        simp [hupper, hdigit]
      · simp [hupper, hzero]

theorem mapM_digit_eq_ok {negative : Bool} {digits : List Nat}
    (hunits : ∀ unit ∈ bytes, negative = false → unit.toNat < base) :
    bytes.mapM (digit negative) = .ok digits ↔
      (∀ unit ∈ bytes, negative = true → unit = 0 ∨ base < unit.toNat) ∧
        bytes.map (fun unit => unit.toNat % base) = digits := by
  rw [Outcome.mapM_eq_ok, ← List.forall₂_eq_eq_eq, List.forall₂_map_left_iff, ← List.forall₂_and_left]
  -- that the units may stand under the sign is needed at each of them
  exact ⟨fun h => ((List.forall₂_and_left _ _).2 ⟨hunits, h⟩).imp fun unit d hunit => (digit_eq_ok hunit.1).1 hunit.2,
    fun h => ((List.forall₂_and_left _ _).2 ⟨hunits, h⟩).imp fun unit d hunit => (digit_eq_ok hunit.1).2 hunit.2⟩

/-- A magnitude that 64 bits hold under its sign. -/
theorem signed_eq_ok {negative : Bool} {magnitude : Nat} :
    Machine.signed negative magnitude = .ok n ↔
      if negative then magnitude ≤ 2 ^ 63 ∧ n.toInt = -magnitude
      else magnitude ≤ 2 ^ 63 - 1 ∧ n.toInt = magnitude := by
  have hlow := n.le_toInt
  have hhigh := n.toInt_lt
  unfold Machine.signed
  cases negative with
  | true =>
    simp only [if_true]
    split
    · rename_i hle
      have hvalue : (Int64.ofInt (-magnitude)).toInt = -magnitude := Int64.toInt_ofInt_of_le (by omega) (by omega)
      rw [Except.ok.injEq, ← Int64.toInt_inj, hvalue, eq_comm]
      exact (and_iff_right hle).symm
    · rename_i hgt
      exact iff_of_false nofun fun h => hgt h.1
  | false =>
    simp only [Bool.false_eq_true, if_false]
    split
    · rename_i hlt
      have hvalue : (Int64.ofInt magnitude).toInt = magnitude := Int64.toInt_ofInt_of_le (by omega) (by omega)
      rw [Except.ok.injEq, ← Int64.toInt_inj, hvalue, eq_comm]
      exact (and_iff_right (Nat.le_pred_of_lt hlt)).symm
    · rename_i hge
      simp only [reduceCtorEq, false_iff, not_and]
      omega

/-- What decides whether units are read. Here any unit that is not in the lower half tells the sign. -/
theorem decode_eq_ok_any {negative : Bool} (hany : (bytes.any fun unit => base ≤ unit.toNat) = negative) :
    decode bytes = .ok n ↔
      (1 ≤ bytes.length ∧ bytes.length ≤ 10) ∧ (∀ unit ∈ bytes, negative = true → unit = 0 ∨ 128 < unit) ∧
        if negative then magnitude bytes ≤ 2 ^ 63 ∧ n.toInt = -magnitude bytes
        else magnitude bytes ≤ 2 ^ 63 - 1 ∧ n.toInt = magnitude bytes := by
  have hunits : ∀ unit ∈ bytes, negative = false → unit.toNat < base := by
    rintro unit hunit rfl
    simpa using List.any_eq_false.1 hany unit hunit
  have hlength : (bytes.isEmpty || decide (maxUnits < bytes.length)) = true ↔ ¬(1 ≤ bytes.length ∧ bytes.length ≤ 10) := by
    rw [Bool.or_eq_true, List.isEmpty_iff_length_eq_zero, decide_eq_true_eq]
    show bytes.length = 0 ∨ 10 < bytes.length ↔ _
    omega
  unfold decode
  simp only [hany, hlength]
  split
  · rename_i hnot
    simp only [hnot, false_and, iff_false]
    nofun
  · rename_i hok
    rw [and_iff_right (not_not.1 hok), ← signed_eq_ok, ← ofDigits_map]
    constructor
    · intro h
      obtain ⟨digits, hdigits, hread⟩ := Outcome.bind_eq_ok.1 h
      obtain ⟨hsign, rfl⟩ := (mapM_digit_eq_ok hunits).1 hdigits
      exact ⟨hsign, hread⟩
    · rintro ⟨hsign, hread⟩
      exact Outcome.bind_eq_ok.2 ⟨_, (mapM_digit_eq_ok hunits).2 ⟨hsign, rfl⟩, hread⟩

/-- Exactly well-formed units are read, as the number they stand for. -/
theorem decode_eq_ok : decode bytes = .ok n ↔ WellFormed bytes ∧ IsValue bytes n.toInt := by
  generalize hany : (bytes.any fun unit => base ≤ unit.toNat) = negative
  rw [decode_eq_ok_any hany]
  cases negative with
  | false =>
    have hlower : ∀ unit ∈ bytes, unit < 128 := by
      intro unit hunit
      rw [UInt8.lt_iff_toNat_lt]
      show unit.toNat < base
      simpa using List.any_eq_false.1 hany unit hunit
    have hnot : ¬IsNegative bytes := fun ⟨unit, hunit, hupper⟩ =>
      UInt8.lt_irrefl _ (UInt8.lt_trans hupper (hlower unit hunit))
    simp only [Bool.false_eq_true, if_false]
    constructor
    · rintro ⟨⟨hpos, hle⟩, -, hfits, hvalue⟩
      exact ⟨⟨hpos, hle, fun hbase => UInt8.lt_irrefl _ (hlower 128 hbase), .inl fun unit hunit _ => hlower unit hunit,
        fun _ => hfits, fun h => absurd h hnot⟩, fun h => absurd h hnot, fun _ => hvalue⟩
    · rintro ⟨hwell, hvalue⟩
      exact ⟨⟨hwell.length_pos, hwell.length_le⟩, nofun, hwell.nonnegative hnot, hvalue.2 hnot⟩
  | true =>
    obtain ⟨unit, hunit, hupper⟩ := List.any_eq_true.1 hany
    have hupper : 128 ≤ unit := UInt8.le_iff_toNat_le.2 (of_decide_eq_true hupper)
    have hzero : unit ≠ 0 := by
      rintro rfl
      exact absurd hupper (by decide)
    simp only [forall_const, if_true]
    constructor
    · rintro ⟨⟨hpos, hle⟩, hsign, hfits, hvalue⟩
      have hnegative : IsNegative bytes := ⟨unit, hunit, (hsign unit hunit).resolve_left hzero⟩
      exact ⟨⟨hpos, hle, fun hbase => absurd (hsign 128 hbase) (by decide),
        .inr fun unit hunit hzero => (hsign unit hunit).resolve_left hzero,
        fun h => absurd hnegative h, fun _ => hfits⟩, fun _ => hvalue, fun h => absurd hnegative h⟩
    · rintro ⟨hwell, hvalue⟩
      have hhalf := hwell.one_half.resolve_left fun hlower =>
        UInt8.not_lt.2 hupper (hlower unit hunit hzero)
      have hnegative : IsNegative bytes := ⟨unit, hunit, hhalf unit hunit hzero⟩
      exact ⟨⟨hwell.length_pos, hwell.length_le⟩,
        fun unit hunit => or_iff_not_imp_left.2 (hhalf unit hunit), hwell.negative hnegative, hvalue.1 hnegative⟩

/-- Well-formed units stand for a number. -/
theorem exists_decode_iff : (∃ n, decode bytes = .ok n) ↔ WellFormed bytes := by
  constructor
  · rintro ⟨n, h⟩
    exact (decode_eq_ok.1 h).1
  · intro h
    by_cases hnegative : IsNegative bytes
    · have hfits := h.negative hnegative
      refine ⟨Int64.ofInt (-magnitude bytes), decode_eq_ok.2 ⟨h, fun _ => ?_, fun hnot => absurd hnegative hnot⟩⟩
      exact Int64.toInt_ofInt_of_le (by omega) (by omega)
    · have hfits := h.nonnegative hnegative
      refine ⟨Int64.ofInt (magnitude bytes), decode_eq_ok.2 ⟨h, fun hyes => absurd hyes hnegative, fun _ => ?_⟩⟩
      exact Int64.toInt_ofInt_of_le (by omega) (by omega)

/-! ## One string of bytes for one number -/

theorem magnitude_pos (h : IsNegative bytes) : 0 < magnitude bytes := by
  obtain ⟨unit, hunit, hupper⟩ := h
  have hlt := unit.toNat_lt
  have hupper : 128 < unit.toNat := UInt8.lt_iff_toNat_lt.1 hupper
  refine Nat.pos_of_ne_zero fun hzero => ?_
  have hdigit := Nat.digits_zero_of_eq_zero (by decide) hzero (unit.toNat % 128)
    (List.mem_map.2 ⟨unit, List.mem_reverse.2 hunit, rfl⟩)
  omega

/-- The sign of the number is told by the units. -/
theorem isNegative_iff {n : Int} (h : IsValue bytes n) : IsNegative bytes ↔ n < 0 := by
  constructor
  · intro hnegative
    have hpos := magnitude_pos hnegative
    have hvalue := h.1 hnegative
    omega
  · intro hlt
    by_contra hnot
    have hvalue := h.2 hnot
    omega

theorem natAbs_eq {n : Int} (h : IsValue bytes n) : n.natAbs = magnitude bytes := by
  by_cases hnegative : IsNegative bytes
  · rw [h.1 hnegative, Int.natAbs_neg, Int.natAbs_natCast]
  · rw [h.2 hnegative, Int.natAbs_natCast]

theorem WellFormed.lt_base (h : WellFormed bytes) (hnot : ¬IsNegative bytes) {octet : UInt8} (hoctet : octet ∈ bytes) :
    octet < 128 := by
  refine UInt8.lt_of_le_of_ne (UInt8.not_lt.1 fun hupper => hnot ⟨octet, hoctet, hupper⟩) ?_
  rintro rfl
  exact h.not_base hoctet

theorem WellFormed.base_lt (h : WellFormed bytes) (hnegative : IsNegative bytes) {octet : UInt8}
    (hoctet : octet ∈ bytes) (hzero : octet ≠ 0) : 128 < octet := by
  refine h.one_half.resolve_left (fun hlower => ?_) octet hoctet hzero
  obtain ⟨unit, hunit, hupper⟩ := hnegative
  have hlower := hlower unit hunit (by rintro rfl; exact absurd hupper (by decide))
  exact UInt8.lt_irrefl _ (UInt8.lt_trans hupper hlower)

/-- Units are made of their digits again. -/
theorem WellFormed.map_unit (h : WellFormed bytes) {negative : Bool} (hsign : negative = true ↔ IsNegative bytes) :
    (bytes.map fun octet => octet.toNat % base).map (unit negative) = bytes := by
  rw [List.map_map]
  refine (List.map_congr_left fun octet hoctet => ?_).trans (List.map_id bytes)
  have hlt := octet.toNat_lt
  rw [Function.comp_apply, id_eq, ← UInt8.toNat_inj, toNat_unit negative (Nat.mod_lt _ (by decide))]
  by_cases hzero : octet = 0
  · subst hzero
    simp
  · cases negative with
    | true =>
      have hupper : 128 < octet.toNat := UInt8.lt_iff_toNat_lt.1 (h.base_lt (hsign.1 rfl) hoctet hzero)
      have hdigit : octet.toNat % base = octet.toNat - 128 := by
        simp only [base]
        omega
      rw [hdigit, if_pos ⟨rfl, by omega⟩]
      exact Nat.sub_add_cancel (Nat.le_of_lt hupper)
    | false =>
      have hnot : ¬IsNegative bytes := fun hnegative => Bool.false_ne_true (hsign.2 hnegative)
      rw [if_neg (by simp)]
      exact Nat.mod_eq_of_lt (UInt8.lt_iff_toNat_lt.1 (h.lt_base hnot hoctet))

theorem map_mod_eq {other : Bytes} (hlength : bytes.length = other.length) (h : magnitude bytes = magnitude other) :
    (bytes.map fun octet => octet.toNat % base) = other.map fun octet => octet.toNat % base := by
  have hdigits : ∀ (octets : Bytes), ∀ digit ∈ octets.reverse.map (fun octet => octet.toNat % 128), digit < 128 := by
    intro octets digit hdigit
    obtain ⟨octet, -, rfl⟩ := List.mem_map.1 hdigit
    exact Nat.mod_lt _ (by decide)
  have hreversed := Nat.ofDigits_inj_of_len_eq (by decide) (by simpa using hlength) (hdigits bytes) (hdigits other) h
  rw [List.map_reverse, List.map_reverse, List.reverse_inj] at hreversed
  exact hreversed

/-- No other units of that number are read as the same integer. -/
theorem decode_inj {other : Bytes} (hunits : decode bytes = .ok n) (hother : decode other = .ok n)
    (hlength : bytes.length = other.length) : bytes = other := by
  obtain ⟨hwell, hvalue⟩ := decode_eq_ok.1 hunits
  obtain ⟨hwell', hvalue'⟩ := decode_eq_ok.1 hother
  have hdigits := map_mod_eq hlength ((natAbs_eq hvalue).symm.trans (natAbs_eq hvalue'))
  have hsign : decide (n.toInt < 0) = true ↔ n.toInt < 0 := decide_eq_true_iff
  rw [← hwell.map_unit (hsign.trans (isNegative_iff hvalue).symm), hdigits,
    hwell'.map_unit (hsign.trans (isNegative_iff hvalue').symm)]

/-- Units are written of an integer iff they are as many as asked for and are read as it. -/
theorem encode_iff_decode {width : Nat} : encode n width = .ok bytes ↔ decode bytes = .ok n ∧ bytes.length = width := by
  constructor
  · intro h
    obtain ⟨-, hunits⟩ := encode_eq_ok.1 h
    exact ⟨decode_encode h, hunits ▸ length_units _ _ _⟩
  · rintro ⟨h, rfl⟩
    obtain ⟨hwell, -⟩ := decode_eq_ok.1 h
    have hsize : size n ≤ bytes.length := digitCount_le hwell.length_pos (natAbs_lt_of_decode h)
    obtain ⟨written, hwritten⟩ : ∃ written, encode n bytes.length = .ok written :=
      ⟨_, encode_eq_ok.2 ⟨⟨hsize, hwell.length_le⟩, rfl⟩⟩
    obtain ⟨-, hunits⟩ := encode_eq_ok.1 hwritten
    have hlength : written.length = bytes.length := hunits ▸ length_units _ _ _
    rw [hwritten, decode_inj (decode_encode hwritten) h hlength]

/-- The size of an integer is the least number of digits that its magnitude fits. -/
theorem isLeast_size (n : Int64) : IsLeast {width | 1 ≤ width ∧ n.toInt.natAbs < 128 ^ width} (size n) :=
  ⟨⟨digitCount_pos _, lt_pow_digitCount _⟩, fun _ hwidth => digitCount_le hwidth.1 hwidth.2⟩

theorem units_zero (negative : Bool) (width : Nat) : units negative width 0 = List.replicate width 0 := by
  induction width with
  | zero => rfl
  | succ width ih =>
    rw [units, ih, Nat.zero_div, Nat.zero_mod, List.replicate_succ]
    cases negative <;> rfl

/-- The last unit is that of the lowest digit. -/
theorem units_concat (negative : Bool) (width magnitude : Nat) :
    units negative (width + 1) magnitude =
      units negative width (magnitude / base) ++ [unit negative (magnitude % base)] := by
  induction width with
  | zero => rw [units, units, units, Nat.pow_zero, Nat.div_one]; rfl
  | succ width ih =>
    rw [units, ih, units, Nat.div_div_eq_div_mul, ← Nat.pow_succ', List.cons_append]

end Sector

/-! ## On the machine -/

namespace Machine

/-- Counts the digits of a magnitude behind the first `size` of them. -/
def countDigits (magnitude size : Nat) : Option Nat :=
  if magnitude < Sector.base then some size
  else (add 64 size 1).bind fun size => countDigits (magnitude / Sector.base) size
termination_by magnitude
decreasing_by simp only [Sector.base] at *; omega

/-- Fills units from the last to the first, and leaves those before the highest digit as they are: zero. -/
def fillUnits (negative : Bool) : Nat → Nat → Option Bytes
  | 0, _ => some []
  | room + 1, magnitude =>
    if magnitude = 0 then some (List.replicate (room + 1) 0)
    else do
      let digit ← remainder magnitude Sector.base
      let unit ← if negative && digit != 0 then add 8 digit Sector.base else some digit
      let front ← fillUnits negative room (← quotient magnitude Sector.base)
      return front ++ [UInt8.ofNat unit]

def encodeSectors (n : Int64) (width : Nat) : Checked EncodeFault Bytes := do
  let needed ← liftM (countDigits n.toInt.natAbs 1)
  if width < needed ∨ Sector.maxUnits < width then throw (.sectorWidth n.toInt needed width)
  else liftM (fillUnits (n.toInt < 0) width n.toInt.natAbs)

theorem countDigits_eq {magnitude size : Nat} (h : size + Sector.digitCount magnitude ≤ 2 ^ 64) :
    countDigits magnitude size = some (size + (Sector.digitCount magnitude - 1)) := by
  induction magnitude using Sector.digitCount.induct generalizing size with
  | case1 magnitude hlt => rw [countDigits, if_pos hlt, Sector.digitCount, if_pos hlt]; rfl
  | case2 magnitude hge ih =>
    have hpos := Sector.digitCount_pos (magnitude / Sector.base)
    rw [Sector.digitCount, if_neg hge] at h ⊢
    rw [countDigits, if_neg hge, add_of_lt (by omega), Option.bind_some, ih (by omega)]
    exact congrArg some (by omega)

theorem fillUnits_eq (negative : Bool) (room magnitude : Nat) :
    fillUnits negative room magnitude = some (Sector.units negative room magnitude) := by
  induction room generalizing magnitude with
  | zero => rfl
  | succ room ih =>
    rw [fillUnits]
    split
    · rename_i hzero
      rw [hzero, Sector.units_zero]
    · have hdigit : magnitude % Sector.base < Sector.base := Nat.mod_lt _ (by decide)
      -- a digit is below 128, so it can be moved into the upper half of an octet
      have hadd : add 8 (magnitude % Sector.base) Sector.base = some (magnitude % Sector.base + Sector.base) :=
        add_of_lt (by simp only [Sector.base] at *; omega)
      rw [remainder_of_ne (by decide), quotient_of_ne (by decide), Sector.units_concat, Sector.unit]
      simp only [Option.bind_eq_bind, Option.bind_some, ih, hadd]
      split <;> rfl

theorem encodeSectors_eq (n : Int64) (width : Nat) : encodeSectors n width = safe (Sector.encode n width) := by
  have hsize : Sector.digitCount n.toInt.natAbs ≤ 10 := Sector.size_le_maxUnits n
  have hpos := Sector.digitCount_pos n.toInt.natAbs
  have hcount : countDigits n.toInt.natAbs 1 = some (Sector.size n) := by
    rw [countDigits_eq (by omega)]
    exact congrArg some (by rw [Sector.size]; omega)
  rw [encodeSectors, hcount, fillUnits_eq, Sector.encode]
  show (if _ then _ else _) = _
  by_cases hfits : Sector.size n ≤ width ∧ width ≤ Sector.maxUnits
  · rw [if_pos hfits, if_neg (by omega)]
    rfl
  · rw [if_neg hfits, if_pos (by omega)]
    rfl

end Machine

namespace Sector

/-- An integer is written in as many units as its size or more, up to ten, and what is written is read as that integer;
what is read is what would be written, in as many units. Well-formed units are read, and nothing else. The machine
does the same in words of 64 bits and 8, without a product or a sum that does not fit. -/
theorem encode_decode_inverse (n : Int64) (width : Nat) (units : Bytes) :
    ((∃ written, encode n width = .ok written) ↔ size n ≤ width ∧ width ≤ 10) ∧
      IsLeast {width | 1 ≤ width ∧ n.toInt.natAbs < 128 ^ width} (size n) ∧
      (encode n width = .ok units ↔ decode units = .ok n ∧ units.length = width) ∧
      ((∃ m, decode units = .ok m) ↔ WellFormed units) ∧
      (decode units = .ok n ↔ WellFormed units ∧ IsValue units n.toInt) ∧
      Machine.encodeSectors n width = Machine.safe (encode n width) ∧
      Machine.decodeSectors units = Machine.safe (decode units) := by
  have hwritten : (∃ written, encode n width = .ok written) ↔ size n ≤ width ∧ width ≤ 10 :=
    ⟨fun ⟨_, h⟩ => (encode_eq_ok.1 h).1, fun h => ⟨_, encode_eq_ok.2 ⟨h, rfl⟩⟩⟩
  exact ⟨hwritten, isLeast_size n, encode_iff_decode, exists_decode_iff, decode_eq_ok,
    Machine.encodeSectors_eq n width, Machine.decodeSectors_eq units⟩

/-- The tenth digit of the least integer is one that the greatest has no room for. -/
example : decode (129 :: List.replicate 9 0) = .ok Int64.minValue ∧
    decode (1 :: List.replicate 9 0) = .error .sectorOverflow := ⟨by cbv, by cbv⟩

end Sector

end PacketProtocol
