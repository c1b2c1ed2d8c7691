import PacketProtocol.Proofs.Binary.Nearest
import PacketProtocol.Proofs.Payload
/-!
# Members of enum packages

A sender means a member by a value that is the same, and of two numbers the same quantity, however they are held. But
integers are rounded to doubles before they are compared, so an integer past `2 ^ 53` is also taken for its
neighbours. Apart from these a value is encoded iff it is a member, as the index of the first that is the same, and
that member is decoded.
-/

namespace PacketProtocol

open scoped Numerals

/-! ## Quantities -/

/-- What a number is, however it is held: a fraction, or an infinity. -/
inductive Quantity where
  | finite (r : ℚ)
  | infinite (negative : Bool)

namespace Binary64

variable {x y : Binary64} {n : Int}

/-- A NaN is no quantity. -/
def quantity? (x : Binary64) : Option Quantity :=
  if x.isFinite then some (.finite x.value)
  else if x.isNaN then none
  else some (.infinite x.negative)

theorem quantity?_eq_finite {r : ℚ} : x.quantity? = some (.finite r) ↔ x.isFinite = true ∧ x.value = r := by
  unfold quantity?
  split
  · simp [*]
  · split <;> simp [*]

theorem quantity?_eq_infinite {negative : Bool} : x.quantity? = some (.infinite negative) ↔
    x.magnitude = Format.binary64.infinity ∧ x.negative = negative := by
  unfold quantity? isFinite isNaN
  split
  · rename_i hfinite
    simp [Nat.ne_of_lt (isFinite_iff.1 hfinite)]
  · rename_i hfinite
    split
    · rename_i hnan
      have hgt : Format.binary64.infinity < x.magnitude := of_decide_eq_true hnan
      simp [Nat.ne_of_gt hgt]
    · rename_i hnan
      have heq : x.magnitude = Format.binary64.infinity := by
        simp only [decide_eq_true_eq, Nat.not_lt] at hfinite hnan
        exact Nat.le_antisymm hnan hfinite
      simp [heq]

theorem quantity?_isSome (h : x.isNaN = false) : ∃ q, x.quantity? = some q := by
  unfold quantity?
  by_cases hfinite : x.isFinite = true
  · exact ⟨_, if_pos hfinite⟩
  · exact ⟨_, (if_neg hfinite).trans (if_neg (by simp [h]))⟩

theorem isNaN_of_quantity? {q : Quantity} (h : x.quantity? = some q) : x.isNaN = false := by
  cases q with
  | finite r => exact isNaN_of_isFinite (quantity?_eq_finite.1 h).1
  | infinite negative =>
    rw [isNaN, (quantity?_eq_infinite.1 h).1, decide_eq_false_iff_not]
    exact Nat.lt_irrefl _

/-- Doubles are equal as numbers iff they are the same quantity. -/
theorem equal_iff : x.equal y = true ↔ ∃ q, x.quantity? = some q ∧ y.quantity? = some q := by
  have hequal : x.equal y = true ↔ (x.isNaN = false ∧ y.isNaN = false) ∧
      x.magnitude = y.magnitude ∧ (x.negative = y.negative ∨ x.magnitude = 0) := by
    simp [equal, and_assoc]
  rw [hequal]
  constructor
  · rintro ⟨⟨hx, -⟩, hmagnitude, hsign⟩
    obtain ⟨q, hq⟩ := quantity?_isSome hx
    refine ⟨q, hq, ?_⟩
    cases q with
    | finite r =>
      obtain ⟨hfinite, hvalue⟩ := quantity?_eq_finite.1 hq
      refine quantity?_eq_finite.2 ⟨?_, ?_⟩
      · rwa [isFinite, ← hmagnitude]
      · rw [← hvalue, value_eq_iff.2 ⟨hmagnitude, hsign⟩]
    | infinite negative =>
      obtain ⟨hinfinite, hnegative⟩ := quantity?_eq_infinite.1 hq
      have hsame := hsign.resolve_right (by rw [hinfinite]; decide)
      exact quantity?_eq_infinite.2 ⟨hmagnitude ▸ hinfinite, hsame ▸ hnegative⟩
  · rintro ⟨q, hx, hy⟩
    refine ⟨⟨isNaN_of_quantity? hx, isNaN_of_quantity? hy⟩, ?_⟩
    cases q with
    | finite r =>
      exact value_eq_iff.1 ((quantity?_eq_finite.1 hx).2.trans (quantity?_eq_finite.1 hy).2.symm)
    | infinite negative =>
      obtain ⟨hxmagnitude, hxsign⟩ := quantity?_eq_infinite.1 hx
      obtain ⟨hymagnitude, hysign⟩ := quantity?_eq_infinite.1 hy
      exact ⟨hxmagnitude.trans hymagnitude.symm, .inl (hxsign.trans hysign.symm)⟩

/-! ## Integers -/

theorem signed_natAbs (n : Int) : signed (n < 0) n.natAbs = n := by
  unfold signed
  rw [Nat.cast_natAbs]
  by_cases hneg : n < 0
  · rw [decide_eq_true hneg, if_pos rfl, abs_of_neg hneg, Int.cast_neg, neg_neg]
  · rw [decide_eq_false hneg, if_neg Bool.false_ne_true, abs_of_nonneg (Int.not_lt.1 hneg)]

/-- An integer that a magnitude stands for is rounded to it. -/
theorem quantity?_ofInt {m : Nat} (hm : m < Format.binary64.infinity)
    (h : (Format.binary64.scaled m).value = n.natAbs) : (ofInt n).quantity? = some (.finite n) := by
  have hround : Format.binary64.round n.natAbs 1 = m := by
    rw [← Format.round_scaled hm]
    refine Format.round_congr Nat.one_pos (Scaled.denominator_pos _) ?_
    rw [Scaled.numerator_div_denominator, h, Nat.cast_one, div_one]
  refine quantity?_eq_finite.2 ⟨?_, ?_⟩
  · rw [isFinite, ofInt, magnitude_ofRatio, hround]
    exact decide_eq_true hm
  · rw [ofInt, value_ofRatio, hround, h, signed_natAbs]

/-- An integer that is the value of some double is not changed by rounding. -/
theorem quantity?_ofInt_of_eq (h : x.quantity? = some (.finite n)) : (ofInt n).quantity? = some (.finite n) := by
  obtain ⟨hfinite, hvalue⟩ := quantity?_eq_finite.1 h
  refine quantity?_ofInt (isFinite_iff.1 hfinite) ?_
  rw [Nat.cast_natAbs, Int.cast_abs, ← hvalue]
  exact x.abs_value.symm

/-- Up to `2 ^ 53` every integer is a double. -/
theorem quantity?_ofInt_of_le (h : n.natAbs ≤ 2 ^ 53) : (ofInt n).quantity? = some (.finite n) := by
  obtain hzero | hpos := Nat.eq_zero_or_pos n.natAbs
  · refine quantity?_ofInt (m := 0) (by decide) ?_
    rw [Format.value_zero, hzero, Nat.cast_zero]
  · have hleast : Format.binary64.minScale ≤ 0 := by decide
    have hgreatest : 0 + 3 ≤ Format.binary64.minScale + 2 ^ Format.binary64.exponentBits := by decide
    obtain hlt | heq := Nat.lt_or_eq_of_le h
    · have hself : ((n.natAbs : Nat) : ℚ) / (1 : Nat) = Scaled.value ⟨n.natAbs, 0⟩ := by simp [Scaled.value]
      obtain ⟨-, hfinite, hvalue⟩ := @Format.round_exact Format.binary64 ⟨n.natAbs, 0⟩ n.natAbs 1 hpos hlt hleast
        hgreatest Nat.one_pos hself
      exact quantity?_ofInt hfinite (by simpa [Scaled.value] using hvalue)
    · have hself : ((2 ^ 53 : Nat) : ℚ) / (1 : Nat) = Scaled.value ⟨2 ^ 52, 1⟩ := by norm_num [Scaled.value]
      obtain ⟨-, hfinite, hvalue⟩ := @Format.round_exact Format.binary64 ⟨2 ^ 52, 1⟩ (2 ^ 53) 1 (by decide) (by decide)
        (by decide) (by decide) Nat.one_pos hself
      refine quantity?_ofInt hfinite ?_
      rw [hvalue, heq]
      norm_num [Scaled.value]

end Binary64

/-! ## Values -/

namespace Value

variable {a b : Value} {x y : Binary64} {q : Quantity}

/-- The quantity of an integer or a double. -/
def quantity? : Value → Option Quantity
  | int n => some (.finite n.toInt)
  | number x => x.quantity?
  | _ => none

/-- Two numbers that are the same quantity, or the same value of another kind. -/
def Equals (a b : Value) : Prop :=
  (∃ q, a.quantity? = some q ∧ b.quantity? = some q) ∨ a.number? = none ∧ a = b

/-- Two different quantities that are equal as doubles. -/
def Blurs (a b : Value) : Prop :=
  ∃ x y p q, a.number? = some x ∧ b.number? = some y ∧ x.equal y = true ∧
    a.quantity? = some p ∧ b.quantity? = some q ∧ p ≠ q

theorem quantity?_of_none (h : a.number? = none) : a.quantity? = none := by
  cases a with
  | int n => cases h
  | number x => cases h
  | _ => rfl

theorem agrees_of_number? (ha : a.number? = some x) (hb : b.number? = some y) : a.agrees b = x.equal y := by
  cases a <;> cases b <;> cases ha <;> cases hb <;> rfl

/-- Values that are not both numbers agree iff they are the same. -/
theorem agrees_of_none (hlist : a.isList = false) (h : a.number? = none ∨ b.number? = none) :
    a.agrees b = true ↔ a.number? = none ∧ a = b := by
  cases a <;> cases b <;> simp_all [agrees, same, number?, isList]

/-- A number that is not rounded is the quantity of its double. -/
theorem quantity?_of_number? (h : a.number? = some x) (hexact : ∀ n, a = int n → n.toInt.natAbs ≤ 2 ^ 53)
    (hq : a.quantity? = some q) : x.quantity? = some q := by
  cases a with
  | int n =>
    cases h
    rw [← hq]
    exact Binary64.quantity?_ofInt_of_le (hexact n rfl)
  | number y =>
    cases h
    exact hq
  | _ => cases h

/-- Only integers past `2 ^ 53` are blurred. -/
theorem Blurs.exists_int (h : a.Blurs b) : ∃ n : Int64, (a = int n ∨ b = int n) ∧ 2 ^ 53 < n.toInt.natAbs := by
  obtain ⟨x, y, p, q, hx, hy, hequal, hp, hq, hne⟩ := h
  by_contra hnone
  push Not at hnone
  obtain ⟨r, hxr, hyr⟩ := Binary64.equal_iff.1 hequal
  have hxp := quantity?_of_number? hx (fun n hn => hnone n (.inl hn)) hp
  have hyq := quantity?_of_number? hy (fun n hn => hnone n (.inr hn)) hq
  rw [hxr] at hxp
  rw [hyr] at hyq
  exact hne (Option.some.inj (hxp.symm.trans hyq))

/-- A number that is equal to another as a double is some quantity. -/
theorem exists_quantity? (h : a.number? = some x) (hq : x.quantity? = some q) : ∃ p, a.quantity? = some p := by
  cases a with
  | int n => exact ⟨_, rfl⟩
  | number y =>
    cases h
    exact ⟨q, hq⟩
  | _ => cases h

/-- Two numbers that are the same quantity are equal as doubles. -/
theorem equal_of_quantity? (ha : a.number? = some x) (hb : b.number? = some y) (haq : a.quantity? = some q)
    (hbq : b.quantity? = some q) : x.equal y = true := by
  cases a with
  | int n =>
    cases ha
    cases haq
    cases b with
    | int m =>
      cases hb
      have hnm : n.toInt = m.toInt := by simpa [quantity?] using hbq.symm
      obtain ⟨r, hr⟩ := Binary64.quantity?_isSome (Binary64.isNaN_ofRatio (n.toInt < 0) n.toInt.natAbs 1)
      rw [← hnm]
      exact Binary64.equal_iff.2 ⟨r, hr, hr⟩
    | number z =>
      cases hb
      exact Binary64.equal_iff.2 ⟨_, Binary64.quantity?_ofInt_of_eq hbq, hbq⟩
    | _ => cases hb
  | number z =>
    cases ha
    cases b with
    | int m =>
      cases hb
      cases hbq
      exact Binary64.equal_iff.2 ⟨_, haq, Binary64.quantity?_ofInt_of_eq haq⟩
    | number w =>
      cases hb
      exact Binary64.equal_iff.2 ⟨q, haq, hbq⟩
    | _ => cases hb
  | _ => cases ha

/-- What a member agrees with: what is equal to it, and what its double or the other's blurs. -/
theorem agrees_iff (hlist : a.isList = false) : a.agrees b = true ↔ a.Equals b ∨ a.Blurs b := by
  cases ha : a.number? with
  | none =>
    rw [agrees_of_none hlist (.inl ha)]
    simp [Equals, Blurs, ha, quantity?_of_none ha]
  | some x =>
    cases hb : b.number? with
    | none =>
      rw [agrees_of_none hlist (.inr hb)]
      simp [Equals, Blurs, ha, hb, quantity?_of_none hb]
    | some y =>
      rw [agrees_of_number? ha hb]
      constructor
      · intro hequal
        obtain ⟨r, hx, hy⟩ := Binary64.equal_iff.1 hequal
        obtain ⟨p, hp⟩ := exists_quantity? ha hx
        obtain ⟨q, hq⟩ := exists_quantity? hb hy
        by_cases hpq : p = q
        · exact .inl (.inl ⟨q, hpq ▸ hp, hq⟩)
        · exact .inr ⟨x, y, p, q, ha, hb, hequal, hp, hq, hpq⟩
      · rintro ((⟨q, hp, hq⟩ | ⟨hnone, -⟩) | ⟨x', y', -, -, hx', hy', hequal, -⟩)
        · exact equal_of_quantity? ha hb hp hq
        · rw [ha] at hnone
          cases hnone
        · rw [ha] at hx'
          rw [hb] at hy'
          cases hx'
          cases hy'
          exact hequal

end Value

/-! ## Members -/

/-- The index of a value is that of the first member that agrees with it. -/
theorem EnumPackage.indexOf?_eq_some {package : EnumPackage} {value : Value} {index : Nat} :
    package.indexOf? value = some index ↔ ∃ front member back, package.members = front ++ member :: back ∧
      front.length = index ∧ (∀ earlier ∈ front, earlier.agrees value = false) ∧ member.agrees value = true := by
  unfold indexOf?
  rw [List.findIdx?_eq_some_iff_getElem]
  constructor
  · rintro ⟨hlt, hmember, hearlier⟩
    refine ⟨package.members.take index, package.members[index], package.members.drop (index + 1), ?_, ?_, ?_, hmember⟩
    · rw [List.getElem_cons_drop, List.take_append_drop]
    · rw [List.length_take, Nat.min_eq_left (Nat.le_of_lt hlt)]
    · intro earlier hmem
      obtain ⟨j, hj, rfl⟩ := List.mem_take_iff_getElem.1 hmem
      simpa using hearlier j (by omega)
  · rintro ⟨front, member, back, hmembers, rfl, hearlier, hmember⟩
    simp only [hmembers]
    refine ⟨by simp, by simpa using hmember, fun j hj => ?_⟩
    rw [List.getElem_append_left hj]
    simpa using hearlier _ (List.getElem_mem hj)

namespace PayloadKind

variable {package : EnumPackage} {value : Value} {bytes : Bytes}

theorem encode_member_eq_ok : (enum package).encode [value] = .ok bytes ↔
    ∃ index, package.indexOf? value = some index ∧ bytes = [UInt8.ofNat index] := by
  simp only [encode, List.mapM_cons, List.mapM_nil, encodeMember, Outcome.bind_eq_ok, Outcome.pure_eq_ok]
  constructor
  · rintro ⟨octet, hoctet, rest, rfl, rfl⟩
    split at hoctet
    · rename_i index hindex
      cases hoctet
      exact ⟨index, hindex, rfl⟩
    · cases hoctet
  · rintro ⟨index, hindex, rfl⟩
    rw [hindex]
    exact ⟨_, rfl, [], rfl, rfl⟩

/-- A value is encoded iff a member is equal to it, or is another quantity with the same double, which takes an integer
past `2 ^ 53`. It goes as the index of the first such member, and that member is decoded. -/
theorem encode_member_iff (hp : package.Declared) (value : Value) :
    ((∃ bytes, (enum package).encode [value] = .ok bytes) ↔
      ∃ member ∈ package.members, member.Equals value ∨ member.Blurs value) ∧
    (∀ bytes, (enum package).encode [value] = .ok bytes →
      ∃ front member back, package.members = front ++ member :: back ∧
        (∀ earlier ∈ front, ¬ (earlier.Equals value ∨ earlier.Blurs value)) ∧
        (member.Equals value ∨ member.Blurs value) ∧
        front.length < 255 ∧ bytes = [UInt8.ofNat front.length] ∧
        ∀ capacity, 0 < capacity → (enum package).decode bytes capacity = .ok [member]) ∧
    (∀ member, Value.Blurs member value →
      ∃ n : Int64, (member = .int n ∨ value = .int n) ∧ 2 ^ 53 < n.toInt.natAbs) := by
  have hwell := hp.wellFormed
  have hagrees := fun member hmember => Value.agrees_iff (b := value) (hwell.scalars member hmember)
  refine ⟨⟨?_, ?_⟩, ?_, fun member hblurs => hblurs.exists_int⟩
  · rintro ⟨bytes, hbytes⟩
    obtain ⟨index, hindex, -⟩ := encode_member_eq_ok.1 hbytes
    obtain ⟨front, member, back, hmembers, -, -, hmember⟩ := EnumPackage.indexOf?_eq_some.1 hindex
    have hmem : member ∈ package.members := by simp [hmembers]
    exact ⟨member, hmem, (hagrees member hmem).1 hmember⟩
  · rintro ⟨member, hmem, hmember⟩
    obtain ⟨index, hindex⟩ : ∃ index, package.indexOf? value = some index := by
      rw [← Option.isSome_iff_exists, EnumPackage.indexOf?, List.findIdx?_isSome, List.any_eq_true]
      exact ⟨member, hmem, (hagrees member hmem).2 hmember⟩
    exact ⟨_, encode_member_eq_ok.2 ⟨index, hindex, rfl⟩⟩
  · intro bytes hbytes
    obtain ⟨index, hindex, rfl⟩ := encode_member_eq_ok.1 hbytes
    obtain ⟨front, member, back, hmembers, rfl, hearlier, hmember⟩ := EnumPackage.indexOf?_eq_some.1 hindex
    have hmem : member ∈ package.members := by simp [hmembers]
    refine ⟨front, member, back, hmembers, ?_, (hagrees member hmem).1 hmember, ?_, rfl, ?_⟩
    · intro earlier hfront hmeans
      have htrue := (hagrees earlier (by simp [hmembers, hfront])).2 hmeans
      rw [hearlier earlier hfront] at htrue
      cases htrue
    · have hle := hwell.members_le
      rw [hmembers, List.length_append, List.length_cons, EnumPackage.maxMembers] at hle
      omega
    · intro capacity hcapacity
      have hkind : (enum package).Declared := hp
      rw [decode_encode hkind hbytes hcapacity]
      have harrived : (enum package).arrived value = member := by
        simp [arrived, hindex, hmembers]
      simp [canonical, padding, harrived]

/-- Members of which two are equal, and the last integer up to which all are doubles. -/
def crowded : EnumPackage := ⟨"e", [.int 1, .number ⟨0x3ff0000000000000⟩, .int 9007199254740992]⟩

/-- The double one goes as the integer one, which stands first. The integer behind the last exact one goes as a member
that it is not equal to. -/
theorem encode_member_iff_crowded : crowded.Declared ∧
    (enum crowded).encode [.number ⟨0x3ff0000000000000⟩] = .ok [0] ∧
    (enum crowded).encode [.int 9007199254740993] = .ok [2] ∧
    (∃ member ∈ crowded.members, member.Equals (.int 9007199254740993) ∨ member.Blurs (.int 9007199254740993)) ∧
    ¬ (∃ member ∈ crowded.members, member.Equals (.int 9007199254740993)) := by
  have hdeclared : crowded.Declared := ⟨"e", crowded.members, rfl⟩
  have hone : (enum crowded).encode [.number ⟨0x3ff0000000000000⟩] = .ok [0] :=
    encode_member_eq_ok.2 ⟨0, by decide +kernel, rfl⟩
  have hlarge : (enum crowded).encode [.int 9007199254740993] = .ok [2] :=
    encode_member_eq_ok.2 ⟨2, by decide +kernel, rfl⟩
  refine ⟨hdeclared, hone, hlarge, (encode_member_iff hdeclared _).1.1 ⟨_, hlarge⟩, ?_⟩
  rintro ⟨member, hmem, hequals⟩
  have hagrees := (Value.agrees_iff (hdeclared.wellFormed.scalars member hmem)).2 (.inl hequals)
  simp only [crowded, List.mem_cons, List.not_mem_nil, or_false] at hmem
  obtain rfl | rfl | rfl := hmem
  · exact absurd hagrees (by decide +kernel)
  · exact absurd hagrees (by decide +kernel)
  · obtain ⟨q, hmember, hvalue⟩ | ⟨hnone, -⟩ := hequals
    · have hsame := hmember.trans hvalue.symm
      simp only [Value.quantity?, Option.some.injEq, Quantity.finite.injEq, Int.cast_inj] at hsame
      exact absurd hsame (by decide)
    · cases hnone

end PayloadKind

end PacketProtocol
