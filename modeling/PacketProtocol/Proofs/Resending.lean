import PacketProtocol.Proofs.Decimals
import PacketProtocol.Proofs.Retelling
/-!
# Payloads that are sent on

What a kind decodes lies in its encoder's domain, and what is encoded again decodes to the same values, although it
may be other octets. Two kinds make exceptions: of a decimal only so many places are kept, and an enum value goes as
the first member that agrees with it, which a NaN has not.
-/

namespace PacketProtocol

open scoped Numerals

/-! ## What is read -/

/-- What holds of all that an entry's parser gives holds of the entries read to the end. -/
theorem Parser.many_forall {α : Type} {entry : Parser α} {post : α → Prop} (hentry : entry.Delimits post)
    {bytes : Bytes} {as : List α} (h : many entry bytes = .ok as) : ∀ a ∈ as, post a := by
  induction bytes using many.induct entry generalizing as with
  | case1 bytes hempty =>
    rw [many, if_pos hempty] at h
    cases h
    intro a ha
    cases ha
  | case2 bytes hempty fault hread =>
    rw [many, if_neg hempty, hread] at h
    cases h
  | case3 bytes hempty a rest hread hless fault hrest ih =>
    rw [many, if_neg hempty, hread] at h
    dsimp only at h
    rw [if_pos hless, hrest] at h
    cases h
  | case4 bytes hempty a rest hread hless values hrest ih =>
    rw [many, if_neg hempty, hread] at h
    dsimp only at h
    rw [if_pos hless, hrest] at h
    cases h
    exact List.forall_mem_cons.2 ⟨(hentry _ _ _ hread).1, ih hrest⟩
  | case5 bytes hempty a rest hread hmore =>
    rw [many, if_neg hempty, hread] at h
    dsimp only at h
    rw [if_neg hmore] at h
    cases h

namespace PayloadKind

theorem length_le_of_mem_pieces {α : Type} {width : Nat} {list piece : List α} (h : piece ∈ pieces width list) :
    piece.length ≤ width := by
  induction list using pieces.induct width with
  | case1 list hnone =>
    rw [pieces, if_pos hnone] at h
    cases h
  | case2 list hsome ih =>
    rw [pieces, if_neg hsome] at h
    obtain rfl | h := List.mem_cons.1 h
    · exact List.length_take_le _ _
    · exact ih h

/-- What a kind reads. -/
def Yields (kind : PayloadKind) (value : Value) : Prop :=
  match kind with
  | none => False
  | raw => ∃ text, value = .string text
  | strings => ∃ text : String, value = .string text ∧ text.utf8ByteSize < Varint.bound
  | intsFixed => ∃ n : Int64, value = .int n ∧ n.toInt.natAbs ≤ fixedIntBound
  | intsDynamic => ∃ n, value = .int n
  | decimals => ∃ x : Binary64, value = .number x ∧ (x.magnitude = 0 → x.negative = false)
  | booleans => ∃ flag, value = .bool flag
  | enum package => value ∈ package.members
  | floats => ∃ x : Binary32, value = .number x.toBinary64

variable {kind : PayloadKind} {bytes : Bytes} {capacity : Nat} {values : List Value}

theorem int_of_decodeInt {units : Bytes} {value : Value} (h : decodeInt units = .ok value) :
    ∃ n : Int64, value = .int n ∧ n.toInt.natAbs < Sector.base ^ units.length := by
  obtain ⟨n, hn, rfl⟩ := Outcome.map_eq_ok.1 h
  exact ⟨n, rfl, Sector.natAbs_lt_of_decode hn⟩

theorem yields_of_read (h : kind.read bytes capacity = .ok values) : ∀ value ∈ values, kind.Yields value := by
  cases kind with
  | none =>
    cases h
    intro value hvalue
    cases hvalue
  | raw =>
    simp only [read] at h
    split at h
    · rename_i text _
      cases h
      exact List.forall_mem_singleton.2 ⟨text, rfl⟩
    · cases h
  | strings =>
    exact Parser.many_forall (Parser.text_delimits.map fun text htext => ⟨text, rfl, htext⟩) h
  | intsFixed =>
    intro value hvalue
    obtain ⟨units, hunits, hread⟩ := Outcome.exists_of_forall₂ (Outcome.mapM_eq_ok.1 h) value hvalue
    obtain ⟨n, rfl, hn⟩ := int_of_decodeInt hread
    have hlength := length_le_of_mem_pieces hunits
    have hlt : n.toInt.natAbs < Sector.base ^ 2 :=
      Nat.lt_of_lt_of_le hn (Nat.pow_le_pow_right (by decide) hlength)
    exact ⟨n, rfl, Nat.le_of_lt_succ hlt⟩
  | intsDynamic =>
    intro value hvalue
    simp only [read] at h
    split at h
    · cases h
      cases hvalue
    · obtain ⟨units, -, hread⟩ := Outcome.exists_of_forall₂ (Outcome.mapM_eq_ok.1 h) value hvalue
      obtain ⟨n, rfl, -⟩ := int_of_decodeInt hread
      exact ⟨n, rfl⟩
  | decimals =>
    exact Parser.many_forall (Fraction.parser_delimits.map fun x hx => ⟨x, rfl, hx⟩) h
  | booleans =>
    cases h
    simp only [List.mem_map]
    rintro value ⟨flag, -, rfl⟩
    exact ⟨flag, rfl⟩
  | enum package =>
    intro value hvalue
    obtain ⟨index, -, hread⟩ := Outcome.exists_of_forall₂ (Outcome.mapM_eq_ok.1 h) value hvalue
    unfold decodeMember at hread
    split at hread
    · rename_i member hmember
      cases hread
      exact List.mem_of_getElem? hmember
    · cases hread
  | floats =>
    cases h
    simp only [List.mem_map]
    rintro value ⟨octets, -, rfl⟩
    exact ⟨Binary32.decode octets, rfl⟩

/-- One decimal, from the varints of its two parts. -/
theorem decode_decimal {whole fraction : Int} {front back : Bytes} {d : Decimal} {x : Binary64}
    (hwhole : ZigZag.encode whole = .ok front) (hfraction : ZigZag.encode fraction = .ok back)
    (hd : .ofMirrored whole.natAbs fraction.natAbs = d) (hx : .ofDecimal (whole < 0 ∨ fraction < 0) d = x) :
    decimals.decode (front ++ back) 1 = .ok [.number x] := by
  have hread := (Fraction.parser_reads_parts hwhole hfraction).map Value.number
  rw [hd, hx] at hread
  obtain ⟨hw, rfl⟩ := ZigZag.encode_eq_ok.1 hwhole
  obtain ⟨hf, rfl⟩ := ZigZag.encode_eq_ok.1 hfraction
  have hfits := @fitsPairs_cons 0 _ _ [] (ZigZag.fold_lt_bound hw) (ZigZag.fold_lt_bound hf) rfl
  have hend : Parser.many (Value.number <$> Fraction.parser) [] = .ok [] := by rw [Parser.many]; rfl
  have hmany := Parser.many_cons hread (by simp [Varint.groups_ne_nil]) hend
  rw [List.append_nil] at hfits hmany
  exact decode_eq_ok.2 ⟨hfits, hmany, Nat.le_refl 1⟩

/-! ## What is sent on -/

/-- A value that can be sent on: the whole part of a decimal has a signed varint, and no NaN goes as a member. -/
def Sendable (kind : PayloadKind) (value : Value) : Prop :=
  match kind with
  | decimals => ∀ x, value = .number x → Fraction.Sendable x
  | enum _ => value.isNaN = false
  | _ => True

/-- What comes back for a value that was sent on. A decimal comes back to the places that are kept, the same iff it
is nearest to some decimal of no more places; an enum value comes back as the first member that agrees with it, the
same if no other does. -/
def Returns (kind : PayloadKind) (value back : Value) : Prop :=
  match kind with
  | decimals => ∃ x : Binary64, value = .number x ∧
      back = .number (.ofDecimal (x.isBelowZero ∧ (Fraction.kept x).unscaled ≠ 0) (Fraction.kept x)) ∧
      (back = value ↔ ∃ negative d, d.places ≤ Fraction.maxPlaces ∧ x = .ofDecimal negative d)
  | enum package => package.members.find? (fun member => member.agrees value) = some back ∧
      ((∀ member ∈ package.members, member.agrees value = true → member = value) → back = value)
  | _ => back = value

end PayloadKind

/-- All but a NaN agree with themselves. -/
theorem Value.agrees_self {value : Value} (hlist : value.isList = false) (hnan : value.isNaN = false) :
    value.agrees value = true := by
  cases value with
  | int n =>
    have hn := Binary64.isNaN_ofRatio (n.toInt < 0) n.toInt.natAbs 1
    simp [agrees, number?, Binary64.equal, Binary64.ofInt, hn]
  | number x =>
    have hx : x.isNaN = false := hnan
    simp [agrees, number?, Binary64.equal, hx]
  | list items => cases hlist
  | _ => simp [agrees, same]

namespace PayloadKind

variable {kind : PayloadKind} {bytes : Bytes} {capacity : Nat} {values : List Value}

theorem arrived_enum {package : EnumPackage} {value : Value} :
    (enum package).arrived value = (package.members.find? fun member => member.agrees value).getD value := by
  rw [arrived, EnumPackage.indexOf?, List.find?_eq_bind_findIdx?_getElem?]

/-- A member that is no NaN agrees with some member. -/
theorem exists_find {package : EnumPackage} {value : Value} (hp : package.WellFormed)
    (hmember : value ∈ package.members) (hnan : value.isNaN = false) :
    ∃ back, package.members.find? (fun member => member.agrees value) = some back := by
  rw [← Option.isSome_iff_exists, List.find?_isSome]
  exact ⟨value, hmember, Value.agrees_self (hp.scalars value hmember) hnan⟩

/-- Of what was read, each value comes back as it may. -/
theorem returns_arrived {value : Value} (hk : kind.Declared) (hread : kind.Yields value)
    (hsend : kind.Sendable value) : kind.Returns value (kind.arrived value) := by
  cases kind with
  | intsFixed =>
    obtain ⟨n, rfl, -⟩ := hread
    rfl
  | intsDynamic =>
    obtain ⟨n, rfl⟩ := hread
    rfl
  | decimals =>
    obtain ⟨x, rfl, hsign⟩ := hread
    have hcarried := Fraction.carried_eq_self (hsend x rfl) hsign
    refine ⟨x, rfl, congrArg Value.number (Fraction.carried_eq x), ?_⟩
    rw [← hcarried]
    exact ⟨Value.number.inj, congrArg Value.number⟩
  | enum package =>
    obtain ⟨back, hback⟩ := exists_find hk.wellFormed hread hsend
    have harrived : (enum package).arrived value = back := by rw [arrived_enum, hback, Option.getD_some]
    rw [harrived]
    have hagrees : back.agrees value = true := by simpa using List.find?_some hback
    exact ⟨hback, fun halone => halone back (List.mem_of_find?_eq_some hback) hagrees⟩
  | floats =>
    obtain ⟨x, rfl⟩ := hread
    have hnarrow : Binary32.decode (Binary32.ofBinary64 x.toBinary64).encode = x.canonical := by
      rw [Binary32.ofBinary64_toBinary64, Binary32.decode_encode, Binary32.canonical_canonical]
    show Value.number (Binary32.decode (Binary32.ofBinary64 x.toBinary64).encode).toBinary64 = _
    rw [hnarrow, Binary32.toBinary64_canonical]
  | _ => rfl

/-- Flags that were read fill the octets they are packed in, as far as the capacity goes. -/
theorem padding_of_decode (h : kind.decode bytes capacity = .ok values) : kind.padding capacity values.length = [] := by
  obtain ⟨hfits, hread, -⟩ := decode_eq_ok.1 h
  cases kind with
  | booleans =>
    cases hread
    have hfits : bytes.length ≤ Flags.packedLength capacity := by simpa [fits] using hfits
    simp only [padding, List.length_map, List.length_take, Flags.length_unpack, Flags.packedLength] at hfits ⊢
    rw [List.replicate_eq_nil_iff]
    omega
  | _ => rfl

theorem exists_encodeFixedInt {n : Int64} (h : n.toInt.natAbs ≤ fixedIntBound) :
    ∃ chunk, encodeFixedInt (.int n) = .ok chunk := by
  have hsize : Sector.size n ≤ 2 := Sector.digitCount_le (by decide) (Nat.lt_of_le_of_lt h (by decide))
  refine (Outcome.exists_bind_of_ok rfl).2 ?_
  rw [if_neg (Nat.not_lt.2 h)]
  exact ⟨_, Sector.encode_eq_ok.2 ⟨⟨hsize, by decide⟩, rfl⟩⟩

theorem exists_encodeInts (h : ∀ value ∈ values, ∃ n, value = .int n) : ∃ again, encodeInts values = .ok again := by
  obtain ⟨ints, hints⟩ : ∃ ints, values.mapM (intsDynamic.expect Value.int?) = .ok ints := by
    refine Outcome.exists_mapM fun value hvalue => ?_
    obtain ⟨n, rfl⟩ := h value hvalue
    exact ⟨n, rfl⟩
  refine (Outcome.exists_bind_of_ok hints).2 ?_
  cases hmax : (ints.map Sector.size).max? with
  | none => exact ⟨[], rfl⟩
  | some width =>
    -- the width is that of the widest, and all are sent in it
    obtain ⟨hwidest, hwidth⟩ := List.max?_eq_some_iff.1 hmax
    obtain ⟨widest, -, rfl⟩ := List.mem_map.1 hwidest
    refine Outcome.exists_mapM_pure fun n hn => ?_
    have hsize := hwidth _ (List.mem_map_of_mem hn)
    exact ⟨_, Sector.encode_eq_ok.2 ⟨⟨hsize, Sector.size_le_maxUnits widest⟩, rfl⟩⟩

/-- What was decoded lies in the encoder's domain. -/
theorem exists_encode (hk : kind.Declared) (h : kind.decode bytes capacity = .ok values)
    (hsend : ∀ value ∈ values, kind.Sendable value) : ∃ again, kind.encode values = .ok again := by
  obtain ⟨-, hread, -⟩ := decode_eq_ok.1 h
  have hyields := yields_of_read hread
  cases kind with
  | none =>
    cases hread
    exact ⟨[], rfl⟩
  | raw =>
    simp only [read] at hread
    split at hread
    · cases hread
      exact ⟨_, rfl⟩
    · cases hread
  | strings =>
    refine Outcome.exists_mapM_pure fun value hvalue => ?_
    obtain ⟨text, rfl, hsize⟩ := hyields value hvalue
    exact ⟨_, encodeText_eq_ok.2 ⟨text, rfl, hsize, rfl⟩⟩
  | intsFixed =>
    refine Outcome.exists_mapM_pure fun value hvalue => ?_
    obtain ⟨n, rfl, hn⟩ := hyields value hvalue
    exact exists_encodeFixedInt hn
  | intsDynamic => exact exists_encodeInts hyields
  | decimals =>
    refine Outcome.exists_mapM_pure fun value hvalue => ?_
    obtain ⟨x, rfl, -⟩ := hyields value hvalue
    exact (Outcome.exists_bind_of_ok rfl).2 (hsend _ hvalue x rfl).exists_encode
  | booleans =>
    refine Outcome.exists_mapM_pure fun value hvalue => ?_
    obtain ⟨flag, rfl⟩ := hyields value hvalue
    exact ⟨flag, rfl⟩
  | enum package =>
    refine Outcome.exists_mapM fun value hvalue => ?_
    obtain ⟨back, hback⟩ := exists_find hk.wellFormed (hyields value hvalue) (hsend value hvalue)
    rw [List.find?_eq_bind_findIdx?_getElem?] at hback
    obtain ⟨index, hindex, -⟩ := Option.bind_eq_some_iff.1 hback
    have hindex : package.indexOf? value = some index := hindex
    exact ⟨UInt8.ofNat index, by rw [encodeMember, hindex]⟩
  | floats =>
    refine Outcome.exists_mapM_pure fun value hvalue => ?_
    obtain ⟨x, rfl⟩ := hyields value hvalue
    exact ⟨_, rfl⟩

/-- What was decoded and can be sent on is encoded again, and comes back. -/
theorem decode_again (hk : kind.Declared) (h : kind.decode bytes capacity = .ok values)
    (hsend : ∀ value ∈ values, kind.Sendable value) :
    ∃ again back, kind.encode values = .ok again ∧ kind.decode again capacity = .ok back ∧
      List.Forall₂ kind.Returns values back := by
  obtain ⟨-, hread, hcount⟩ := decode_eq_ok.1 h
  obtain ⟨again, hagain⟩ := exists_encode hk h hsend
  have hback := decode_encode hk hagain hcount
  rw [canonical, padding_of_decode h, List.append_nil] at hback
  refine ⟨again, values.map kind.arrived, hagain, hback, List.forall₂_map_right_iff.2 ?_⟩
  refine List.forall₂_same.2 fun value hvalue => ?_
  exact returns_arrived hk (yields_of_read hread value hvalue) (hsend value hvalue)

/-- Minus two and five hundredths, whose fraction begins with a zero. -/
theorem decode_again_hundredths :
    decimals.Declared ∧ decimals.decode [3, 99] 1 = .ok [.number ⟨0xc000666666666666⟩] ∧
      (∀ value ∈ [Value.number ⟨0xc000666666666666⟩], decimals.Sendable value) ∧
      ∃ again back, decimals.encode [.number ⟨0xc000666666666666⟩] = .ok again ∧
        decimals.decode again 1 = .ok back ∧
        List.Forall₂ decimals.Returns [.number ⟨0xc000666666666666⟩] back := by
  have hdecode : decimals.decode [3, 99] 1 = .ok [.number ⟨0xc000666666666666⟩] :=
    @decode_decimal (-2) (-50) [3] [99] ⟨205, 2⟩ _ (by cbv) (by cbv) (by cbv) (by decide +kernel)
  have hsend : ∀ value ∈ [Value.number ⟨0xc000666666666666⟩], decimals.Sendable value := by
    rw [List.forall_mem_singleton]
    rintro x ⟨⟩
    unfold Fraction.Sendable
    decide
  exact ⟨trivial, hdecode, hsend, decode_again trivial hdecode hsend⟩

/-! ## What does not come back -/

namespace Exceptions

/-- A NaN, which agrees with nothing. -/
def nan : EnumPackage := ⟨"e", [.number .nan]⟩

/-- Two members that agree. -/
def ones : EnumPackage := ⟨"e", [.int 1, .number ⟨0x3ff0000000000000⟩]⟩

/-- `0.100000000000001`, with one place more than is kept. -/
def fine : Bytes := [0, 130, 128, 210, 135, 226, 188, 45]

/-- `281474976710655.99`, to which `2 ^ 48` is the nearest double. -/
def edge : Bytes := [254, 255, 255, 255, 255, 255, 127, 198, 1]

end Exceptions

/-- A NaN member is read and not written. A member comes back as an earlier one that agrees with it. The fifteenth
place of a decimal is lost, and one that is rounded up to `2 ^ 48` is not written. -/
theorem decode_again_exceptions :
    (Exceptions.nan.Declared ∧ (enum Exceptions.nan).decode [0] 1 = .ok [.number .nan] ∧
        ¬∃ again, (enum Exceptions.nan).encode [.number .nan] = .ok again) ∧
      (Exceptions.ones.Declared ∧ (enum Exceptions.ones).decode [1] 1 = .ok [.number ⟨0x3ff0000000000000⟩] ∧
        (enum Exceptions.ones).encode [.number ⟨0x3ff0000000000000⟩] = .ok [0] ∧
        (enum Exceptions.ones).decode [0] 1 = .ok [.int 1]) ∧
      (decimals.decode Exceptions.fine 1 = .ok [.number ⟨0x3fb99999999999e2⟩] ∧
        decimals.encode [.number ⟨0x3fb99999999999e2⟩] = .ok [0, 2] ∧
        decimals.decode [0, 2] 1 = .ok [.number ⟨0x3fb999999999999a⟩]) ∧
      decimals.decode Exceptions.edge 1 = .ok [.number ⟨0x42f0000000000000⟩] ∧
        ¬∃ again, decimals.encode [.number ⟨0x42f0000000000000⟩] = .ok again := by
  have hnan : (enum Exceptions.nan).encode [.number .nan] = .error (.notAMember (.number .nan) "e") := by cbv
  have hedge : decimals.encode [.number ⟨0x42f0000000000000⟩] = .error (.signedVarintRange (2 ^ 48) (2 ^ 48)) := by cbv
  have hfine : decimals.decode Exceptions.fine 1 = .ok [.number ⟨0x3fb99999999999e2⟩] :=
    @decode_decimal 0 100000000000001 [0] [130, 128, 210, 135, 226, 188, 45] ⟨100000000000001, 15⟩ _ (by cbv) (by cbv)
      (by cbv) (by decide +kernel)
  have hwhole : decimals.decode Exceptions.edge 1 = .ok [.number ⟨0x42f0000000000000⟩] :=
    @decode_decimal 281474976710655 99 [254, 255, 255, 255, 255, 255, 127] [198, 1] ⟨28147497671065599, 2⟩ _ (by cbv)
      (by cbv) (by cbv) (by decide +kernel)
  refine ⟨⟨⟨"e", Exceptions.nan.members, rfl⟩, by cbv, ?_⟩,
    ⟨⟨"e", Exceptions.ones.members, rfl⟩, by cbv, by cbv, by cbv⟩, ⟨hfine, by cbv, by cbv⟩, hwhole, ?_⟩
  · rw [hnan]
    rintro ⟨_, ⟨⟩⟩
  · rw [hedge]
    rintro ⟨_, ⟨⟩⟩

end PayloadKind

end PacketProtocol
