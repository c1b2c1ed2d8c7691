import Mathlib.Data.Nat.Digits.Defs
import PacketProtocol.Proofs.Machine.Reader
import PacketProtocol.Proofs.Reading
/-!
# Varints tell where they end

The first octet without a mark is the last of a varint. Octets that have one among the first seven begin with a
varint, whatever number it is of and whatever comes behind; a number is written in as few octets as it can be read from.
-/

namespace PacketProtocol

open scoped Numerals

namespace Varint

variable {room n : Nat} {bytes octets rest : Bytes}

/-! ## Reading -/

/-- The number whose base-128 groups the octets carry, least significant first. -/
def value (octets : Bytes) : Nat := Nat.ofDigits 128 (octets.map fun octet => octet.toNat % 128)

/-- Which of the first `room` octets is the last of a varint: the first that is not marked as followed by another. -/
def last? (room : Nat) (bytes : Bytes) : Option Nat := (bytes.take room).findIdx? fun octet => octet < 128

/-- What is read when a varint has room for so many octets: the number that those up to its last carry, and how many
these are. -/
def scan (room : Nat) (bytes : Bytes) : Except DecodeFault (Nat × Nat) :=
  match last? room bytes with
  | some i => .ok (value (bytes.take (i + 1)), i + 1)
  | none => .error (if room ≤ bytes.length then .varintTooLong else .unexpectedEnd)

theorem value_lt (octets : Bytes) : value octets < 128 ^ octets.length := by
  have hgroups : ∀ group ∈ octets.map (fun octet => octet.toNat % 128), group < 128 := by
    intro group hgroup
    obtain ⟨octet, -, rfl⟩ := List.mem_map.1 hgroup
    exact Nat.mod_lt _ (by decide)
  have hlt := Nat.ofDigits_lt_base_pow_length (by decide : 1 < 128) hgroups
  rwa [List.length_map] at hlt

theorem last?_succ (room : Nat) (octet : UInt8) (bytes : Bytes) :
    last? (room + 1) (octet :: bytes) = if octet < 128 then some 0 else (last? room bytes).map (· + 1) := by
  rw [last?, List.take_succ_cons, List.findIdx?_cons]
  simp only [decide_eq_true_eq]
  rfl

theorem last?_lt {i : Nat} (h : last? room bytes = some i) : i < room ∧ i < bytes.length := by
  have hlt := (List.findIdx?_eq_some_iff_findIdx_eq.1 h).1
  rw [List.length_take] at hlt
  omega

theorem isSome_last? : (last? room bytes).isSome ↔ ∃ octet ∈ bytes.take room, octet < 128 := by
  rw [last?, List.findIdx?_isSome, List.any_eq_true]
  simp only [decide_eq_true_eq]

theorem decodeWithin_eq (room : Nat) (bytes : Bytes) :
    decodeWithin room bytes = (scan room bytes).map fun read => (read.1, bytes.drop read.2) := by
  unfold scan
  induction room generalizing bytes with
  | zero => simp [decodeWithin, last?, Except.map]
  | succ room ih =>
    cases bytes with
    | nil => simp [decodeWithin, last?, Except.map]
    | cons octet rest =>
      rw [decodeWithin, last?_succ]
      by_cases hlast : octet < 128
      · have hsmall : octet.toNat % 128 = octet.toNat := Nat.mod_eq_of_lt (UInt8.lt_iff_toNat_lt.1 hlast)
        rw [if_pos hlast, if_pos hlast]
        simp [value, hsmall, Except.map]
      · rw [if_neg hlast, if_neg hlast, ih]
        cases last? room rest with
        | none => simp [Except.map]
        | some i => rfl

/-- The octets up to the first without a mark are read, if that is one of the first seven. -/
theorem decode_eq (bytes : Bytes) :
    decode bytes = (scan 7 bytes).map fun read => (read.1, bytes.drop read.2) :=
  decodeWithin_eq maxUnits bytes

theorem exists_scan_iff : (∃ read, scan room bytes = .ok read) ↔ ∃ octet ∈ bytes.take room, octet < 128 := by
  rw [← isSome_last?, scan]
  cases last? room bytes <;> simp

/-- Of so many octets a number is read that so many groups hold. -/
theorem scan_eq_ok {used : Nat} (h : scan room bytes = .ok (n, used)) :
    0 < used ∧ used ≤ room ∧ used ≤ bytes.length ∧ n < 128 ^ used := by
  unfold scan at h
  split at h
  · rename_i i hlast
    cases h
    obtain ⟨hroom, hlength⟩ := last?_lt hlast
    have hlt := value_lt (bytes.take (i + 1))
    rw [List.length_take, Nat.min_eq_left hlength] at hlt
    exact ⟨Nat.succ_pos i, hroom, hlength, hlt⟩
  · cases h

theorem decode_eq_ok : decode bytes = .ok (n, rest) ↔ ∃ used, scan 7 bytes = .ok (n, used) ∧ bytes.drop used = rest := by
  rw [decode_eq]
  cases scan 7 bytes with
  | error fault => simp [Except.map]
  | ok read => obtain ⟨m, used⟩ := read; simp [Except.map]

theorem lt_bound_of_decode (h : decode bytes = .ok (n, rest)) : n < 2 ^ 49 := by
  obtain ⟨used, hscan, -⟩ := decode_eq_ok.1 h
  obtain ⟨-, hroom, -, hlt⟩ := scan_eq_ok hscan
  calc n < 128 ^ used := hlt
    _ ≤ 128 ^ 7 := Nat.pow_le_pow_right (by decide) hroom
    _ = 2 ^ 49 := by decide

/-- The machine counts what it reads. -/
theorem unvarint_eq_scan (bytes : Bytes) : Machine.unvarint bytes = Machine.safe (scan 7 bytes) := by
  rw [Machine.unvarint_eq, decode_eq]
  cases hscan : scan 7 bytes with
  | error fault => rfl
  | ok read =>
    obtain ⟨n, used⟩ := read
    obtain ⟨-, -, hused, -⟩ := scan_eq_ok hscan
    refine congrArg (fun used => Machine.safe (.ok (n, used))) ?_
    show bytes.length - (bytes.drop used).length = used
    rw [List.length_drop]
    omega

/-! ## Writing -/

theorem length_groups_le {count : Nat} (hpos : 0 < count) (h : n < 128 ^ count) : (groups n).length ≤ count := by
  induction count generalizing n with
  | zero => cases hpos
  | succ count ih =>
    by_cases hsmall : n < 128
    · rw [groups_small hsmall]
      simp
    · -- a number that is not small has a second group, so there is room for one
      have hpos : 0 < count := Nat.pos_of_ne_zero fun hzero => hsmall (by simpa [hzero] using h)
      have hhigh : n / 128 < 128 ^ count := by
        rw [Nat.div_lt_iff_lt_mul (by decide)]
        rwa [Nat.pow_succ] at h
      rw [groups_large hsmall, List.length_cons]
      exact Nat.succ_le_succ (ih hpos hhigh)

/-- No fewer octets than its groups are read as a number. -/
theorem length_groups_le_of_decode (h : decode (octets ++ rest) = .ok (n, rest)) :
    (groups n).length ≤ octets.length := by
  obtain ⟨used, hscan, hdrop⟩ := decode_eq_ok.1 h
  obtain ⟨hpos, -, hused, hlt⟩ := scan_eq_ok hscan
  have hlength := congrArg List.length hdrop
  rw [List.length_append] at hused
  rw [List.length_drop, List.length_append] at hlength
  obtain rfl : used = octets.length := by omega
  exact length_groups_le hpos hlt

/-- The octets of a number: one at least and seven at most, read with any octets behind them, and no more than any
others that are read as the number. -/
structure Delimits (n : Nat) (octets : Bytes) : Prop where
  length_pos : 1 ≤ octets.length
  length_le : octets.length ≤ 7
  shortest : ∀ other rest, decode (other ++ rest) = .ok (n, rest) → octets.length ≤ other.length
  read : ∀ rest, Machine.unvarint (octets ++ rest) = Machine.safe (.ok (n, octets.length))
  parsed : ∀ rest, decode (octets ++ rest) = .ok (n, rest)

theorem delimits_of_encode (h : encode n = .ok octets) : Delimits n octets := by
  obtain ⟨hlt, rfl⟩ := encode_eq_ok.1 h
  refine ⟨List.length_pos_iff.2 (groups_ne_nil n), length_groups_le (by decide) (bound_eq ▸ hlt),
    fun other rest => length_groups_le_of_decode, fun rest => ?_, fun rest => decode_groups hlt rest⟩
  rw [Machine.unvarint_eq, decode_groups hlt]
  refine congrArg (fun used => Machine.safe (.ok (n, used))) ?_
  show (groups n ++ rest).length - rest.length = (groups n).length
  rw [List.length_append, Nat.add_sub_cancel]

end Varint

theorem ZigZag.exists_encode_iff {n : Int} : (∃ octets, encode n = .ok octets) ↔ n.natAbs < 2 ^ 48 :=
  ⟨fun ⟨_, h⟩ => (encode_eq_ok.1 h).1, fun h => ⟨_, encode_eq_ok.2 ⟨h, rfl⟩⟩⟩

/-! ## On the machine -/

namespace Machine

/-- Puts the groups of a word behind some octets. -/
def pushGroups (out : Bytes) (n : Nat) : Bytes :=
  let group := UInt8.ofNat n &&& 0x7F
  if n >>> 7 = 0 then out ++ [group] else pushGroups (out ++ [group ||| 0x80]) (n >>> 7)
termination_by n
decreasing_by rw [Nat.shiftRight_eq_div_pow] at *; omega

def writeVarint (out : Bytes) (n : Nat) : Except EncodeFault Bytes :=
  if Varint.bound ≤ n then .error (.varintRange n Varint.bound) else .ok (pushGroups out n)

/-- The place of a word with a sign in the order 0, -1, 1, -2, 2, … -/
def zigzag (n : Int64) : UInt64 := ((n <<< 1) ^^^ (n >>> 63)).toUInt64

def writeSignedVarint (out : Bytes) (n : Int64) : Except EncodeFault Bytes :=
  if ZigZag.bound ≤ n.toInt.natAbs then .error (.signedVarintRange n.toInt ZigZag.bound)
  else writeVarint out (zigzag n).toNat

theorem marked_eq (n : Nat) : (UInt8.ofNat n &&& 0x7F) ||| 0x80 = UInt8.ofNat (128 + n % 128) := by
  have hgroup : (UInt8.ofNat n &&& 0x7F).toNat = n % 128 := by
    rw [group_eq, UInt8.toNat_ofNat']
    omega
  have hor := Nat.two_pow_add_eq_or_of_lt (i := 7) (show n % 128 < 2 ^ 7 from Nat.mod_lt _ (by decide)) 1
  rw [← UInt8.toNat_inj, UInt8.toNat_or, hgroup, Nat.or_comm, UInt8.toNat_ofNat']
  show 2 ^ 7 * 1 ||| n % 128 = _
  rw [← hor]
  omega

theorem pushGroups_eq (out : Bytes) (n : Nat) : pushGroups out n = out ++ Varint.groups n := by
  induction n using Nat.strongRecOn generalizing out with
  | ind n ih =>
    have hhigh : n >>> 7 = n / 128 := Nat.shiftRight_eq_div_pow n 7
    rw [pushGroups]
    by_cases hsmall : n < 128
    · have hgroup : UInt8.ofNat n &&& 0x7F = UInt8.ofNat n := by
        rw [← UInt8.toNat_inj, group_eq, UInt8.toNat_ofNat']
        omega
      rw [Varint.groups_small hsmall, if_pos (by omega), hgroup]
    · rw [Varint.groups_large hsmall, if_neg (by omega), marked_eq, hhigh, ih (n / 128) (by omega), List.append_assoc]
      rfl

theorem ushiftRight_eq_zero {bits : BitVec 64} (h : bits.toNat < 2 ^ 63) : bits >>> 63 = 0#64 := by
  refine BitVec.eq_of_toNat_eq ?_
  rw [BitVec.toNat_ushiftRight, Nat.shiftRight_eq_div_pow]
  exact Nat.div_eq_of_lt h

theorem toNat_zigzag (n : Int64) : (zigzag n).toNat = ZigZag.fold n.toInt := by
  have hbits : (zigzag n).toNat = ((n.toBitVec <<< 1) ^^^ n.toBitVec.sshiftRight 63).toNat := rfl
  have hint : n.toInt = n.toBitVec.toInt := rfl
  rw [hbits, hint, BitVec.toInt_eq_msb_cond, ZigZag.fold]
  generalize n.toBitVec = bits
  have hlt := bits.isLt
  have hdouble : (bits <<< 1).toNat = 2 * bits.toNat % 2 ^ 64 := by
    rw [BitVec.toNat_shiftLeft, Nat.shiftLeft_eq, Nat.pow_one, Nat.mul_comm]
  -- the sign is moved into all bits: into none of a number that is not negative, and into each of one that is
  cases hsign : bits.msb with
  | false =>
    have hsmall : bits.toNat < 2 ^ 63 := BitVec.toNat_lt_of_msb_false hsign
    rw [BitVec.sshiftRight_eq_of_msb_false hsign, ushiftRight_eq_zero hsmall, BitVec.xor_zero, hdouble]
    simp only [Bool.false_eq_true, if_false]
    rw [if_neg (by omega)]
    omega
  | true =>
    have hlarge : 2 ^ 63 ≤ bits.toNat := BitVec.le_toNat_of_msb_true hsign
    have hnot : (~~~bits).toNat < 2 ^ 63 := by
      rw [BitVec.toNat_not]
      omega
    rw [BitVec.sshiftRight_eq_of_msb_true hsign, ushiftRight_eq_zero hnot, BitVec.not_zero, BitVec.xor_allOnes,
      BitVec.toNat_not, hdouble]
    simp only [if_true]
    rw [if_pos (by omega)]
    omega

theorem writeVarint_eq (out : Bytes) (n : Nat) : writeVarint out n = (Varint.encode n).map (out ++ ·) := by
  rw [writeVarint, Varint.encode]
  by_cases h : n < Varint.bound
  · rw [if_pos h, if_neg (Nat.not_le.2 h), pushGroups_eq]
    rfl
  · rw [if_neg h, if_pos (Nat.not_lt.1 h)]
    rfl

theorem writeSignedVarint_eq (out : Bytes) (n : Int64) :
    writeSignedVarint out n = (ZigZag.encode n.toInt).map (out ++ ·) := by
  rw [writeSignedVarint, ZigZag.encode]
  by_cases h : n.toInt.natAbs < ZigZag.bound
  · rw [if_pos h, if_neg (Nat.not_le.2 h), writeVarint_eq, toNat_zigzag]
  · rw [if_neg h, if_pos (Nat.not_lt.1 h)]
    rfl

end Machine

namespace Varint

/-- Numbers below `2 ^ 49` have a varint, and no others; it tells its own end. Of any octets those up to the first
without a mark are read, if that is one of seven; else there are too many, or they end too soon. Signed varints are
those of the integers below `2 ^ 48` in magnitude. The machine shifts and masks words to the same end, and reads from
where it stands. -/
theorem self_delimiting (n : Nat) (m : Int64) (bytes out : Bytes) :
    ((∃ octets, encode n = .ok octets) ↔ n < 2 ^ 49) ∧
      (∀ octets, encode n = .ok octets → Delimits n octets) ∧
      Machine.writeVarint out n = (encode n).map (out ++ ·) ∧
      ((∃ read, decode bytes = .ok read) ↔ ∃ octet ∈ bytes.take 7, octet < 128) ∧
      (decode bytes = (scan 7 bytes).map fun read => (read.1, bytes.drop read.2)) ∧
      (∀ k rest, decode bytes = .ok (k, rest) → k < 2 ^ 49) ∧
      Machine.unvarint bytes = Machine.safe (scan 7 bytes) ∧
      ((∃ octets, ZigZag.encode m.toInt = .ok octets) ↔ m.toInt.natAbs < 2 ^ 48) ∧
      (∀ octets, ZigZag.encode m.toInt = .ok octets → Parser.signedVarint.Reads octets m.toInt) ∧
      Machine.writeSignedVarint out m = (ZigZag.encode m.toInt).map (out ++ ·) ∧
      Machine.Follows 1 Machine.signedVarint Parser.signedVarint := by
  have hencode : (∃ octets, encode n = .ok octets) ↔ n < 2 ^ 49 :=
    ⟨fun ⟨_, h⟩ => (encode_eq_ok.1 h).1, fun h => ⟨_, encode_of_lt h⟩⟩
  have hdecode : (∃ read, decode bytes = .ok read) ↔ ∃ octet ∈ bytes.take 7, octet < 128 := by
    rw [← exists_scan_iff, decode_eq]
    cases scan 7 bytes <;> simp [Except.map]
  exact ⟨hencode, fun _ => delimits_of_encode, Machine.writeVarint_eq out n, hdecode, decode_eq bytes,
    fun _ _ => lt_bound_of_decode, unvarint_eq_scan bytes, ZigZag.exists_encode_iff,
    fun _ => Parser.signedVarint_reads, Machine.writeSignedVarint_eq out m, Machine.signedVarint_follows⟩

/-- The greatest number that has a varint, and the integer furthest below zero. A number may be read from more octets
than it is written in. -/
theorem self_delimiting_greatest :
    encode (2 ^ 49 - 1) = .ok [255, 255, 255, 255, 255, 255, 127] ∧
      ZigZag.encode (Int64.toInt (1 - 2 ^ 48)) = .ok [253, 255, 255, 255, 255, 255, 127] ∧
      decode [128, 128, 0, 5] = .ok (0, [5]) ∧ 0 < 2 ^ 49 ∧
      Delimits (2 ^ 49 - 1) [255, 255, 255, 255, 255, 255, 127] ∧
      Parser.signedVarint.Reads [253, 255, 255, 255, 255, 255, 127] (Int64.toInt (1 - 2 ^ 48)) ∧
      Machine.writeSignedVarint [9] (1 - 2 ^ 48) = .ok [9, 253, 255, 255, 255, 255, 255, 127] := by
  have hencode : encode (2 ^ 49 - 1) = .ok [255, 255, 255, 255, 255, 255, 127] := by cbv
  have hfold : ZigZag.fold (Int64.toInt (1 - 2 ^ 48)) = 2 ^ 49 - 3 := by decide
  have hsigned : ZigZag.encode (Int64.toInt (1 - 2 ^ 48)) = .ok [253, 255, 255, 255, 255, 255, 127] := by
    rw [ZigZag.encode, if_pos (by decide), hfold]
    cbv
  have hdecode : decode [128, 128, 0, 5] = .ok (0, [5]) := rfl
  obtain ⟨-, hdelimits, -, -, -, hbound, -, -, hreads, hwritten, -⟩ :=
    self_delimiting (2 ^ 49 - 1) (1 - 2 ^ 48) [128, 128, 0, 5] [9]
  rw [hsigned] at hwritten
  exact ⟨hencode, hsigned, hdecode, hbound 0 [5] hdecode, hdelimits _ hencode, hreads _ hsigned, hwritten⟩

end Varint

end PacketProtocol
