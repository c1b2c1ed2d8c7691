import Mathlib.Tactic.SplitIfs
import PacketProtocol.CloseNotice
import PacketProtocol.Proofs.Record
/-!
# A close notice is read as it was written

Octets that no character begins with are replaced when a reason is read. The octets of a text are those of its
characters, none of which is replaced, so a notice is read back with its code and its whole reason.
-/

namespace PacketProtocol

namespace Utf8

open scoped Numerals

theorem encode_eq (text : String) : encode text = text.toList.flatMap String.utf8EncodeChar := by
  obtain ⟨chars, rfl⟩ : ∃ chars, text = String.ofList chars := ⟨text.toList, String.ofList_toList.symm⟩
  rw [String.toList_ofList]
  exact congrArg Array.toList List.data_toByteArray

/-- An octet behind the first of a character, with the low six bits of a number. -/
def tail (value : Nat) : UInt8 := .ofNat (value % 64 + 128)

theorem toNat_tail (value : Nat) : (tail value).toNat = value % 64 + 128 := by
  rw [tail, UInt8.toNat_ofNat']
  omega

/-- The number that a first octet with these bits begins, and these others go on. -/
def gather (bits : Nat) (values : List Nat) : Nat := values.foldl (fun code value => code * 64 + value % 64) bits

theorem scalarAfter_tails {low high : UInt8} (values : List Nat) (code : Nat) (rest : Bytes)
    (hfirst : ∀ value ∈ values.head?, low ≤ tail value ∧ tail value ≤ high) :
    scalarAfter values.length low high code (values.map tail ++ rest) =
      (Char.ofNat (gather code values), values.length) := by
  induction values generalizing low high code with
  | nil => rfl
  | cons value values ih =>
    have hnext : ∀ value ∈ values.head?, (0x80 : UInt8) ≤ tail value ∧ tail value ≤ 0xBF := by
      intro value _
      rw [UInt8.le_iff_toNat_le, UInt8.le_iff_toNat_le, toNat_tail]
      exact ⟨Nat.le_add_left _ _, Nat.add_le_add_right (Nat.le_pred_of_lt (Nat.mod_lt _ (by decide))) 128⟩
    have hbits : (tail value).toNat % 64 = value % 64 := by
      rw [toNat_tail]
      omega
    simp only [List.map_cons, List.cons_append, List.length_cons, scalarAfter, if_pos (hfirst value rfl), hbits,
      ih _ hnext, gather, List.foldl_cons]

theorem following_eq (lead : UInt8) : following lead =
    if lead.toNat < 194 then none
    else if lead.toNat < 224 then some (0x80, 0xBF, 1)
    else if lead.toNat = 224 then some (0xA0, 0xBF, 2)
    else if lead.toNat = 237 then some (0x80, 0x9F, 2)
    else if lead.toNat < 240 then some (0x80, 0xBF, 2)
    else if lead.toNat = 240 then some (0x90, 0xBF, 3)
    else if lead.toNat < 244 then some (0x80, 0xBF, 3)
    else if lead.toNat = 244 then some (0x80, 0x8F, 3)
    else none := by
  simp only [following, UInt8.lt_iff_toNat_lt, ← UInt8.toNat_inj]
  rfl

/-- Bounds of the second of three octets. -/
theorem following_three {lead : UInt8} (hlow : 224 ≤ lead.toNat) (hhigh : lead.toNat < 240) :
    ∃ low high, following lead = some (low, high, 2) ∧ low.toNat = (if lead.toNat = 224 then 160 else 128) ∧
      high.toNat = if lead.toNat = 237 then 159 else 191 := by
  rw [following_eq, if_neg (by omega), if_neg (by omega), if_pos hhigh]
  split_ifs <;> first | exact ⟨_, _, rfl, rfl, rfl⟩ | omega

/-- Bounds of the second of four octets. -/
theorem following_four {lead : UInt8} (hlow : 240 ≤ lead.toNat) (hhigh : lead.toNat ≤ 244) :
    ∃ low high, following lead = some (low, high, 3) ∧ low.toNat = (if lead.toNat = 240 then 144 else 128) ∧
      high.toNat = if lead.toNat = 244 then 143 else 191 := by
  rw [following_eq, if_neg (by omega), if_neg (by omega), if_neg (by omega), if_neg (by omega), if_neg (by omega)]
  split_ifs <;> first | exact ⟨_, _, rfl, rfl, rfl⟩ | omega

/-- A first octet and those that must follow it are one character. -/
theorem scalars_of_following {lead low high : UInt8} {values : List Nat} {c : Char} (hlead : 128 ≤ lead.toNat)
    (hfollowing : following lead = some (low, high, values.length))
    (hfirst : ∀ value ∈ values.head?, low.toNat ≤ value % 64 + 128 ∧ value % 64 + 128 ≤ high.toNat)
    (hcode : gather (lead.toNat % 2 ^ (6 - values.length)) values = c.toNat) (rest : Bytes) :
    scalars (lead :: values.map tail ++ rest) = c :: scalars rest := by
  have hlarge : ¬lead < 0x80 := by
    rw [UInt8.lt_iff_toNat_lt]
    exact Nat.not_lt.2 hlead
  have hbounds : ∀ value ∈ values.head?, low ≤ tail value ∧ tail value ≤ high := by
    intro value hvalue
    rw [UInt8.le_iff_toNat_le, UInt8.le_iff_toNat_le, toNat_tail]
    exact hfirst value hvalue
  have hscalar : firstScalar lead (values.map tail ++ rest) = (c, (values.map tail).length) := by
    rw [firstScalar, if_neg hlarge, hfollowing, List.length_map, ← Char.ofNat_toNat c, ← hcode]
    exact scalarAfter_tails values _ rest hbounds
  rw [List.cons_append, scalars, hscalar, List.drop_left]

/-- The octets of a character are read as that character. -/
theorem scalars_utf8EncodeChar (c : Char) (rest : Bytes) :
    scalars (String.utf8EncodeChar c ++ rest) = c :: scalars rest := by
  have hvalid : c.toNat < 0xD800 ∨ 0xDFFF < c.toNat ∧ c.toNat < 0x110000 := c.valid
  have hoctet : ∀ {n : Nat}, n < 256 → (UInt8.ofNat n).toNat = n := fun h => UInt8.toNat_ofNat_of_lt' h
  unfold String.utf8EncodeChar
  simp only [show c.val.toNat = c.toNat from rfl]
  -- one case for each number of octets
  by_cases hone : c.toNat ≤ 127
  · have hsmall : UInt8.ofNat c.toNat < 0x80 := by
      rw [UInt8.lt_iff_toNat_lt, hoctet (by omega)]
      exact Nat.lt_succ_of_le hone
    rw [if_pos hone, List.singleton_append, scalars, firstScalar, if_pos hsmall, hoctet (by omega), Char.ofNat_toNat,
      List.drop_zero]
  rw [if_neg hone]
  by_cases htwo : c.toNat ≤ 2047
  · have hlead : (UInt8.ofNat (c.toNat / 64 % 32 + 192)).toNat = c.toNat / 64 + 192 := by
      rw [hoctet (by omega)]
      omega
    rw [if_pos htwo]
    refine @scalars_of_following _ 0x80 0xBF [c.toNat] c (by omega) ?_ ?_ ?_ rest
    · rw [following_eq, hlead, if_neg (by omega), if_pos (by omega)]
      rfl
    · simp
      omega
    · simp [gather]
      omega
  rw [if_neg htwo]
  by_cases hthree : c.toNat ≤ 65535
  · have hlead : (UInt8.ofNat (c.toNat / 4096 % 16 + 224)).toNat = c.toNat / 4096 + 224 := by
      rw [hoctet (by omega)]
      omega
    obtain ⟨low, high, hfollowing, hlow, hhigh⟩ :=
      @following_three (.ofNat (c.toNat / 4096 % 16 + 224)) (by omega) (by omega)
    rw [if_pos hthree]
    refine @scalars_of_following _ low high [c.toNat / 64, c.toNat] c (by omega) hfollowing ?_ ?_ rest
    · simp [hlow, hhigh]
      split_ifs <;> omega
    · simp [gather]
      omega
  · have hlead : (UInt8.ofNat (c.toNat / 262144 % 8 + 240)).toNat = c.toNat / 262144 + 240 := by
      rw [hoctet (by omega)]
      omega
    obtain ⟨low, high, hfollowing, hlow, hhigh⟩ :=
      @following_four (.ofNat (c.toNat / 262144 % 8 + 240)) (by omega) (by omega)
    rw [if_neg hthree]
    refine @scalars_of_following _ low high [c.toNat / 4096, c.toNat / 64, c.toNat] c (by omega) hfollowing ?_ ?_ rest
    · simp [hlow, hhigh]
      split_ifs <;> omega
    · simp [gather]
      omega

theorem scalars_encode (text : String) : scalars (encode text) = text.toList := by
  rw [encode_eq]
  induction text.toList with
  | nil => rw [List.flatMap_nil, scalars]
  | cons c chars ih => rw [List.flatMap_cons, scalars_utf8EncodeChar, ih]

/-- No octet of a text is replaced. -/
theorem decodeLossy_encode (text : String) : decodeLossy (encode text) = text := by
  rw [decodeLossy, scalars_encode, String.ofList_toList]

end Utf8

namespace CloseNotice

theorem ofBody_encode (notice : CloseNotice) :
    ofBody (Bytes.bigEndian 2 notice.code.number ++ Utf8.encode notice.reason) = notice := by
  have hnumber : Bytes.toNat (Bytes.bigEndian 2 notice.code.number) = notice.code.number :=
    Bytes.toNat_bigEndian (by cases notice.code <;> decide)
  obtain ⟨high, low, hoctets⟩ : ∃ high low, Bytes.bigEndian 2 notice.code.number = [high, low] := ⟨_, _, rfl⟩
  rw [hoctets] at hnumber ⊢
  simp only [List.cons_append, List.nil_append, ofBody, hnumber, CloseCode.ofNumber?_number, Option.getD_some,
    Utf8.decodeLossy_encode]

/-- A notice is read back with its code and its reason. -/
theorem decode?_encode (notice : CloseNotice) : decode? notice.encode = some notice := by
  rw [encode, List.cons_append, decode?, if_pos rfl, ofBody_encode]

end CloseNotice

end PacketProtocol
