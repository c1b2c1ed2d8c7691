import PacketProtocol.Proofs.Outcome
import PacketProtocol.ZigZag
/-!
# Varints are read back

A number that has a varint is read from it, whatever octets come behind: the first group without a
mark ends the number.
-/

namespace PacketProtocol.Varint

open scoped Numerals

theorem bound_eq : bound = 128 ^ maxUnits := by decide

theorem groups_small {n : Nat} (h : n < 128) : groups n = [UInt8.ofNat n] := by
  rw [groups, if_pos h]

theorem groups_large {n : Nat} (h : ¬ n < 128) :
    groups n = UInt8.ofNat (128 + n % 128) :: groups (n / 128) := by
  rw [groups, if_neg h]

theorem groups_ne_nil (n : Nat) : groups n ≠ [] := by
  rw [groups]; split <;> simp

theorem decode_small {room n : Nat} (h : n < 128) (rest : Bytes) :
    decodeWithin (room + 1) (UInt8.ofNat n :: rest) = .ok (n, rest) := by
  have hn : (UInt8.ofNat n).toNat = n := by simp; omega
  rw [decodeWithin, if_pos (by rw [UInt8.lt_iff_toNat_lt, hn]; exact h), hn]

theorem decode_large {room n high : Nat} {bytes rest : Bytes} (h : decodeWithin room bytes = .ok (high, rest)) :
    decodeWithin (room + 1) (UInt8.ofNat (128 + n % 128) :: bytes) = .ok (n % 128 + 128 * high, rest) := by
  have hn : (UInt8.ofNat (128 + n % 128)).toNat = 128 + n % 128 := by simp; omega
  rw [decodeWithin, if_neg (by rw [UInt8.lt_iff_toNat_lt, hn]; simp), h, hn]
  simp

theorem decodeWithin_groups {room n : Nat} (h : n < 128 ^ (room + 1)) (rest : Bytes) :
    decodeWithin (room + 1) (groups n ++ rest) = .ok (n, rest) := by
  induction room generalizing n with
  | zero =>
    rw [groups_small h]
    exact decode_small h rest
  | succ room ih =>
    by_cases hn : n < 128
    · rw [groups_small hn]
      exact decode_small hn rest
    · have hhigh : n / 128 < 128 ^ (room + 1) := by
        rw [Nat.div_lt_iff_lt_mul (by decide)]; rwa [Nat.pow_succ] at h
      rw [groups_large hn, List.cons_append, decode_large (ih hhigh), Nat.mod_add_div]

/-- A number below the bound is read from its varint, and what follows is left. -/
theorem decode_groups {n : Nat} (h : n < bound) (rest : Bytes) :
    decode (groups n ++ rest) = .ok (n, rest) :=
  decodeWithin_groups (bound_eq ▸ h) rest

theorem encode_eq_ok {n : Nat} {bytes : Bytes} : encode n = .ok bytes ↔ n < bound ∧ groups n = bytes := by
  unfold encode; split <;> simp [*]

theorem encode_of_lt {n : Nat} (h : n < bound) : encode n = .ok (groups n) := encode_eq_ok.2 ⟨h, rfl⟩

/-- Words of 32 bits have a varint. -/
theorem word_lt_bound (n : UInt32) : n.toNat < bound := by
  have := n.toNat_lt
  simp only [bound]; omega

end PacketProtocol.Varint

namespace PacketProtocol.ZigZag

theorem fold_lt_bound {n : Int} (h : n.natAbs < bound) : fold n < Varint.bound := by
  simp only [bound, Varint.bound, fold] at h ⊢
  split <;> omega

theorem encode_eq_ok {n : Int} {bytes : Bytes} :
    encode n = .ok bytes ↔ n.natAbs < bound ∧ Varint.groups (fold n) = bytes := by
  unfold encode
  by_cases h : n.natAbs < bound
  · simp [h, Varint.encode_of_lt (fold_lt_bound h)]
  · simp [h]

end PacketProtocol.ZigZag
