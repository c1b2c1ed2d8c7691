import PacketProtocol.Batcher
import PacketProtocol.Proofs.Outcome
import PacketProtocol.Proofs.Varint
/-!
# Batches are taken apart again

The body of a batch is its payloads, each behind its length, so taking it apart gives the same
payloads in the same order, as long as there are no more of them than the receiver allows.
-/

namespace PacketProtocol.Batcher

theorem fragment_ne_nil (payload : Bytes) : fragment payload ≠ [] := by
  simp [fragment, Varint.groups_ne_nil]

/-- One round of taking a body apart. -/
theorem fragments_eq (maxBatch : UInt32) (total found : Nat) (body : Bytes) :
    fragments maxBatch total found body =
      if body.isEmpty then .ok []
      else if 0 < maxBatch ∧ maxBatch.toNat ≤ found then .error (.tooMany maxBatch)
      else (Varint.decode body).mapError .badLength >>= fun read =>
        if read.2.length < read.1 then .error (.overrun read.1 (total - read.2.length))
        else (read.2.take read.1 :: ·) <$> fragments maxBatch total (found + 1) (read.2.drop read.1) := by
  rw [fragments]
  split
  · rfl
  · split
    · rfl
    · split
      · rename_i hdecode
        rw [hdecode]
        rfl
      · rename_i length rest hdecode
        simp only [hdecode]
        show _ = if rest.length < length then _ else _ <$> fragments maxBatch total (found + 1) (rest.drop length)
        split
        · rfl
        · cases fragments maxBatch total (found + 1) (rest.drop length) <;> rfl

theorem fragments_nil (maxBatch : UInt32) (total found : Nat) : fragments maxBatch total found [] = .ok [] := by
  rw [fragments]
  rfl

/-- The first fragment of a body that may still have one. -/
theorem fragments_cons {maxBatch : UInt32} {total found : Nat} {payload body : Bytes} {payloads : List Bytes}
    (hlt : payload.length < Varint.bound) (hroom : 0 < maxBatch → found < maxBatch.toNat)
    (h : fragments maxBatch total (found + 1) body = .ok payloads) :
    fragments maxBatch total found (fragment payload ++ body) = .ok (payload :: payloads) := by
  have hdecode : Varint.decode (fragment payload ++ body) = .ok (payload.length, payload ++ body) := by
    rw [fragment, List.append_assoc]
    exact Varint.decode_groups hlt (payload ++ body)
  rw [fragments_eq, if_neg (by simp [fragment_ne_nil]), if_neg fun hfull => Nat.not_le.2 (hroom hfull.1) hfull.2,
    hdecode]
  show (if (payload ++ body).length < payload.length then _ else _ <$> fragments _ _ _ ((payload ++ body).drop _)) = _
  rw [if_neg (by simp), List.drop_left, h, List.take_left]
  rfl

theorem fragments_flatMap {maxBatch : UInt32} {total found : Nat} {payloads : List Bytes}
    (hlt : ∀ payload ∈ payloads, payload.length < Varint.bound)
    (hroom : 0 < maxBatch → found + payloads.length ≤ maxBatch.toNat) :
    fragments maxBatch total found (payloads.flatMap fragment) = .ok payloads := by
  -- on the payloads that are left, `found` of them being taken already
  induction payloads generalizing found with
  | nil => exact fragments_nil ..
  | cons payload payloads ih =>
    simp only [List.length_cons] at hroom
    rw [List.flatMap_cons]
    refine fragments_cons (hlt payload (by simp)) (fun h => ?_) (ih (fun p hp => hlt p (by simp [hp])) fun h => ?_)
    · have := hroom h
      omega
    · have := hroom h
      omega

/-- A batch with something in it is taken apart into its payloads. -/
theorem unravel_flatMap {tag : String} {maxBatch : UInt32} {payloads : List Bytes} (hne : payloads ≠ [])
    (hlt : ∀ payload ∈ payloads, payload.length < Varint.bound)
    (hroom : 0 < maxBatch → payloads.length ≤ maxBatch.toNat) :
    unravel tag (payloads.flatMap fragment) maxBatch = .ok payloads := by
  obtain ⟨payload, payloads, rfl⟩ := List.exists_cons_of_ne_nil hne
  rw [unravel, if_neg (by simp [fragment_ne_nil]), fragments_flatMap hlt fun h => by simpa using hroom h]
  rfl

theorem length_le_of_mem_fragments {maxBatch : UInt32} {total found : Nat} {body : Bytes} {payloads : List Bytes}
    (h : fragments maxBatch total found body = .ok payloads) : ∀ payload ∈ payloads, payload.length ≤ body.length := by
  fun_induction fragments maxBatch total found body generalizing payloads with
  | case1 => cases h; nofun
  | case2 => cases h
  | case3 => cases h
  | case4 => cases h
  | case5 => cases h
  | case6 found body _ _ length rest hdecode _ _ others hothers ih =>
    cases h
    have hlt := Varint.length_lt_of_decode hdecode
    intro payload hpayload
    obtain rfl | hpayload := List.mem_cons.1 hpayload
    · rw [List.length_take]
      omega
    · have hle := ih hothers payload hpayload
      rw [List.length_drop] at hle
      omega

theorem length_le_of_mem_unravel {tag : String} {body : Bytes} {maxBatch : UInt32} {payloads : List Bytes}
    (h : unravel tag body maxBatch = .ok payloads) : ∀ payload ∈ payloads, payload.length ≤ body.length := by
  unfold unravel at h
  split at h
  · cases h
  · exact length_le_of_mem_fragments (Outcome.mapError_eq_ok.1 h)

end PacketProtocol.Batcher
