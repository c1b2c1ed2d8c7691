import PacketProtocol.Packet.Record
import PacketProtocol.Proofs.Declared
import PacketProtocol.Proofs.Reading
/-!
# Records are read back

A declared packet is read from its record, whatever comes behind: every part of a record is written
behind what its reader needs to know, so no reader looks past its own part. Validators do not
travel; what arrives is the packet as announced.
-/

namespace PacketProtocol

open scoped Numerals

/-! ## Octets of a double -/

namespace Bytes

theorem foldl_bigEndian (width n acc : Nat) :
    (bigEndian width n).foldl (fun n octet => 256 * n + octet.toNat) acc =
      256 ^ width * acc + n % 256 ^ width := by
  induction width generalizing acc with
  | zero => simp [bigEndian, Nat.mod_one]
  | succ width ih =>
    have ho : (UInt8.ofNat (n / 256 ^ width)).toNat = n / 256 ^ width % 256 := by simp
    rw [bigEndian, List.foldl_cons, ih, ho, Nat.mod_pow_succ, Nat.pow_succ, Nat.mul_add]
    rw [← Nat.mul_assoc]
    omega

theorem toNat_bigEndian {width n : Nat} (h : n < 256 ^ width) : toNat (bigEndian width n) = n := by
  rw [toNat, foldl_bigEndian, Nat.mul_zero, Nat.zero_add, Nat.mod_eq_of_lt h]

end Bytes

theorem Binary64.ofBytes_toBytes (x : Binary64) : ofBytes x.toBytes = x := by
  have h : Bytes.toNat (Bytes.bigEndian 8 x.bits.toNat) = x.bits.toNat :=
    Bytes.toNat_bigEndian x.bits.toNat_lt
  rw [ofBytes, toBytes, h, UInt64.ofNat_toNat]

/-! ## Enum packages -/

namespace EnumPackage

theorem memberParser_reads {tag : String} {member : Value} {bytes : Bytes}
    (h : writeMember tag member = .ok bytes) : memberParser.Reads bytes member := by
  cases member with
  | undefined => cases h; exact (Parser.octet_reads 0).andThen (.pure _)
  | null => cases h; exact (Parser.octet_reads 1).andThen (.pure _)
  | bool flag =>
    cases flag
    · cases h; exact (Parser.octet_reads 2).andThen (.pure _)
    · cases h; exact (Parser.octet_reads 3).andThen (.pure _)
  | int n =>
    obtain ⟨octets, hn, h⟩ := Outcome.bind_eq_ok.1 h
    obtain rfl := Outcome.pure_eq_ok.1 h
    refine (Parser.octet_reads 4).bind ((Parser.signedVarint_reads hn).andThen ?_)
    rw [Int64.ofInt_toInt]
    exact .pure _
  | number x =>
    cases h
    refine (Parser.octet_reads 5).bind ((Parser.take_reads x.toBytes).andThen ?_)
    rw [Binary64.ofBytes_toBytes]
    exact .pure _
  | string text =>
    obtain ⟨octets, hlength, h⟩ := Outcome.bind_eq_ok.1 h
    obtain rfl := Outcome.pure_eq_ok.1 h
    obtain ⟨hlt, rfl⟩ := Varint.encode_eq_ok.1 hlength
    exact (Parser.octet_reads 6).bind ((Parser.text_reads hlt).andThen (.pure _))
  | list items => cases h

theorem membersParser_reads {tag : String} {members : List Value} {chunks : List Bytes}
    (h : members.mapM (writeMember tag) = .ok chunks) :
    (membersParser members.length).Reads chunks.flatten members := by
  refine .entries membersParser rfl (fun _ => rfl) ?_
  exact (Outcome.mapM_eq_ok.1 h).imp fun _ _ => memberParser_reads

theorem parser_reads {package : EnumPackage} {bytes : Bytes} (hp : package.WellFormed)
    (h : package.write = .ok bytes) : parser.Reads bytes package := by
  obtain ⟨chunks, hchunks, h⟩ := Outcome.bind_eq_ok.1 h
  obtain rfl := Outcome.pure_eq_ok.1 h
  have hcount : (UInt8.ofNat package.members.length).toNat = package.members.length :=
    UInt8.toNat_ofNat_of_lt' (Nat.lt_of_le_of_lt hp.members_le (by decide))
  refine (Parser.shortText_reads hp.tag_le).bind ((Parser.octet_reads _).bind ?_)
  rw [hcount]
  refine (membersParser_reads hchunks).andThen ?_
  rw [make_eq_ok.2 ⟨rfl, hp⟩]
  exact .pure _

end EnumPackage

/-! ## Kinds -/

theorem PayloadKind.parser_reads {kind : PayloadKind} {bytes : Bytes} (hk : kind.Declared)
    (h : kind.write = .ok bytes) : PayloadKind.parser.Reads bytes kind := by
  cases kind with
  | enum package =>
    obtain ⟨octets, hoctets, h⟩ := Outcome.bind_eq_ok.1 h
    obtain rfl := Outcome.pure_eq_ok.1 h
    have hp := EnumPackage.parser_reads hk.wellFormed hoctets
    exact (Parser.octet_reads 7).bind (hp.andThen (.pure _))
  | _ => cases h; exact (Parser.octet_reads _).andThen (.pure _)

/-! ## Packets -/

namespace Packet

/-- The packet as a record tells of it: a validator stays where it was set. -/
def announced (packet : Packet) : Packet := { packet with validator := none }

theorem boundsParser_reads {slots : List Slot} {chunks : List Bytes} (h : slots.mapM writeBounds = .ok chunks) :
    (boundsParser slots.length).Reads chunks.flatten (slots.map fun slot => (slot.min, slot.max)) := by
  have hread : ∀ slot chunk, writeBounds slot = .ok chunk →
      (do let min ← Parser.word; let max ← Parser.word; return (min, max)).Reads chunk (slot.min, slot.max) := by
    intro slot chunk h
    obtain ⟨min, hmin, h⟩ := Outcome.bind_eq_ok.1 h
    obtain ⟨max, hmax, h⟩ := Outcome.bind_eq_ok.1 h
    obtain rfl := Outcome.pure_eq_ok.1 h
    obtain ⟨-, rfl⟩ := Varint.encode_eq_ok.1 hmin
    obtain ⟨-, rfl⟩ := Varint.encode_eq_ok.1 hmax
    exact (Parser.word_reads slot.min).bind ((Parser.word_reads slot.max).andThen (.pure _))
  have hall : List.Forall₂ (fun bounds chunk =>
      (do let min ← Parser.word; let max ← Parser.word; return (min, max)).Reads chunk bounds)
      (slots.map fun slot => (slot.min, slot.max)) chunks :=
    List.forall₂_map_left_iff.2 ((Outcome.mapM_eq_ok.1 h).imp hread)
  simpa using Parser.Reads.entries boundsParser rfl (fun count => by simp [boundsParser]) hall

theorem kindsParser_reads {slots : List Slot} {chunks : List Bytes}
    (hk : ∀ slot ∈ slots, slot.kind.Declared) (h : slots.mapM (fun slot => slot.kind.write) = .ok chunks) :
    (kindsParser slots.length).Reads chunks.flatten (slots.map Slot.kind) := by
  have hall := Outcome.mapM_eq_ok.1 h
  have hread : List.Forall₂ (fun kind chunk => PayloadKind.parser.Reads chunk kind) (slots.map Slot.kind) chunks := by
    clear h
    induction hall with
    | nil => exact .nil
    | cons hw _ ih =>
      exact .cons (PayloadKind.parser_reads (hk _ (by simp)) hw) (ih fun slot hslot => hk slot (by simp [hslot]))
  simpa using Parser.Reads.entries kindsParser rfl (fun _ => rfl) hread

/-- Slots of a well-formed schema make its shape again. -/
theorem schemaOf_slots {schema : Schema} (h : schema.WellFormed) :
    schemaOf schema.isObject (schema.slots.map Slot.kind) (schema.slots.map fun slot => (slot.min, slot.max)) =
      .ok { shape := schema.shape } := by
  obtain ⟨shape, _⟩ := schema
  cases shape with
  | single slot =>
    obtain ⟨kind, min, max⟩ := slot
    have hle : ¬ max < min := UInt32.not_lt.2 (h.bounds ⟨kind, min, max⟩ (by simp [Schema.slots, Shape.slots]))
    show Schema.single kind min max = .ok { shape := .single ⟨kind, min, max⟩ }
    unfold Schema.single
    by_cases hnone : kind.isNone = true
    · -- a slot without values is made with its bounds at zero
      obtain ⟨rfl, rfl⟩ := h.empty ⟨kind, min, max⟩ rfl hnone
      rw [if_pos hnone]
      rfl
    · rw [if_neg hnone]
      exact if_neg hle
  | object slots =>
    have hpos : slots ≠ [] := List.length_pos_iff.1 h.slots_pos
    have hle : ¬ Schema.maxSlots < (slots.map Slot.kind).length := by
      rw [List.length_map]; exact Nat.not_lt.2 h.slots_le
    have hmade : Schema.makeSlots (slots.map Slot.kind) (slots.map Slot.min) (slots.map Slot.max) = .ok slots :=
      (Schema.makeSlots_eq_ok (by simp) (by simp)).2 ⟨rfl, rfl, rfl, h.bounds⟩
    simp only [schemaOf, Schema.isObject, Shape.isObject, Schema.slots, Shape.slots, List.map_map]
    show Schema.object (slots.map Slot.kind) (slots.map Slot.min) (slots.map Slot.max) = _
    rw [Schema.object, if_neg (by simp [hpos]), if_neg hle, hmade]
    rfl

theorem flags_toNat (packet : Packet) :
    packet.flags.toNat = 128 + flag 1 packet.schema.spread + flag 2 packet.schema.autoFlatten +
      flag 4 packet.schema.isObject + flag 8 packet.enabled := by
  have hflag : ∀ weight isSet, flag weight isSet ≤ weight := by
    intro weight isSet; cases isSet <;> simp [flag]
  have := hflag 1 packet.schema.spread
  have := hflag 2 packet.schema.autoFlatten
  have := hflag 4 packet.schema.isObject
  have := hflag 8 packet.enabled
  simp only [flags, UInt8.toNat_ofNat']
  omega

/-- The first octet of a record holds each flag in its own bit, and no others. -/
theorem flags_bits (packet : Packet) :
    ¬ (packet.flags.toNat < 128 ∨ 128 + 16 ≤ packet.flags.toNat) ∧
      (packet.flags.toNat % 2 == 1) = packet.schema.spread ∧
      (packet.flags.toNat / 2 % 2 == 1) = packet.schema.autoFlatten ∧
      (packet.flags.toNat / 4 % 2 == 1) = packet.schema.isObject ∧
      (packet.flags.toNat / 8 % 2 == 1) = packet.enabled := by
  rw [flags_toNat]
  -- sixteen octets
  cases packet.schema.spread <;> cases packet.schema.autoFlatten <;> cases packet.schema.isObject <;>
    cases packet.enabled <;> decide

theorem flags_ne_delimiter (packet : Packet) : packet.flags ≠ delimiter := by
  intro h
  exact (flags_bits packet).1 (.inl (by rw [h]; decide))

/-- A record begins with the flags. -/
theorem write_head {packet : Packet} {bytes : Bytes} (hw : packet.write = .ok bytes) :
    ∃ tail, bytes = packet.flags :: tail := by
  simp only [write] at hw
  obtain ⟨_, -, hw⟩ := Outcome.bind_eq_ok.1 hw
  obtain ⟨_, -, hw⟩ := Outcome.bind_eq_ok.1 hw
  obtain ⟨_, -, hw⟩ := Outcome.bind_eq_ok.1 hw
  obtain ⟨_, -, hw⟩ := Outcome.bind_eq_ok.1 hw
  obtain ⟨_, -, hw⟩ := Outcome.bind_eq_ok.1 hw
  obtain ⟨_, -, hw⟩ := Outcome.bind_eq_ok.1 hw
  exact ⟨_, (Outcome.pure_eq_ok.1 hw).symm⟩

theorem countParser_reads {schema : Schema} {bytes : Bytes} (h : schema.WellFormed)
    (hw : writeCount schema = .ok bytes) : (countParser schema.isObject).Reads bytes schema.slots.length := by
  by_cases hobject : schema.isObject = true
  · have hle : schema.slots.length ≤ 255 := h.slots_le
    have hn : (UInt32.ofNat schema.slots.length).toNat = schema.slots.length := by simp; omega
    rw [writeCount, if_pos hobject] at hw
    rw [countParser, if_pos hobject]
    obtain ⟨-, rfl⟩ := Varint.encode_eq_ok.1 hw
    have := (Parser.word_reads (UInt32.ofNat schema.slots.length)).map UInt32.toNat
    rwa [hn] at this
  · have hone : schema.slots.length = 1 := by
      obtain ⟨shape, _⟩ := schema
      cases shape with
      | single slot => rfl
      | object slots => exact absurd rfl hobject
    rw [writeCount, if_neg hobject] at hw
    rw [countParser, if_neg hobject, hone]
    cases hw
    exact .pure 1

/-- A declared packet is read from its record, whatever comes behind. -/
theorem parser_reads {packet : Packet} {bytes : Bytes} (h : packet.WellFormed) (hw : packet.write = .ok bytes) :
    parser.Reads bytes packet.announced := by
  simp only [write] at hw
  obtain ⟨count, hcount, hw⟩ := Outcome.bind_eq_ok.1 hw
  obtain ⟨bounds, hbounds, hw⟩ := Outcome.bind_eq_ok.1 hw
  obtain ⟨kinds, hkinds, hw⟩ := Outcome.bind_eq_ok.1 hw
  obtain ⟨interval, hinterval, hw⟩ := Outcome.bind_eq_ok.1 hw
  obtain ⟨maxBatch, hmaxBatch, hw⟩ := Outcome.bind_eq_ok.1 hw
  obtain ⟨rateLimit, hrateLimit, hw⟩ := Outcome.bind_eq_ok.1 hw
  obtain rfl := Outcome.pure_eq_ok.1 hw
  obtain ⟨-, rfl⟩ := Varint.encode_eq_ok.1 hinterval
  obtain ⟨-, rfl⟩ := Varint.encode_eq_ok.1 hmaxBatch
  obtain ⟨-, rfl⟩ := Varint.encode_eq_ok.1 hrateLimit
  obtain ⟨hknown, hspread, hflatten, hobject, henabled⟩ := flags_bits packet
  have hslots : ¬ (packet.schema.slots.length = 0 ∨ Schema.maxSlots < packet.schema.slots.length) := by
    have := h.schema.slots_pos
    have := h.schema.slots_le
    omega
  have htag : packet.tag.utf8ByteSize ≤ 255 := (validateTag_eq_ok.1 h.tag).2.1
  have hcolumns : ({ shape := packet.schema.shape } : Schema).withAutoFlatten packet.schema.autoFlatten =
      .ok { shape := packet.schema.shape, autoFlatten := packet.schema.autoFlatten } := by
    refine if_neg ?_
    have := h.schema.flatten
    simp only [Schema.isObject] at this
    cases hf : packet.schema.autoFlatten <;> simp_all
  -- part by part, in the order they were written
  simp only [List.cons_append, List.append_assoc]
  refine (Parser.octet_reads packet.flags).bind ?_
  dsimp only
  rw [if_neg hknown, hobject]
  refine (countParser_reads h.schema hcount).bind ?_
  rw [if_neg hslots]
  refine (boundsParser_reads hbounds).bind ?_
  refine (kindsParser_reads h.schema.kinds hkinds).bind ?_
  refine (Parser.word_reads packet.schema.batchInterval).bind ?_
  refine (Parser.word_reads packet.schema.maxBatch).bind ?_
  refine (Parser.word_reads packet.schema.rateLimit).bind ?_
  refine (Parser.shortText_reads htag).andThen ?_
  rw [schemaOf_slots h.schema]
  refine (Parser.Reads.pure _).bind ?_
  rw [hflatten, hcolumns]
  refine (Parser.Reads.pure _).bind ?_
  rw [hspread, make, h.tag]
  refine (Parser.Reads.pure _).bind ?_
  rw [henabled]
  exact .pure _

end Packet

end PacketProtocol
