import PacketProtocol.Proofs.Delimiting
/-!
# Handshakes that are sent on

A handshake that was read can be written again, and what is written is read as the same handshake. Two
members of enum packages stand in the way: the least integer that a varint unfolds to is read but not
written, and a NaN is equal to nothing, so that a registry which holds one is not even its own equal.
-/

namespace PacketProtocol

/-! ## What is written again -/

/-- The integer that is read but not written. -/
def Value.lowest : Value := .int (.ofInt ZigZag.lowest)

theorem EnumPackage.exists_write {package : EnumPackage} (h : ∀ member ∈ package.members, Rewritable member) :
    (∃ bytes, package.write = .ok bytes) ↔ Value.lowest ∉ package.members := by
  refine (Outcome.exists_bind_of_total fun chunks => ⟨_, rfl⟩).trans (Outcome.exists_mapM_iff.trans ?_)
  constructor
  · exact fun hall hmem => (h _ hmem package.tag).1 (hall _ hmem) rfl
  · exact fun hnone member hmem => (h member hmem package.tag).2 fun hlowest =>
      hnone (by rwa [hlowest] at hmem)

theorem PayloadKind.exists_write {kind : PayloadKind} (h : ∀ member ∈ kind.members, EnumPackage.Rewritable member) :
    (∃ bytes, kind.write = .ok bytes) ↔ Value.lowest ∉ kind.members := by
  cases kind with
  | enum package =>
    exact (Outcome.exists_bind_of_total fun octets => ⟨_, rfl⟩).trans (EnumPackage.exists_write h)
  | _ => exact iff_of_true ⟨_, rfl⟩ List.not_mem_nil

/-- All of a record but the kinds can always be written. -/
theorem Packet.exists_write {packet : Packet} (h : packet.OfRecord) :
    (∃ record, packet.write = .ok record) ↔ Value.lowest ∉ packet.members := by
  have hword : ∀ n : UInt32, Varint.encode n.toNat = .ok (Varint.groups n.toNat) :=
    fun n => Varint.encode_of_lt (Varint.word_lt_bound n)
  have hcount : ∃ count, writeCount packet.schema = .ok count := by
    unfold writeCount
    split
    · have hle : packet.schema.slots.length ≤ 255 := h.declared.wellFormed.schema.slots_le
      exact ⟨_, Varint.encode_of_lt (Nat.lt_of_le_of_lt hle (by decide))⟩
    · exact ⟨_, rfl⟩
  have hbounds : ∃ bounds, packet.schema.slots.mapM writeBounds = .ok bounds := by
    refine Outcome.exists_mapM fun slot _ => ?_
    exact (Outcome.exists_bind_of_ok (hword _)).2 ((Outcome.exists_bind_of_ok (hword _)).2 ⟨_, rfl⟩)
  have hkinds : (∃ kinds, packet.schema.slots.mapM (fun slot => slot.kind.write) = .ok kinds) ↔
      Value.lowest ∉ packet.members := by
    rw [Outcome.exists_mapM_iff, members, List.mem_flatMap, not_exists]
    refine forall_congr' fun slot => ?_
    rw [not_and]
    refine forall_congr' fun hslot => PayloadKind.exists_write fun member hmember => ?_
    exact h.members member (List.mem_flatMap.2 ⟨slot, hslot, hmember⟩)
  obtain ⟨count, hcount⟩ := hcount
  obtain ⟨bounds, hbounds⟩ := hbounds
  refine (Outcome.exists_bind_of_ok hcount).trans ((Outcome.exists_bind_of_ok hbounds).trans
    ((Outcome.exists_bind_of_total fun kinds => ?_).trans hkinds))
  refine (Outcome.exists_bind_of_ok (hword _)).2 ((Outcome.exists_bind_of_ok (hword _)).2 ?_)
  exact (Outcome.exists_bind_of_ok (hword _)).2 ⟨_, rfl⟩

namespace Registry

/-- The enum members of all packets. -/
def members (registry : Registry) : List Value := registry.packets.flatMap Packet.members

theorem exists_write {registry : Registry} (h : ∀ packet ∈ registry.packets, packet.OfRecord) :
    (∃ bytes, registry.write = .ok bytes) ↔ Value.lowest ∉ registry.members := by
  refine (Outcome.exists_bind_of_total fun records => ⟨_, rfl⟩).trans ?_
  rw [Outcome.exists_mapM_iff, members, List.mem_flatMap, not_exists]
  refine forall_congr' fun packet => ?_
  rw [not_and]
  exact forall_congr' fun hpacket => Packet.exists_write (h packet hpacket)

end Registry

/-! ## What is equal to itself -/

namespace Value

/-- Whether the value is a number that is equal to none. -/
def isNaN : Value → Bool
  | number x => x.isNaN
  | _ => false

theorem same_self {value : Value} (h : value.isList = false) : value.same value = !value.isNaN := by
  cases value with
  | number x => simp [same, isNaN, Binary64.equal]
  | list items => cases h
  | _ => simp [same, isNaN]

theorem sameAll_self {values : List Value} (h : ∀ value ∈ values, value.isList = false) :
    sameAll values values = true ↔ ∀ value ∈ values, value.isNaN = false := by
  induction values with
  | nil => exact iff_of_true rfl nofun
  | cons value values ih =>
    simp only [List.mem_cons, forall_eq_or_imp] at h ⊢
    rw [sameAll, Bool.and_eq_true, same_self h.1, ih h.2, Bool.not_eq_true']

end Value

theorem PayloadKind.same_self {kind : PayloadKind} (h : kind.Declared) :
    kind.same kind = true ↔ ∀ member ∈ kind.members, member.isNaN = false := by
  cases kind with
  | enum package =>
    show (package.tag == package.tag && Value.sameAll package.members package.members) = true ↔ _
    rw [beq_self_eq_true, Bool.true_and]
    exact Value.sameAll_self h.wellFormed.scalars
  | _ => exact iff_of_true rfl nofun

theorem Packet.same_self {packet : Packet} (h : packet.Declared) :
    packet.same packet = true ↔ ∀ member ∈ packet.members, member.isNaN = false := by
  have hslot : ∀ slot ∈ packet.schema.slots,
      (slot.same slot = true ↔ ∀ member ∈ slot.kind.members, member.isNaN = false) := by
    intro slot hslot
    rw [Slot.same, beq_self_eq_true, beq_self_eq_true, Bool.and_true, Bool.and_true]
    exact PayloadKind.same_self (h.wellFormed.schema.kinds slot hslot)
  have hshape : packet.schema.shape.same packet.schema.shape = packet.schema.slots.all fun slot => slot.same slot := by
    rw [Schema.slots]
    cases packet.schema.shape with
    | single slot => simp [Shape.same, Shape.slots]
    | object slots => simp [Shape.same, Shape.slots, List.zipWith_self]
  have hpacket : packet.same packet = packet.schema.shape.same packet.schema.shape := by simp [same, Schema.same]
  rw [hpacket, hshape, List.all_eq_true, members, List.forall_mem_flatMap]
  exact forall₂_congr hslot

theorem Registry.sameLayout_self {registry : Registry} (h : ∀ packet ∈ registry.packets, packet.OfRecord) :
    registry.sameLayout registry = true ↔ ∀ member ∈ registry.members, member.isNaN = false := by
  have hlayout : registry.sameLayout registry = registry.packets.all fun packet => packet.same packet := by
    simp [sameLayout, List.zipWith_self]
  rw [hlayout, List.all_eq_true, members, List.forall_mem_flatMap]
  exact forall₂_congr fun packet hpacket => Packet.same_self (h packet hpacket).declared

/-! ## Handshakes -/

namespace Handshake

variable {bytes : Bytes} {handshake : Handshake}

/-- A handshake that was read can be written again, unless an enum member is the integer that is not written.
What is written is read as the same handshake; its registries have the layouts of the first but for members
that are NaN. -/
theorem parse_encode_of_parse (h : parse bytes = .ok handshake) :
    ((∃ again, encode handshake.client handshake.server handshake.rateWindow = .ok again) ↔
        Value.lowest ∉ handshake.client.members ++ handshake.server.members) ∧
      ∀ again, encode handshake.client handshake.server handshake.rateWindow = .ok again →
        parse again = .ok handshake ∧
          (handshake.client.sameLayout handshake.client = true ↔
            ∀ member ∈ handshake.client.members, member.isNaN = false) ∧
          (handshake.server.sameLayout handshake.server = true ↔
            ∀ member ∈ handshake.server.members, member.isNaN = false) := by
  obtain ⟨_, _, -, -, -, hversion, hpackets⟩ := sections_of_parse h
  obtain ⟨hclients, hservers⟩ := List.forall_mem_append.1 hpackets
  obtain ⟨hclientNum, hserverNum⟩ := parse_numbered h
  constructor
  · rw [List.mem_append, not_or, ← Registry.exists_write hclients, ← Registry.exists_write hservers]
    constructor
    · rintro ⟨again, hagain⟩
      obtain ⟨clientBytes, hclient, hagain⟩ := Outcome.bind_eq_ok.1 hagain
      obtain ⟨serverBytes, hserver, -⟩ := Outcome.bind_eq_ok.1 hagain
      exact ⟨⟨clientBytes, hclient⟩, serverBytes, hserver⟩
    · rintro ⟨⟨clientBytes, hclient⟩, serverBytes, hserver⟩
      exact (Outcome.exists_bind_of_ok hclient).2 ((Outcome.exists_bind_of_ok hserver).2 ⟨_, rfl⟩)
  · intro again hagain
    have hread := parse_encode hclientNum hserverNum
      (fun packet hpacket => (hclients packet hpacket).declared.wellFormed)
      (fun packet hpacket => (hservers packet hpacket).declared.wellFormed) hagain
    -- no packet of a handshake has a validator, so nothing stays behind
    rw [Registry.announced_of_validator fun packet hpacket => (hclients packet hpacket).validator,
      Registry.announced_of_validator fun packet hpacket => (hservers packet hpacket).validator, ← hversion] at hread
    exact ⟨hread, Registry.sameLayout_self hclients, Registry.sameLayout_self hservers⟩

namespace Extremes

/-- A handshake of one packet of the client's, of an enum kind with one member. -/
def told (member : Value) : Handshake :=
  { version := 1
    client := ⟨[{ tag := "p", schema := { shape := .single ⟨.enum ⟨"e", [member]⟩, 0, 1⟩ } }]⟩
    server := ⟨[]⟩
    rateWindow := 1 }

/-- The message that tells of it, from the octets of the member. -/
def message (member : Bytes) : Bytes :=
  [0x54, 0x57, 0x49, 0x52, 1, 0x89, 0, 1, 7, 1, 0x65, 1] ++ member ++ [0, 0, 0, 1, 0x70, 0, 0, 1]

def lowest : Bytes := [4, 0xff, 0xff, 0xff, 0xff, 0xff, 0xff, 0x7f]

def nan : Bytes := [5, 0x7f, 0xf8, 0, 0, 0, 0, 0, 0]

end Extremes

/-- The lowest integer is read and cannot be written. A NaN is read, written and read again, and yet the layouts
differ. -/
theorem parse_encode_of_parse_extremes :
    let lowest := Extremes.told Value.lowest
    let nan := Extremes.told (.number .nan)
    (parse (Extremes.message Extremes.lowest) = .ok lowest ∧
        ¬∃ again, encode lowest.client lowest.server lowest.rateWindow = .ok again) ∧
      parse (Extremes.message Extremes.nan) = .ok nan ∧
        ∃ again, encode nan.client nan.server nan.rateWindow = .ok again ∧ parse again = .ok nan ∧
          nan.client.sameLayout nan.client = false := by
  intro lowest nan
  have hlowest : parse (Extremes.message Extremes.lowest) = .ok lowest := by cbv
  have hnan : parse (Extremes.message Extremes.nan) = .ok nan := by cbv
  obtain ⟨hwritten, hread⟩ := parse_encode_of_parse hnan
  have hmembers : nan.client.members ++ nan.server.members = [.number .nan] := rfl
  obtain ⟨again, hagain⟩ := hwritten.2 (by rw [hmembers]; simp [Value.lowest])
  obtain ⟨hagain', hlayout, -⟩ := hread again hagain
  refine ⟨⟨hlowest, fun hwrite => ?_⟩, hnan, again, hagain, hagain', ?_⟩
  · exact (parse_encode_of_parse hlowest).1.1 hwrite (List.mem_append_left _ List.mem_cons_self)
  · rw [← Bool.not_eq_true, hlayout]
    exact fun hall => absurd (hall (.number .nan) List.mem_cons_self) (by decide)

end Handshake

end PacketProtocol
