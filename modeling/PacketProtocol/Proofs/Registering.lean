import PacketProtocol.Proofs.Delimiting
import PacketProtocol.Proofs.Dispatching
import PacketProtocol.Proofs.Machine.Operations
/-!
# What every registry holds

Applications register packets, and peers announce them in octets that can be anything. Either way a registry holds
packets that make sense, at most one for each key, under tags that lead to their keys and back. The machine keeps the
keys in a table of their own, which it fills packet by packet; it gives the same keys and packets.
-/

namespace PacketProtocol

/-! ## Packets -/

/-- What holds of every packet. -/
structure Packet.Regular (packet : Packet) : Prop where
  tag_pos : 1 ≤ packet.tag.utf8ByteSize
  tag_le : packet.tag.utf8ByteSize ≤ 255
  tag_clean : 0 ∉ Utf8.encode packet.tag
  bounds : ∀ slot ∈ packet.schema.slots, slot.min ≤ slot.max
  object : ∀ slots, packet.schema.shape = .object slots → 1 ≤ slots.length ∧ slots.length ≤ 255
  flatten : packet.schema.autoFlatten = true → ∃ slots, packet.schema.shape = .object slots
  empty : ∀ slot, packet.schema.shape = .single slot → slot.kind = .none → slot.min = 0 ∧ slot.max = 0
  enums : ∀ slot ∈ packet.schema.slots, ∀ package, slot.kind = .enum package →
    (1 ≤ package.tag.utf8ByteSize ∧ package.tag.utf8ByteSize ≤ 255) ∧
      (1 ≤ package.members.length ∧ package.members.length ≤ 255) ∧
        ∀ member ∈ package.members, ∀ items, member ≠ .list items

theorem EnumPackage.WellFormed.no_list {package : EnumPackage} (h : package.WellFormed) :
    ∀ member ∈ package.members, ∀ items, member ≠ .list items := by
  intro member hmember items hlist
  have hscalar := h.scalars member hmember
  rw [hlist] at hscalar
  cases hscalar

theorem Packet.Declared.regular {packet : Packet} (h : packet.Declared) : packet.Regular := by
  obtain ⟨hschema, htag⟩ := h.wellFormed
  obtain ⟨hpos, hle, hclean⟩ := Packet.validateTag_eq_ok.1 htag
  refine ⟨hpos, hle, hclean, hschema.bounds, ?_, ?_, ?_, ?_⟩
  · intro slots hshape
    have hslots : packet.schema.slots = slots := by rw [Schema.slots, hshape, Shape.slots]
    have hcount := hschema.slots_pos
    have hmost := hschema.slots_le
    rw [hslots] at hcount hmost
    exact ⟨hcount, hmost⟩
  · intro hflat
    have hobject := hschema.flatten hflat
    unfold Schema.isObject Shape.isObject at hobject
    cases hshape : packet.schema.shape with
    | single slot => simp [hshape] at hobject
    | object slots => exact ⟨slots, rfl⟩
  · intro slot hshape hkind
    exact hschema.empty slot hshape (by rw [hkind]; rfl)
  · intro slot hslot package hkind
    have hdeclared := hschema.kinds slot hslot
    rw [hkind] at hdeclared
    have hwell := EnumPackage.Declared.wellFormed hdeclared
    exact ⟨⟨hwell.tag_pos, hwell.tag_le⟩, ⟨hwell.members_pos, hwell.members_le⟩, hwell.no_list⟩

/-! ## Keys in a table -/

namespace Machine

/-- The packets by index, one less than their keys, and the keys by tag. -/
structure Table where
  packets : List Packet
  keys : Std.HashMap String UInt8

namespace Table

def empty : Table := ⟨[], ∅⟩

/-- Adds a packet at the end; its key is cut to an octet. -/
def insert (t : Table) (packet : Packet) : Result Table :=
  if t.keys.contains packet.tag then .error (.duplicateTag packet.tag)
  else if Registry.maxPackets ≤ t.packets.length then .error (.registryFull Registry.maxPackets)
  else .ok ⟨t.packets ++ [packet], t.keys.insert packet.tag (UInt8.ofNat (t.packets.length + 1))⟩

def keyOf (t : Table) (tag : String) : Result UInt8 :=
  match t.keys[tag]? with
  | some key => .ok key
  | none => .error (.unknownTag tag)

def byKey (t : Table) (key : UInt8) : Result Packet :=
  match (sub key.toNat 1).bind fun i => index t.packets i with
  | some packet => .ok packet
  | none => .error (.unknownKey key)

/-- The tables of a registry. -/
structure Holds (t : Table) (registry : Registry) : Prop where
  packets : t.packets = registry.packets
  keys : ∀ tag : String, t.keys[tag]? = registry.key? tag

variable {t : Table} {registry : Registry}

theorem empty_holds : empty.Holds .empty := ⟨rfl, fun _ => Std.HashMap.getElem?_empty⟩

theorem Holds.keyOf (h : t.Holds registry) (tag : String) : t.keyOf tag = registry.keyOf tag := by
  cases hkey : registry.key? tag <;> simp [Table.keyOf, Registry.keyOf, h.keys, hkey]

theorem Holds.byKey (h : t.Holds registry) (key : UInt8) : t.byKey key = registry.byKey key := by
  rw [Table.byKey, Registry.byKey, h.packets]
  by_cases hzero : key = 0
  · subst hzero
    rfl
  · have hpos : 1 ≤ key.toNat := Nat.one_le_iff_ne_zero.2 fun h => hzero (UInt8.toNat_inj.1 h)
    rw [sub_of_le hpos, if_neg hzero]
    rfl

/-- A new tag has the key behind the last one. -/
theorem key?_concat (registry : Registry) (packet : Packet) (tag : String) :
    Registry.key? ⟨registry.packets ++ [packet]⟩ tag =
      (registry.key? tag).or (if packet.tag = tag then some (UInt8.ofNat (registry.size + 1)) else none) := by
  unfold Registry.key? Registry.size
  rw [List.findIdx?_append]
  cases registry.packets.findIdx? fun packet => packet.tag == tag with
  | some i => rfl
  | none => by_cases htag : packet.tag = tag <;> simp [htag]

/-- Both add the packet, or both refuse it for the same reason. -/
theorem Holds.insert (h : t.Holds registry) (packet : Packet) :
    (∃ e, t.insert packet = .error e ∧ registry.insert packet = .error e) ∨
      ∃ t' registry', t.insert packet = .ok t' ∧ registry.insert packet = .ok registry' ∧ t'.Holds registry' := by
  have hcontains : t.keys.contains packet.tag = registry.contains packet.tag := by
    rw [Std.HashMap.contains_eq_isSome_getElem?, h.keys, Registry.contains]
  unfold Table.insert Registry.insert
  rw [hcontains, h.packets]
  by_cases htag : registry.contains packet.tag = true
  · rw [if_pos htag, if_pos htag]
    exact .inl ⟨_, rfl, rfl⟩
  rw [if_neg htag, if_neg htag]
  by_cases hfull : Registry.maxPackets ≤ registry.packets.length
  · rw [if_pos hfull]
    exact .inl ⟨_, rfl, if_pos hfull⟩
  · rw [if_neg hfull]
    refine .inr ⟨_, _, rfl, if_neg hfull, rfl, ?_⟩
    intro tag
    have hnone : registry.key? packet.tag = none := by simpa [Registry.contains] using htag
    rw [Std.HashMap.getElem?_insert, h.keys, key?_concat]
    by_cases hsame : packet.tag = tag
    · subst hsame
      simp [hnone, Registry.size]
    · simp [hsame]

/-- Filled packet by packet, the tables follow the registry. -/
theorem Holds.foldlM (h : t.Holds registry) (packets : List Packet) {registry' : Registry}
    (hregister : packets.foldlM Registry.insert registry = .ok registry') :
    ∃ t', packets.foldlM Table.insert t = .ok t' ∧ t'.Holds registry' := by
  induction packets generalizing t registry with
  | nil =>
    cases hregister
    exact ⟨t, rfl, h⟩
  | cons packet packets ih =>
    rw [List.foldlM_cons] at hregister
    obtain ⟨next, hnext, hrest⟩ := Outcome.bind_eq_ok.1 hregister
    obtain ⟨e, -, he⟩ | ⟨t', next', hinsert, hnext', hholds⟩ := h.insert packet
    · rw [he] at hnext
      cases hnext
    · obtain rfl := Outcome.ok_unique hnext hnext'
      obtain ⟨last, hlast, hheld⟩ := ih hholds hrest
      refine ⟨last, ?_, hheld⟩
      rw [List.foldlM_cons, hinsert]
      exact hlast

end Table

end Machine

/-! ## Registries -/

namespace Registry

/-- Registries that an application registered, that were read from octets or that a handshake told of, with enabled
bits set since. -/
inductive Obtained : Registry → Prop
  | register {packets : List Packet} {registry : Registry} :
      (∀ packet ∈ packets, packet.Declared) → register packets = .ok registry → Obtained registry
  | read {bytes : Bytes} {registry : Registry} : read bytes = .ok registry → Obtained registry
  | client {bytes : Bytes} {handshake : Handshake} :
      Handshake.parse bytes = .ok handshake → Obtained handshake.client
  | server {bytes : Bytes} {handshake : Handshake} :
      Handshake.parse bytes = .ok handshake → Obtained handshake.server
  | setEnabled {registry : Registry} (tag : String) (enabled : Bool) :
      Obtained registry → Obtained (registry.setEnabled tag enabled)

/-- What holds of every registry. -/
structure Regular (registry : Registry) : Prop where
  size_le : registry.size ≤ 255
  tags_nodup : registry.tags.Nodup
  /-- The packets have the keys 1, 2, 3, … in their order. -/
  nth : ∀ i packet, registry.packets[i]? = some packet →
    ∃ key : UInt8, key.toNat = i + 1 ∧ registry.byKey key = .ok packet
  /-- Tags lead to keys as keys lead to tags. -/
  inverse : ∀ tag key, registry.keyOf tag = .ok key ↔ registry.tagOf key = .ok tag
  known_key : ∀ key, (∃ tag, registry.tagOf key = .ok tag) ↔ 1 ≤ key.toNat ∧ key.toNat ≤ registry.size
  known_tag : ∀ tag, (∃ key, registry.keyOf tag = .ok key) ↔ tag ∈ registry.tags
  unknown_key : ∀ key : UInt8, key.toNat = 0 ∨ registry.size < key.toNat →
    registry.byKey key = .error (.unknownKey key) ∧ registry.tagOf key = .error (.unknownKey key)
  packets : ∀ packet ∈ registry.packets, packet.Regular
  /-- The tables filled packet by packet hold the same. -/
  tables : ∃ t, registry.packets.foldlM Machine.Table.insert .empty = .ok t ∧
    (∀ tag, t.keyOf tag = registry.keyOf tag) ∧ ∀ key, t.byKey key = registry.byKey key

variable {registry : Registry}

theorem read_go_obtained {room : Nat} {registry' : Registry} {bytes : Bytes} (hnum : registry.Numbered)
    (hdeclared : ∀ packet ∈ registry.packets, packet.Declared) (h : read.go room registry bytes = .ok registry') :
    registry'.Numbered ∧ ∀ packet ∈ registry'.packets, packet.Declared := by
  -- on how many more records may come; `registry` holds the packets read so far
  induction room generalizing registry bytes with
  | zero => cases h
  | succ room ih =>
    unfold read.go at h
    split at h
    · cases h
      exact ⟨hnum, hdeclared⟩
    · obtain ⟨⟨packet, rest⟩, hpacket, h⟩ := Outcome.bind_eq_ok.1 h
      obtain ⟨next, hnext, h⟩ := Outcome.bind_eq_ok.1 h
      have hrecord := (Packet.parser_delimits _ _ _ hpacket).1
      refine ih (insertRead_numbered hnum hnext) ?_ h
      rw [insertRead_packets hnum hnext]
      exact List.forall_mem_append.2 ⟨hdeclared, by simpa using hrecord.declared⟩

/-- However a registry was obtained, its packets are numbered and were declared. -/
theorem Obtained.declared (h : registry.Obtained) :
    registry.Numbered ∧ ∀ packet ∈ registry.packets, packet.Declared := by
  induction h with
  | register hpackets h =>
    obtain ⟨rfl, hnum⟩ := register_eq_ok.1 h
    exact ⟨hnum, hpackets⟩
  | read h => exact read_go_obtained empty_numbered nofun h
  | client h =>
    obtain ⟨_, _, -, -, -, -, hrecords⟩ := Handshake.sections_of_parse h
    exact ⟨(Handshake.parse_numbered h).1, fun packet hpacket => (hrecords packet (by simp [hpacket])).declared⟩
  | server h =>
    obtain ⟨_, _, -, -, -, -, hrecords⟩ := Handshake.sections_of_parse h
    exact ⟨(Handshake.parse_numbered h).2, fun packet hpacket => (hrecords packet (by simp [hpacket])).declared⟩
  | setEnabled tag enabled _ ih =>
    refine ⟨(setEnabled_alike _ tag enabled).numbered ih.1, ?_⟩
    intro packet hpacket
    obtain ⟨before, hbefore, rfl⟩ := List.mem_map.1 hpacket
    split
    · exact .enabled enabled (ih.2 before hbefore)
    · exact ih.2 before hbefore

theorem tagOf_eq_ok {key : UInt8} {tag : String} :
    registry.tagOf key = .ok tag ↔ ∃ packet, registry.byKey key = .ok packet ∧ packet.tag = tag :=
  Outcome.map_eq_ok

theorem Numbered.inverse (h : registry.Numbered) (tag : String) (key : UInt8) :
    registry.keyOf tag = .ok key ↔ registry.tagOf key = .ok tag := by
  rw [tagOf_eq_ok]
  constructor
  · exact h.byKey_of_keyOf
  · rintro ⟨packet, hkey, rfl⟩
    exact h.keyOf_of_byKey hkey

theorem exists_byKey_iff {key : UInt8} :
    (∃ packet, registry.byKey key = .ok packet) ↔ 1 ≤ key.toNat ∧ key.toNat ≤ registry.size := by
  have hpos : key ≠ 0 ↔ 1 ≤ key.toNat := by
    rw [Nat.one_le_iff_ne_zero, Ne, Ne, ← UInt8.toNat_inj]
    rfl
  constructor
  · rintro ⟨packet, hpacket⟩
    obtain ⟨hne, hget⟩ := byKey_eq_ok.1 hpacket
    obtain ⟨hlt, -⟩ := List.getElem?_eq_some_iff.1 hget
    have hone := hpos.1 hne
    refine ⟨hone, ?_⟩
    show key.toNat ≤ registry.packets.length
    omega
  · rintro ⟨hone, hle⟩
    have hlt : key.toNat - 1 < registry.packets.length := Nat.lt_of_lt_of_le (Nat.sub_lt hone Nat.one_pos) hle
    exact ⟨_, byKey_eq_ok.2 ⟨hpos.2 hone, List.getElem?_eq_getElem hlt⟩⟩

theorem exists_keyOf_iff {tag : String} :
    (∃ key, registry.keyOf tag = .ok key) ↔ tag ∈ registry.tags := by
  rw [← contains_iff, contains, Option.isSome_iff_exists]
  simp only [keyOf_eq_ok]

theorem regular_of_declared (hnum : registry.Numbered) (hdeclared : ∀ packet ∈ registry.packets, packet.Declared) :
    registry.Regular where
  size_le := hnum.size
  tags_nodup := hnum.tags
  nth := by
    intro i packet hget
    have hlt := (List.getElem?_eq_some_iff.1 hget).1
    have hkey : (UInt8.ofNat (i + 1)).toNat = i + 1 :=
      UInt8.toNat_ofNat_of_lt' (Nat.lt_succ_of_le (Nat.le_trans hlt hnum.size))
    exact ⟨_, hkey, hnum.byKey_of_getElem? hget⟩
  inverse := hnum.inverse
  known_key := by
    intro key
    rw [← exists_byKey_iff]
    simp only [tagOf_eq_ok]
    constructor
    · rintro ⟨_, packet, hpacket, -⟩
      exact ⟨packet, hpacket⟩
    · rintro ⟨packet, hpacket⟩
      exact ⟨_, packet, hpacket, rfl⟩
  known_tag _ := exists_keyOf_iff
  unknown_key := by
    intro key hkey
    have herror : registry.byKey key = .error (.unknownKey key) := by
      cases hpacket : registry.byKey key with
      | ok packet =>
        have := exists_byKey_iff.1 ⟨packet, hpacket⟩
        omega
      | error e => rw [byKey_eq_error hpacket]
    exact ⟨herror, by rw [tagOf, herror]; rfl⟩
  packets packet hpacket := (hdeclared packet hpacket).regular
  tables := by
    obtain ⟨t, hfold, hholds⟩ := Machine.Table.empty_holds.foldlM registry.packets (register_eq_ok.2 ⟨rfl, hnum⟩)
    exact ⟨t, hfold, hholds.keyOf, hholds.byKey⟩

/-- Every registry is regular, and packets can be registered iff their tags are distinct and there is a key for each
of them. -/
theorem obtained_regular :
    (∀ registry : Registry, registry.Obtained → registry.Regular) ∧
      ∀ packets, (∃ registry, register packets = .ok registry) ↔
        (packets.map Packet.tag).Nodup ∧ packets.length ≤ 255 := by
  constructor
  · intro registry h
    exact regular_of_declared h.declared.1 h.declared.2
  · intro packets
    constructor
    · rintro ⟨registry, h⟩
      obtain ⟨rfl, hnum⟩ := register_eq_ok.1 h
      exact ⟨hnum.tags, hnum.size⟩
    · rintro ⟨htags, hsize⟩
      exact ⟨⟨packets⟩, register_eq_ok.2 ⟨rfl, htags, hsize⟩⟩

namespace Maze

def way : EnumPackage := ⟨"way", [.string "up", .int (-1)]⟩

/-- A way and up to two steps, in a batch. -/
def move : Packet :=
  { tag := "move"
    schema := { shape := .object [⟨.enum way, 1, 1⟩, ⟨.intsFixed, 0, 2⟩], batchInterval := 50, maxBatch := 4 } }

/-- Up to nine lines, three times in a window. -/
def say : Packet := { tag := "say", schema := { shape := .single ⟨.strings, 1, 9⟩, rateLimit := 3 }, enabled := false }

def told : Registry := ⟨[move, say]⟩

/-- A handshake that tells of both, and of nothing that the server sends. -/
def message : Bytes :=
  [84, 87, 73, 82, 1, 141, 2, 1, 1, 0, 2, 7, 3, 119, 97, 121, 2, 6, 2, 117, 112, 4, 1, 3, 50, 4, 0, 4, 109, 111, 118,
    101, 129, 1, 9, 2, 0, 0, 3, 3, 115, 97, 121, 0, 0, 1]

end Maze

/-- A registry that a handshake tells of, with its first packet switched off. Its second tag has the second key, and
neither zero nor three is a key. -/
theorem obtained_regular_maze :
    Handshake.parse Maze.message = .ok ⟨1, Maze.told, .empty, 1⟩ ∧
      (Maze.told.setEnabled "move" false).Obtained ∧
      (Maze.told.setEnabled "move" false).Regular ∧
      (Maze.told.setEnabled "move" false).keyOf "say" = .ok 2 ∧
      (Maze.told.setEnabled "move" false).tagOf 2 = .ok "say" ∧
      (Maze.told.setEnabled "move" false).byKey 0 = .error (.unknownKey 0) ∧
      (Maze.told.setEnabled "move" false).byKey 3 = .error (.unknownKey 3) ∧
      (∃ registry, register [Maze.move, Maze.say] = .ok registry) ∧
      ¬∃ registry, register [Maze.move, Maze.say, Maze.move] = .ok registry := by
  have hparse : Handshake.parse Maze.message = .ok ⟨1, Maze.told, .empty, 1⟩ := by cbv
  have hobtained := Obtained.setEnabled "move" false (.client hparse)
  have hregular := obtained_regular.1 _ hobtained
  have hkey : (Maze.told.setEnabled "move" false).keyOf "say" = .ok 2 := rfl
  refine ⟨hparse, hobtained, hregular, hkey, (hregular.inverse "say" 2).1 hkey, (hregular.unknown_key 0 (.inl rfl)).1,
    (hregular.unknown_key 3 (.inr (by decide))).1, (obtained_regular.2 _).2 (by decide), fun h => ?_⟩
  exact absurd ((obtained_regular.2 _).1 h) (by decide)

end Registry

end PacketProtocol
