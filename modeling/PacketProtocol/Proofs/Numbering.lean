import PacketProtocol.Proofs.Record
import PacketProtocol.Registry
/-!
# Registries number their packets

A registry holds packets under distinct tags, at most one for each key, and its keys follow the
order of registration. Written and read back it is the same registry, but for the validators.
-/

namespace PacketProtocol

namespace Registry

/-- Distinct tags, and no more packets than keys. -/
structure Numbered (registry : Registry) : Prop where
  tags : registry.tags.Nodup
  size : registry.size ≤ maxPackets

theorem Numbered.front {registry registry' : Registry} (h : registry.Numbered)
    (hfront : registry'.packets <+: registry.packets) : registry'.Numbered :=
  ⟨h.tags.sublist (hfront.sublist.map Packet.tag), Nat.le_trans hfront.length_le h.size⟩

theorem contains_iff {registry : Registry} {tag : String} :
    registry.contains tag = true ↔ tag ∈ registry.tags := by
  simp [contains, key?, tags, List.findIdx?_isSome, List.any_eq_true]

theorem insert_eq_ok {registry registry' : Registry} {packet : Packet} (h : registry.Numbered) :
    registry.insert packet = .ok registry' ↔
      registry' = ⟨registry.packets ++ [packet]⟩ ∧ registry'.Numbered := by
  have hnodup : (registry.tags ++ [packet.tag]).Nodup ↔ packet.tag ∉ registry.tags := by
    simp [List.nodup_append, h.tags]
    exact ⟨fun hne hmem => hne _ hmem rfl, fun hmem tag htag heq => hmem (heq ▸ htag)⟩
  unfold insert
  by_cases htag : packet.tag ∈ registry.tags
  · rw [if_pos (contains_iff.2 htag)]
    refine iff_of_false nofun ?_
    rintro ⟨rfl, hnum⟩
    exact hnodup.1 (by simpa [tags] using hnum.tags) htag
  · rw [if_neg (fun hc => htag (contains_iff.1 hc))]
    by_cases hfull : maxPackets ≤ registry.size
    · rw [if_pos hfull]
      refine iff_of_false nofun ?_
      rintro ⟨rfl, hnum⟩
      have := hnum.size
      simp only [size, List.length_append, List.length_singleton] at this hfull
      omega
    · rw [if_neg hfull]
      constructor
      · rintro ⟨⟩
        refine ⟨rfl, ⟨by simpa [tags] using hnodup.2 htag, ?_⟩⟩
        simp only [size, List.length_append, List.length_singleton] at hfull ⊢
        omega
      · rintro ⟨rfl, -⟩
        rfl

theorem foldlM_insert_eq_ok {registry registry' : Registry} {packets : List Packet} (h : registry.Numbered) :
    packets.foldlM insert registry = .ok registry' ↔
      registry' = ⟨registry.packets ++ packets⟩ ∧ registry'.Numbered := by
  induction packets generalizing registry with
  | nil =>
    rw [List.foldlM_nil, Outcome.pure_eq_ok, List.append_nil]
    exact ⟨fun he => he ▸ ⟨rfl, h⟩, fun he => he.1.symm⟩
  | cons packet packets ih =>
    rw [List.foldlM_cons, Outcome.bind_eq_ok]
    constructor
    · rintro ⟨next, hnext, hrest⟩
      obtain ⟨rfl, hnum⟩ := (insert_eq_ok h).1 hnext
      simpa using (ih hnum).1 hrest
    · rintro ⟨rfl, hnum⟩
      have hnext : Numbered ⟨registry.packets ++ [packet]⟩ := hnum.front (by simp)
      exact ⟨_, (insert_eq_ok h).2 ⟨rfl, hnext⟩, (ih hnext).2 ⟨by simp, hnum⟩⟩

theorem empty_numbered : empty.Numbered := ⟨List.nodup_nil, Nat.zero_le _⟩

/-- Packets are registered iff their tags are distinct and there are keys for all. -/
theorem register_eq_ok {packets : List Packet} {registry : Registry} :
    register packets = .ok registry ↔ registry = ⟨packets⟩ ∧ registry.Numbered :=
  foldlM_insert_eq_ok empty_numbered

/-! ## Keys and tags -/

theorem byKey_eq_ok {registry : Registry} {key : UInt8} {packet : Packet} :
    registry.byKey key = .ok packet ↔ key ≠ 0 ∧ registry.packets[key.toNat - 1]? = some packet := by
  unfold byKey
  by_cases hkey : key = 0
  · simp [hkey]
  · rw [if_neg hkey]
    cases registry.packets[key.toNat - 1]? <;> simp [hkey]

theorem keyOf_eq_ok {registry : Registry} {tag : String} {key : UInt8} :
    registry.keyOf tag = .ok key ↔ registry.key? tag = some key := by
  unfold keyOf
  cases registry.key? tag <;> simp

/-- A packet's tag has its key. -/
theorem Numbered.keyOf_of_byKey {registry : Registry} (h : registry.Numbered) {key : UInt8} {packet : Packet}
    (hkey : registry.byKey key = .ok packet) : registry.keyOf packet.tag = .ok key := by
  obtain ⟨hne, hpacket⟩ := byKey_eq_ok.1 hkey
  obtain ⟨hlt, hget⟩ := List.getElem?_eq_some_iff.1 hpacket
  have hpos : key.toNat ≠ 0 := fun hzero => hne (UInt8.toNat_inj.1 hzero)
  have hindex : registry.packets.findIdx? (fun p => p.tag == packet.tag) = some (key.toNat - 1) := by
    refine List.findIdx?_eq_some_iff_getElem.2 ⟨hlt, by simp [hget], fun index hindex => ?_⟩
    -- an earlier packet has another tag
    have hlt' : index < registry.packets.length := Nat.lt_trans hindex hlt
    have hne := List.pairwise_iff_getElem.1 h.tags index (key.toNat - 1) (by simpa [Registry.tags] using hlt')
      (by simpa [Registry.tags] using hlt) hindex
    simpa [Registry.tags, hget] using hne
  rw [keyOf_eq_ok, key?, hindex, Option.map_some, Nat.sub_add_cancel (Nat.pos_of_ne_zero hpos), UInt8.ofNat_toNat]

/-- A packet has the key that its place gives it. -/
theorem Numbered.byKey_of_getElem? {registry : Registry} (h : registry.Numbered) {index : Nat} {packet : Packet}
    (hget : registry.packets[index]? = some packet) : registry.byKey (UInt8.ofNat (index + 1)) = .ok packet := by
  have hlt := (List.getElem?_eq_some_iff.1 hget).1
  have hkey : (UInt8.ofNat (index + 1)).toNat = index + 1 :=
    UInt8.toNat_ofNat_of_lt' (Nat.lt_succ_of_le (Nat.le_trans hlt h.size))
  refine byKey_eq_ok.2 ⟨fun hzero => ?_, by rw [hkey]; exact hget⟩
  -- no place gives the key that is not used
  rw [hzero] at hkey
  cases hkey

/-- A tag with a key stands for a packet with that tag. -/
theorem Numbered.byKey_of_keyOf {registry : Registry} (h : registry.Numbered) {tag : String} {key : UInt8}
    (hkey : registry.keyOf tag = .ok key) : ∃ packet, registry.byKey key = .ok packet ∧ packet.tag = tag := by
  obtain ⟨index, hindex, rfl⟩ := Option.map_eq_some_iff.1 (keyOf_eq_ok.1 hkey)
  obtain ⟨hlt, htag, -⟩ := List.findIdx?_eq_some_iff_getElem.1 hindex
  exact ⟨_, h.byKey_of_getElem? (List.getElem?_eq_getElem hlt), by simpa using htag⟩

theorem Numbered.exists_key {registry : Registry} (h : registry.Numbered) {packet : Packet}
    (hmem : packet ∈ registry.packets) : ∃ key, registry.byKey key = .ok packet := by
  obtain ⟨index, hget⟩ := List.mem_iff_getElem?.1 hmem
  exact ⟨_, h.byKey_of_getElem? hget⟩

theorem mem_entries {registry : Registry} (h : registry.Numbered) {key : UInt8} {packet : Packet} :
    (key, packet) ∈ registry.entries ↔ registry.byKey key = .ok packet := by
  simp only [entries, List.mem_map, List.mem_zipIdx_iff_getElem?, Prod.exists, Prod.mk.injEq]
  constructor
  · rintro ⟨p, index, hget, rfl, rfl⟩
    exact h.byKey_of_getElem? hget
  · intro hkey
    obtain ⟨hne, hget⟩ := byKey_eq_ok.1 hkey
    have hpos : key.toNat ≠ 0 := fun hzero => hne (UInt8.toNat_inj.1 hzero)
    exact ⟨packet, key.toNat - 1, hget, by rw [Nat.sub_add_cancel (Nat.pos_of_ne_zero hpos), UInt8.ofNat_toNat], rfl⟩

/-! ## The registry a record section tells of -/

/-- The registry as its records tell of it. -/
def announced (registry : Registry) : Registry := ⟨registry.packets.map Packet.announced⟩

/-- Without validators nothing is left out. -/
theorem announced_of_validator {registry : Registry} (h : ∀ packet ∈ registry.packets, packet.validator = none) :
    registry.announced = registry := by
  have hmap : registry.packets.map Packet.announced = registry.packets := by
    refine (List.map_congr_left fun packet hpacket => ?_).trans (List.map_id _)
    obtain ⟨tag, schema, validator, enabled⟩ := packet
    obtain rfl : validator = none := h _ hpacket
    rfl
  rw [announced, hmap]

@[simp]
theorem tags_announced (registry : Registry) : registry.announced.tags = registry.tags := by
  simp [announced, tags, Packet.announced]

@[simp]
theorem key?_announced (registry : Registry) (tag : String) : registry.announced.key? tag = registry.key? tag := by
  simp [announced, key?, List.findIdx?_map, Function.comp_def, Packet.announced]

theorem keyOf_announced (registry : Registry) (tag : String) :
    registry.announced.keyOf tag = registry.keyOf tag := by
  simp [keyOf]

theorem byKey_announced (registry : Registry) (key : UInt8) :
    registry.announced.byKey key = Packet.announced <$> registry.byKey key := by
  unfold byKey
  by_cases hkey : key = 0
  · simp [hkey]
  · simp only [if_neg hkey, announced, List.getElem?_map]
    cases registry.packets[key.toNat - 1]? <;> rfl

theorem Numbered.announced {registry : Registry} (h : registry.Numbered) : registry.announced.Numbered :=
  ⟨by simpa using h.tags, by rw [Registry.size, Registry.announced, List.length_map]; exact h.size⟩

theorem sectionParser_go_reads {packets : List Packet} {records : List Bytes}
    (hrecords : List.Forall₂ (fun packet record => packet.write = .ok record) packets records)
    (hdeclared : ∀ packet ∈ packets, packet.WellFormed) {room : Nat} (hroom : packets.length < room)
    {registry : Registry} (hnum : Numbered ⟨registry.packets ++ packets.map Packet.announced⟩) :
    (sectionParser.go room registry).Reads (records.flatten ++ [delimiter])
      ⟨registry.packets ++ packets.map Packet.announced⟩ := by
  -- on the packets not yet read; `registry` holds the others, and each fits because all of them do
  induction hrecords generalizing room registry with
  | nil =>
    obtain ⟨room, rfl⟩ := Nat.exists_eq_succ_of_ne_zero (Nat.ne_zero_of_lt hroom)
    intro rest
    simp [sectionParser.go]
  | @cons packet record packets records hwrite _ ih =>
    obtain ⟨room, rfl⟩ := Nat.exists_eq_succ_of_ne_zero (Nat.ne_zero_of_lt hroom)
    have hwell := hdeclared packet (by simp)
    obtain ⟨tail, rfl⟩ := Packet.write_head hwrite
    have hnext : Numbered ⟨registry.packets ++ [packet.announced]⟩ :=
      hnum.front (by simp)
    have hinsert : registry.insertRead packet.announced = .ok ⟨registry.packets ++ [packet.announced]⟩ := by
      rw [insertRead, (insert_eq_ok (hnext.front (List.prefix_append _ _))).2 ⟨rfl, hnext⟩]
    have hrest : (sectionParser.go room ⟨registry.packets ++ [packet.announced]⟩).Reads
        (records.flatten ++ [delimiter])
        ⟨registry.packets ++ [packet.announced] ++ packets.map Packet.announced⟩ :=
      ih (fun p hp => hdeclared p (by simp [hp])) (Nat.lt_of_succ_lt_succ hroom) (by simpa using hnum)
    intro rest
    have hread := Packet.parser_reads hwell hwrite (records.flatten ++ [delimiter] ++ rest)
    simp only [List.cons_append, List.flatten_cons, List.append_assoc] at hread ⊢
    simp only [sectionParser.go, if_neg packet.flags_ne_delimiter, hread]
    simp only [bind, Except.bind, hinsert]
    simpa using hrest rest

/-- A registry is read from its records and the delimiter behind them. -/
theorem sectionParser_reads {registry : Registry} {bytes : Bytes} (hnum : registry.Numbered)
    (hdeclared : ∀ packet ∈ registry.packets, packet.WellFormed) (hw : registry.write = .ok bytes) :
    sectionParser.Reads (bytes ++ [delimiter]) registry.announced := by
  obtain ⟨records, hrecords, hw⟩ := Outcome.bind_eq_ok.1 hw
  obtain rfl := Outcome.pure_eq_ok.1 hw
  exact sectionParser_go_reads (Outcome.mapM_eq_ok.1 hrecords) hdeclared (Nat.lt_succ_of_le hnum.size)
    hnum.announced

end Registry

end PacketProtocol
