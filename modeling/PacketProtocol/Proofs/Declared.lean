import PacketProtocol.Packet.Basic
import PacketProtocol.Proofs.Outcome
/-!
# What can be declared

Applications make enum packages, schemas and packets with `EnumPackage.make`, `Schema.single`,
`Schema.object`, the setters and `Packet.make`. `Declared` is everything obtained so; `WellFormed`
says what all of it has in common, and is what codecs and records rely on.
-/

namespace PacketProtocol

/-! ## Enum packages -/

namespace EnumPackage

/-- The package was made by `make`. -/
def Declared (package : EnumPackage) : Prop := ∃ tag members, make tag members = .ok package

structure WellFormed (package : EnumPackage) : Prop where
  tag_pos : 0 < package.tag.utf8ByteSize
  tag_le : package.tag.utf8ByteSize ≤ 255
  members_pos : 0 < package.members.length
  members_le : package.members.length ≤ maxMembers
  scalars : ∀ member ∈ package.members, member.isList = false

theorem make_eq_ok {tag : String} {members : List Value} {package : EnumPackage} :
    make tag members = .ok package ↔ package = ⟨tag, members⟩ ∧ package.WellFormed := by
  constructor
  · intro h
    unfold make at h
    split at h
    · cases h
    · split at h
      · cases h
      · split at h
        · cases h
        · rename_i htag hmembers _ hnone
          cases h
          refine ⟨rfl, by simp only; omega, by simp only; omega, ?_, by simp only; omega, ?_⟩
          · exact List.length_pos_iff.2 fun hnil => hmembers (.inl (by simpa using hnil))
          · intro member hmember
            simpa using List.find?_eq_none.1 hnone member hmember
  · rintro ⟨rfl, htag, htag', hmembers, hmembers', hscalars⟩
    simp only at htag htag' hmembers hmembers' hscalars
    have hne : members ≠ [] := List.length_pos_iff.1 hmembers
    have hnone : members.find? Value.isList = none :=
      List.find?_eq_none.2 fun member hmember => by simp [hscalars member hmember]
    rw [make, if_neg (by omega), if_neg (by simp [hne]; omega), hnone]

theorem Declared.wellFormed {package : EnumPackage} (h : package.Declared) : package.WellFormed := by
  obtain ⟨tag, members, h⟩ := h
  exact (make_eq_ok.1 h).2

end EnumPackage

/-! ## Schemas -/

/-- An enum kind carries a declared package. -/
def PayloadKind.Declared : PayloadKind → Prop
  | enum package => package.Declared
  | _ => True

namespace Schema

/-- Schemas made by the two makers and the setters. -/
inductive Declared : Schema → Prop
  | single {kind : PayloadKind} {min max : UInt32} {schema : Schema} :
      kind.Declared → Schema.single kind min max = .ok schema → Declared schema
  | object {kinds : List PayloadKind} {mins maxs : List UInt32} {schema : Schema} :
      (∀ kind ∈ kinds, kind.Declared) → Schema.object kinds mins maxs = .ok schema → Declared schema
  | spread {schema : Schema} (spread : Bool) : Declared schema → Declared (schema.withSpread spread)
  | autoFlatten {schema schema' : Schema} {autoFlatten : Bool} :
      Declared schema → schema.withAutoFlatten autoFlatten = .ok schema' → Declared schema'
  | batching {schema : Schema} (interval maxBatch : UInt32) :
      Declared schema → Declared (schema.withBatching interval maxBatch)
  | rateLimit {schema : Schema} (limit : UInt32) : Declared schema → Declared (schema.withRateLimit limit)

structure WellFormed (schema : Schema) : Prop where
  kinds : ∀ slot ∈ schema.slots, slot.kind.Declared
  bounds : ∀ slot ∈ schema.slots, slot.min ≤ slot.max
  slots_pos : 0 < schema.slots.length
  slots_le : schema.slots.length ≤ maxSlots
  /-- A lone empty payload has no values whatever the bounds asked for. -/
  empty : ∀ slot, schema.shape = .single slot → slot.kind.isNone = true → slot.min = 0 ∧ slot.max = 0
  /-- Only an object has columns. -/
  flatten : schema.autoFlatten = true → schema.isObject = true

theorem makeSlots_eq_ok {kinds : List PayloadKind} {mins maxs : List UInt32} {slots : List Slot}
    (hmin : kinds.length = mins.length) (hmax : kinds.length = maxs.length) :
    makeSlots kinds mins maxs = .ok slots ↔
      slots.map Slot.kind = kinds ∧ slots.map Slot.min = mins ∧ slots.map Slot.max = maxs ∧
        ∀ slot ∈ slots, slot.min ≤ slot.max := by
  induction kinds generalizing mins maxs slots with
  | nil =>
    obtain rfl := List.length_eq_zero_iff.1 hmin.symm
    obtain rfl := List.length_eq_zero_iff.1 hmax.symm
    cases slots <;> simp [makeSlots]
  | cons kind kinds ih =>
    rcases mins with _ | ⟨min, mins⟩
    · cases hmin
    rcases maxs with _ | ⟨max, maxs⟩
    · cases hmax
    have ih := @ih mins maxs
    simp only [List.length_cons, Nat.add_right_cancel_iff] at hmin hmax
    simp only [makeSlots]
    by_cases hbounds : max < min
    · rw [if_pos hbounds]
      refine ⟨nofun, ?_⟩
      rcases slots with _ | ⟨slot, slots⟩
      · simp
      · simp only [List.map_cons, List.cons.injEq, List.mem_cons, forall_eq_or_imp]
        rintro ⟨-, ⟨rfl, -⟩, ⟨rfl, -⟩, hle, -⟩
        exact absurd hle (UInt32.not_le.2 hbounds)
    · rw [if_neg hbounds]
      refine Outcome.bind_eq_ok.trans ⟨?_, ?_⟩
      · rintro ⟨rest, hrest, h⟩
        obtain rfl := Outcome.pure_eq_ok.1 h
        obtain ⟨h1, h2, h3, h4⟩ := (ih hmin hmax).1 hrest
        simpa [h1, h2, h3] using ⟨UInt32.not_lt.1 hbounds, h4⟩
      · rcases slots with _ | ⟨slot, slots⟩
        · simp
        · simp only [List.map_cons, List.cons.injEq, List.mem_cons, forall_eq_or_imp]
          rintro ⟨⟨rfl, h1⟩, ⟨rfl, h2⟩, ⟨rfl, h3⟩, -, h4⟩
          exact ⟨slots, (ih hmin hmax).2 ⟨h1, h2, h3, h4⟩, rfl⟩

theorem single_wellFormed {kind : PayloadKind} {min max : UInt32} {schema : Schema}
    (hkind : kind.Declared) (h : Schema.single kind min max = .ok schema) : schema.WellFormed := by
  have hslot : ∀ lower upper : UInt32, lower ≤ upper →
      (kind.isNone = true → lower = 0 ∧ upper = 0) →
      WellFormed { shape := .single ⟨kind, lower, upper⟩ } := by
    intro lower upper hle hempty
    refine ⟨?_, ?_, by simp [slots, Shape.slots], by simp [slots, Shape.slots, maxSlots], ?_, nofun⟩
    · simpa [slots, Shape.slots] using hkind
    · simpa [slots, Shape.slots] using hle
    · rintro slot ⟨⟩ hnone
      exact hempty hnone
  unfold Schema.single at h
  by_cases hnone : kind.isNone = true
  · rw [if_pos hnone] at h
    cases h
    exact hslot 0 0 (UInt32.le_refl 0) fun _ => ⟨rfl, rfl⟩
  · rw [if_neg hnone] at h
    dsimp only at h
    by_cases hbounds : max < min
    · rw [if_pos hbounds] at h
      cases h
    · rw [if_neg hbounds] at h
      cases h
      exact hslot min max (UInt32.not_lt.1 hbounds) fun hkind => absurd hkind hnone

theorem object_wellFormed {kinds : List PayloadKind} {mins maxs : List UInt32} {schema : Schema}
    (hkinds : ∀ kind ∈ kinds, kind.Declared) (h : Schema.object kinds mins maxs = .ok schema) :
    schema.WellFormed := by
  unfold Schema.object at h
  by_cases hcounts : kinds.isEmpty ∨ kinds.length ≠ mins.length ∨ kinds.length ≠ maxs.length
  · rw [if_pos hcounts] at h
    cases h
  by_cases hmany : maxSlots < kinds.length
  · rw [if_neg hcounts, if_pos hmany] at h
    cases h
  rw [if_neg hcounts, if_neg hmany] at h
  simp only [not_or, not_not] at hcounts
  obtain ⟨hne, hmins, hmaxs⟩ := hcounts
  obtain ⟨made, hmade, h⟩ := Outcome.bind_eq_ok.1 h
  obtain rfl := Outcome.pure_eq_ok.1 h
  obtain ⟨rfl, -, -, hbounds⟩ := (makeSlots_eq_ok hmins hmaxs).1 hmade
  rw [List.length_map] at hmany
  refine ⟨?_, hbounds, ?_, Nat.le_of_not_lt hmany, nofun, fun _ => rfl⟩
  · intro slot hslot
    exact hkinds _ (List.mem_map_of_mem hslot)
  · exact List.length_pos_iff.2 fun hnil => hne (by simpa [slots, Shape.slots] using hnil)

theorem Declared.wellFormed {schema : Schema} (h : schema.Declared) : schema.WellFormed := by
  induction h with
  | single hkind h => exact single_wellFormed hkind h
  | object hkinds h => exact object_wellFormed hkinds h
  | spread _ _ ih => exact ⟨ih.kinds, ih.bounds, ih.slots_pos, ih.slots_le, ih.empty, ih.flatten⟩
  | @autoFlatten schema schema' autoFlatten _ h ih =>
    unfold withAutoFlatten at h
    split at h
    · cases h
    · cases h
      rename_i hobject
      refine ⟨ih.kinds, ih.bounds, ih.slots_pos, ih.slots_le, ih.empty, fun hflat => ?_⟩
      simp only at hflat
      simpa [hflat, isObject] using hobject
  | batching _ _ _ ih => exact ⟨ih.kinds, ih.bounds, ih.slots_pos, ih.slots_le, ih.empty, ih.flatten⟩
  | rateLimit _ _ ih => exact ⟨ih.kinds, ih.bounds, ih.slots_pos, ih.slots_le, ih.empty, ih.flatten⟩

end Schema

/-! ## Packets -/

namespace Packet

/-- Packets made by `make` and the setters. -/
inductive Declared : Packet → Prop
  | make {tag : String} {schema : Schema} {packet : Packet} :
      schema.Declared → Packet.make tag schema = .ok packet → Declared packet
  | validator {packet : Packet} (validator : List Value → Bool) :
      Declared packet → Declared (packet.withValidator validator)
  | enabled {packet : Packet} (enabled : Bool) : Declared packet → Declared (packet.setEnabled enabled)

structure WellFormed (packet : Packet) : Prop where
  schema : packet.schema.WellFormed
  tag : validateTag packet.tag = .ok ()

theorem Declared.wellFormed {packet : Packet} (h : packet.Declared) : packet.WellFormed := by
  induction h with
  | make hschema h =>
    obtain ⟨⟨⟩, htag, h⟩ := Outcome.bind_eq_ok.1 h
    obtain rfl := Outcome.pure_eq_ok.1 h
    exact ⟨hschema.wellFormed, htag⟩
  | validator _ _ ih => exact ⟨ih.schema, ih.tag⟩
  | enabled _ _ ih => exact ⟨ih.schema, ih.tag⟩

theorem validateTag_eq_ok {tag : String} :
    validateTag tag = .ok () ↔
      0 < tag.utf8ByteSize ∧ tag.utf8ByteSize ≤ maxTag ∧ delimiter ∉ Utf8.encode tag := by
  have hsize : (Utf8.encode tag).length = tag.utf8ByteSize := rfl
  have hbad : (Utf8.encode tag).isEmpty ∨ maxTag < (Utf8.encode tag).length ∨
      (Utf8.encode tag).contains delimiter ↔
      ¬ (0 < tag.utf8ByteSize ∧ tag.utf8ByteSize ≤ maxTag ∧ delimiter ∉ Utf8.encode tag) := by
    rw [← hsize, List.length_pos_iff, List.isEmpty_iff, List.contains_iff_mem, not_and_or, not_and_or,
      Nat.not_le, not_not, not_not]
  unfold validateTag
  by_cases h : 0 < tag.utf8ByteSize ∧ tag.utf8ByteSize ≤ maxTag ∧ delimiter ∉ Utf8.encode tag
  · rw [if_neg (by rw [hbad]; exact not_not.2 h)]
    exact iff_of_true rfl h
  · rw [if_pos (hbad.2 h)]
    exact iff_of_false nofun h

end Packet

end PacketProtocol
