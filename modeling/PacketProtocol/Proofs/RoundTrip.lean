import Mathlib
import PacketProtocol.Proofs.Sections
/-!
# Values arrive in canonical form

What a schema encodes it decodes. A receiver has the values in canonical form: those of a single slot
as they arrive, of an object one list for each slot.
-/

namespace PacketProtocol

namespace Schema

/-- What a receiver has of some values, if the schema does not turn rows into columns. -/
def canonical (schema : Schema) (values : List Value) : List Value :=
  match schema.shape with
  | .single slot => slot.canonical values
  | .object slots => List.zipWith (fun slot value => .list (slot.canonical (groupOf value))) slots values

/-! ## Encoded payloads -/

/-- What stands in front of the sections: the number of rows, or nothing. -/
def Fronts (schema : Schema) (values : List Value) (front : Bytes) : Prop :=
  if schema.leadsWithRows then values.length < Varint.bound ∧ front = Varint.groups values.length else front = []

/-- The octets of an object. -/
structure Writes (schema : Schema) (slots : List Slot) (values : List Value) (front sections : Bytes) : Prop where
  fronts : schema.Fronts values front
  sections_eq : ∃ groups, schema.groups slots values = .ok groups ∧ Sections slots groups sections

theorem encode_single {schema : Schema} {slot : Slot} {tag : String} {values : List Value} {bytes : Bytes}
    (h : schema.WellFormed) (hshape : schema.shape = .single slot) (he : schema.encode tag values = .ok bytes) :
    slot.Sends values bytes := by
  simp only [encode, hshape] at he
  obtain ⟨⟨⟩, harity, he⟩ := Outcome.bind_eq_ok.1 he
  obtain ⟨hmin, hmax⟩ := Slot.checkArity_eq_ok.1 harity
  exact ⟨h.kinds slot (by simp [slots, hshape, Shape.slots]), Outcome.mapError_eq_ok.1 he, hmin, hmax⟩

theorem encode_object {schema : Schema} {slots : List Slot} {tag : String} {values : List Value} {bytes : Bytes}
    (h : schema.WellFormed) (hshape : schema.shape = .object slots) (he : schema.encode tag values = .ok bytes) :
    ∃ front sections, schema.Writes slots values front sections ∧ bytes = front ++ sections := by
  have hkinds : ∀ slot ∈ slots, slot.kind.Declared := by simpa [Schema.slots, hshape, Shape.slots] using h.kinds
  simp only [encode, hshape] at he
  obtain ⟨groups, hgroups, he⟩ := Outcome.bind_eq_ok.1 he
  split at he
  · cases he
  rename_i hlength
  obtain ⟨⟨⟩, harity, he⟩ := Outcome.bind_eq_ok.1 he
  have hwrites : ∀ sections, (encodeSections tag slots groups).mapError ProtocolError.encode = .ok sections →
      ∃ groups, schema.groups slots values = .ok groups ∧ Sections slots groups sections := fun sections hs =>
    ⟨groups, hgroups, sections_of_encode hkinds (not_not.1 hlength) harity (Outcome.mapError_eq_ok.1 hs)⟩
  split at he
  · rename_i hleads
    obtain ⟨rows, hrows, he⟩ := Outcome.bind_eq_ok.1 he
    obtain ⟨sections, hsections, he⟩ := Outcome.bind_eq_ok.1 he
    obtain ⟨hlt, rfl⟩ := Varint.encode_eq_ok.1 (Outcome.mapError_eq_ok.1 hrows)
    exact ⟨_, sections, ⟨by rw [Fronts, if_pos hleads]; exact ⟨hlt, rfl⟩, hwrites sections hsections⟩,
      (Outcome.pure_eq_ok.1 he).symm⟩
  · rename_i hleads
    obtain ⟨rows, ⟨⟩, he⟩ := Outcome.bind_eq_ok.1 he
    obtain ⟨sections, hsections, he⟩ := Outcome.bind_eq_ok.1 he
    exact ⟨[], sections, ⟨by rw [Fronts, if_neg hleads], hwrites sections hsections⟩, (Outcome.pure_eq_ok.1 he).symm⟩

/-! ## What a receiver makes of them -/

theorem fits_single {schema : Schema} {slot : Slot} {values : List Value} {bytes : Bytes}
    (hshape : schema.shape = .single slot) (h : slot.Sends values bytes) : schema.fits bytes = true := by
  simp only [fits, hshape, h.fits]

theorem fits_object {schema : Schema} {slots : List Slot} {values : List Value} {front sections : Bytes}
    (hshape : schema.shape = .object slots) (h : schema.Writes slots values front sections) :
    schema.fits (front ++ sections) = true := by
  obtain ⟨hfront, _, -, hsections⟩ := h
  simp only [fits, hshape]
  unfold Fronts at hfront
  split at hfront
  · rename_i hleads
    obtain ⟨hlt, rfl⟩ := hfront
    rw [if_pos hleads, Varint.decode_groups hlt]
    exact hsections.fit
  · rename_i hleads
    subst hfront
    rw [if_neg hleads]
    exact hsections.fit

theorem decode_single {schema : Schema} {slot : Slot} {values : List Value} {bytes : Bytes}
    (hshape : schema.shape = .single slot) (h : slot.Sends values bytes) :
    schema.decode bytes = .ok (slot.canonical values) := by
  simp only [decode, hshape, h.decode]
  exact if_neg (Nat.not_lt.2 h.min_le_canonical)

theorem decode_object {schema : Schema} {slots : List Slot} {values : List Value} {front sections : Bytes}
    (hshape : schema.shape = .object slots) (hflatten : schema.autoFlatten = false)
    (h : schema.Writes slots values front sections) :
    schema.decode (front ++ sections) =
      .ok (List.zipWith (fun slot value => .list (slot.canonical (groupOf value))) slots values) := by
  have hleads : schema.leadsWithRows = false := by simp [leadsWithRows, hflatten]
  obtain rfl : front = [] := by simpa [Fronts, hleads] using h.fronts
  obtain ⟨groups, hgroups, hsections⟩ := h.sections_eq
  obtain rfl : values.map groupOf = groups := by simpa [Schema.groups, hflatten] using hgroups
  have hread := hsections.reads []
  rw [List.append_nil] at hread
  simp only [decode, hshape, hleads, hflatten, List.nil_append, Bool.false_eq_true, if_false, bind, Except.bind, pure,
    Except.pure, hread, hsections.meetMinimums]
  simp [List.map_zipWith, List.zipWith_map_right]

/-- What is sent fits the schema and decodes, unless rows were turned into columns. -/
theorem decode_of_encode {schema : Schema} {tag : String} {values : List Value} {bytes : Bytes} (h : schema.WellFormed)
    (hflatten : schema.autoFlatten = false) (he : schema.encode tag values = .ok bytes) :
    schema.fits bytes = true ∧ schema.decode bytes = .ok (schema.canonical values) := by
  unfold canonical
  cases hshape : schema.shape with
  | single slot =>
    have hsends := encode_single h hshape he
    exact ⟨fits_single hshape hsends, decode_single hshape hsends⟩
  | object slots =>
    obtain ⟨front, sections, hwrites, rfl⟩ := encode_object h hshape he
    exact ⟨fits_object hshape hwrites, decode_object hshape hflatten hwrites⟩

/-- What a schema encodes it decodes, to the values in canonical form. -/
theorem decode_encode_canonical {schema : Schema} {tag : String} {values : List Value} {bytes : Bytes}
    (h : schema.Declared) (hflatten : schema.autoFlatten = false) (he : schema.encode tag values = .ok bytes) :
    schema.decode bytes = .ok (schema.canonical values) :=
  (decode_of_encode h.wellFormed hflatten he).2

namespace Profile

def mood : EnumPackage := ⟨"mood", [.null, .int 3, .string "calm"]⟩

/-- One slot of each kind without fractions. -/
def schema : Schema :=
  { shape := .object
      [⟨.none, 0, 0⟩, ⟨.raw, 1, 9⟩, ⟨.strings, 0, 2⟩, ⟨.intsFixed, 0, 3⟩, ⟨.intsDynamic, 1, 4⟩, ⟨.booleans, 0, 10⟩,
        ⟨.enum mood, 1, 2⟩] }

/-- Scalars and lists, integers at their bounds, an octet of flags half full, a double for a member. -/
def values : List Value :=
  [.list [], .string "Zoë", .list [.string "", .string "b"], .int (-16383),
    .list [.int 9223372036854775807, .int (-1)], .list [.bool true, .bool false],
    .list [.number ⟨0x4008000000000000⟩, .null]]

def payload : Bytes :=
  [0, 4, 90, 111, 195, 171, 3, 0, 1, 98, 2, 255, 255, 19, 9, 127, 127, 127, 127, 127, 127, 127, 127, 127, 0, 0, 0, 0, 0,
    0, 0, 0, 129, 1, 128, 2, 1, 0]

theorem schema_declared : schema.Declared := by
  refine @Declared.object [.none, .raw, .strings, .intsFixed, .intsDynamic, .booleans, .enum mood]
    [0, 1, 0, 0, 1, 0, 1] [0, 9, 2, 3, 4, 10, 2] _ ?_ rfl
  simp only [List.mem_cons, List.not_mem_nil, or_false, forall_eq_or_imp, forall_eq]
  exact ⟨trivial, trivial, trivial, trivial, trivial, trivial, "mood", mood.members, rfl⟩

end Profile

theorem decode_encode_canonical_profile :
    Profile.schema.Declared ∧ Profile.schema.autoFlatten = false ∧
      Profile.schema.encode "profile" Profile.values = .ok Profile.payload ∧
      Profile.schema.decode Profile.payload = .ok
        [.list [], .list [.string "Zoë"], .list [.string "", .string "b"], .list [.int (-16383)],
          .list [.int 9223372036854775807, .int (-1)],
          .list [.bool true, .bool false, .bool false, .bool false, .bool false, .bool false, .bool false, .bool false],
          .list [.int 3, .null]] := by
  have hencode : Profile.schema.encode "profile" Profile.values = .ok Profile.payload := by cbv
  refine ⟨Profile.schema_declared, rfl, hencode, ?_⟩
  rw [decode_encode_canonical Profile.schema_declared rfl hencode]
  cbv

end Schema

/-! ## Packets -/

namespace Packet

/-- Without a validator a payload that fits is refused only if it does not decode. -/
theorem decode_of_schema {packet : Packet} {bytes : Bytes} (hfits : packet.schema.fits bytes = true)
    (hvalidator : packet.validator = none) :
    packet.decode bytes =
      (packet.schema.decode bytes).mapError fun fault => .malformedPayload packet.tag (.decode fault) := by
  simp only [decode, hfits, hvalidator]
  cases packet.schema.decode bytes <;> rfl

theorem decode_of_encode {packet : Packet} {values : List Value} {payload : Bytes} (h : packet.schema.WellFormed)
    (hflatten : packet.schema.autoFlatten = false) (hvalidator : packet.validator = none)
    (he : packet.encode values = .ok payload) : packet.decode payload = .ok (packet.schema.canonical values) := by
  obtain ⟨hfits, hdecode⟩ := Schema.decode_of_encode h hflatten he
  rw [decode_of_schema hfits hvalidator, hdecode]
  rfl

end Packet

end PacketProtocol
