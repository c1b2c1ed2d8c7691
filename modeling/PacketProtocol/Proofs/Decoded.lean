import Mathlib
import PacketProtocol.Packet.Basic
import PacketProtocol.Proofs.Payload
import PacketProtocol.Proofs.Sections
/-!
# The cheap look and the decoder

A payload is looked at before it is decoded. The look refuses nothing that the decoder would accept, so a packet
accepts exactly what its schema decodes and its validator lets through, and all it refuses is malformed under its
tag.
-/

namespace PacketProtocol

namespace Schema

/-! ## Columns -/

/-- Columns read section by section, each as its slot decodes it, and the octets behind the last. -/
inductive Received : List Slot → Bytes → List (List Value) → Bytes → Prop
  | nil (rest : Bytes) : Received [] rest [] rest
  | cons {slot : Slot} {slots : List Slot} {length : UInt8} {octets rest : Bytes} {column : List Value}
      {columns : List (List Value)} : length.toNat ≤ octets.length →
      slot.kind.decode (octets.take length.toNat) slot.max.toNat = .ok column →
      Received slots (octets.drop length.toNat) columns rest →
        Received (slot :: slots) (length :: octets) (column :: columns) rest

variable {slots : List Slot} {bytes rest : Bytes} {columns : List (List Value)}

theorem received_of_columns (h : columnsParser slots bytes = .ok (columns, rest)) :
    Received slots bytes columns rest := by
  induction slots generalizing bytes columns rest with
  | nil =>
    cases h
    exact .nil bytes
  | cons slot slots ih =>
    obtain ⟨⟨payload, behind⟩, hsection, h⟩ := Outcome.bind_eq_ok.1 h
    cases bytes with
    | nil => cases hsection
    | cons length octets =>
      rw [section?_cons] at hsection
      split at hsection
      · rename_i hle
        cases hsection
        obtain ⟨⟨column, _⟩, hcolumn, h⟩ := Outcome.bind_eq_ok.1 h
        obtain ⟨values, hvalues, hlift⟩ := Outcome.bind_eq_ok.1 hcolumn
        cases hlift
        obtain ⟨⟨columns', _⟩, hcolumns, h⟩ := Outcome.bind_eq_ok.1 h
        cases h
        exact .cons hle hvalues (ih hcolumns)
      · cases hsection

/-- The look walks the sections as the decoder does, and its slots refuse none that was decoded. -/
theorem Received.sectionsFit (h : Received slots bytes columns []) : sectionsFit slots bytes = true := by
  generalize hrest : ([] : Bytes) = rest at h
  induction h with
  | nil =>
    subst hrest
    rfl
  | cons hle hcolumn _ ih =>
    have hfits := (PayloadKind.decode_eq_ok.1 hcolumn).1
    simp [Schema.sectionsFit, hle, hfits, ih hrest]

/-! ## Objects -/

/-- The number of rows that stands in front of the sections, if the schema has one there. -/
def Leads (schema : Schema) (bytes : Bytes) (rows : Option Nat) (sections : Bytes) : Prop :=
  if schema.leadsWithRows then ∃ count, rows = some count ∧ Varint.decode bytes = .ok (count, sections)
  else rows = none ∧ sections = bytes

/-- What is made of columns: they are cut and turned into rows if the schema flattens, and every slot has its least
count. -/
def Arranges (schema : Schema) (slots : List Slot) (rows : Option Nat) (columns : List (List Value))
    (values : List Value) : Prop :=
  if schema.autoFlatten then
    ∃ even table, cutFlags (rows.getD (rowCount slots columns)) slots columns = .ok even ∧
      meetMinimums slots even = true ∧ Columns.unflatten even = .ok table ∧ values = table.map .list
  else meetMinimums slots columns = true ∧ values = columns.map .list

theorem arranges_of_sections {schema : Schema} {rows : Option Nat} {values : List Value}
    (h : (do
      let (columns, rest) ← columnsParser slots bytes
      if !rest.isEmpty then
        throw .trailingBytes
      let columns ←
        if schema.autoFlatten then cutFlags (rows.getD (rowCount slots columns)) slots columns
        else pure columns
      if !meetMinimums slots columns then
        throw .capacity
      if schema.autoFlatten then
        match Columns.unflatten columns with
        | .ok rows => return rows.map .list
        | .error _ => throw .raggedColumns
      else return columns.map .list : Except DecodeFault (List Value)) = .ok values) :
    ∃ columns, Received slots bytes columns [] ∧ schema.Arranges slots rows columns values := by
  obtain ⟨⟨columns, rest⟩, hcolumns, h⟩ := Outcome.bind_eq_ok.1 h
  dsimp only at h
  split at h
  · cases h
  rename_i hrest
  obtain rfl : rest = [] := by simpa using hrest
  refine ⟨columns, received_of_columns hcolumns, ?_⟩
  unfold Arranges
  split at h
  · rename_i hflatten
    obtain ⟨even, heven, h⟩ := Outcome.bind_eq_ok.1 h
    split at h
    · cases h
    rename_i hminimums
    rw [if_pos hflatten]
    split at h
    · rename_i table htable
      exact ⟨even, table, heven, by simpa using hminimums, htable, (Outcome.pure_eq_ok.1 h).symm⟩
    · cases h
  · rename_i hflatten
    obtain ⟨_, ⟨⟩, h⟩ := Outcome.bind_eq_ok.1 h
    split at h
    · cases h
    rename_i hminimums
    rw [if_neg hflatten]
    exact ⟨by simpa using hminimums, (Outcome.pure_eq_ok.1 h).symm⟩

/-- What the octets of an object were if they were decoded. -/
theorem received_of_decode {schema : Schema} {values : List Value} (hshape : schema.shape = .object slots)
    (h : schema.decode bytes = .ok values) :
    ∃ rows sections columns, schema.Leads bytes rows sections ∧ Received slots sections columns [] ∧
      schema.Arranges slots rows columns values := by
  simp only [decode, hshape] at h
  unfold Leads
  split at h
  · rename_i hleads
    obtain ⟨⟨count, sections⟩, hcount, h⟩ := Outcome.bind_eq_ok.1 h
    obtain ⟨columns, hreceived, harranges⟩ := @arranges_of_sections _ _ _ (some count) _ h
    exact ⟨some count, sections, columns, by rw [if_pos hleads]; exact ⟨count, rfl, hcount⟩, hreceived, harranges⟩
  · rename_i hleads
    obtain ⟨columns, hreceived, harranges⟩ := @arranges_of_sections _ _ _ none _ h
    exact ⟨none, bytes, columns, by rw [if_neg hleads]; exact ⟨rfl, rfl⟩, hreceived, harranges⟩

/-- Single slots decode as their kind does, and refuse what counts too little. -/
theorem single_of_decode {schema : Schema} {slot : Slot} {values : List Value} (hshape : schema.shape = .single slot)
    (h : schema.decode bytes = .ok values) :
    slot.kind.decode bytes slot.max.toNat = .ok values ∧ slot.min.toNat ≤ slot.count values := by
  simp only [decode, hshape] at h
  obtain ⟨read, hread, h⟩ := Outcome.bind_eq_ok.1 h
  split at h
  · cases h
  · rename_i hmin
    obtain rfl := Outcome.pure_eq_ok.1 h
    exact ⟨hread, Nat.le_of_not_lt hmin⟩

/-- What decodes was not refused by the look. -/
theorem fits_of_decode {schema : Schema} {values : List Value} (h : schema.decode bytes = .ok values) :
    schema.fits bytes = true := by
  unfold fits
  cases hshape : schema.shape with
  | single slot => exact (PayloadKind.decode_eq_ok.1 (single_of_decode hshape h).1).1
  | object slots =>
    obtain ⟨rows, sections, columns, hleads, hreceived, -⟩ := received_of_decode hshape h
    unfold Leads at hleads
    dsimp only
    split at hleads
    · rename_i hfront
      obtain ⟨count, -, hcount⟩ := hleads
      rw [if_pos hfront, hcount]
      exact hreceived.sectionsFit
    · rename_i hfront
      obtain ⟨-, rfl⟩ := hleads
      rw [if_neg hfront]
      exact hreceived.sectionsFit

end Schema

namespace Packet

/-- The validator, if the packet has one, lets these values through. -/
def Accepts (packet : Packet) (values : List Value) : Prop :=
  ∀ accepts, packet.validator = some accepts → accepts values = true

/-- Why a packet refuses octets: they do not decode, which the look may have found first, or the validator rejects
what they decode to. -/
inductive Refuses (packet : Packet) (bytes : Bytes) : PayloadFault → Prop
  | unfit {fault : DecodeFault} : packet.schema.fits bytes = false → packet.schema.decode bytes = .error fault →
      Refuses packet bytes (.decode .capacity)
  | undecoded {fault : DecodeFault} : packet.schema.fits bytes = true → packet.schema.decode bytes = .error fault →
      Refuses packet bytes (.decode fault)
  | rejected {values : List Value} : packet.schema.decode bytes = .ok values → ¬ packet.Accepts values →
      Refuses packet bytes .rejected

variable {packet : Packet} {bytes : Bytes}

theorem accepts_iff {values : List Value} :
    (packet.validator.all fun accepts => accepts values) = true ↔ packet.Accepts values := by
  unfold Accepts
  cases packet.validator <;> simp

theorem decode_eq_ok {values : List Value} :
    packet.decode bytes = .ok values ↔ packet.schema.decode bytes = .ok values ∧ packet.Accepts values := by
  constructor
  · intro h
    unfold decode at h
    split at h
    · cases h
    split at h
    · cases h
    · rename_i decoded hdecode
      split at h
      · rename_i haccepts
        cases h
        exact ⟨hdecode, accepts_iff.1 haccepts⟩
      · cases h
  · intro ⟨hdecode, haccepts⟩
    -- the look stands before the decoder, but refuses nothing that decodes
    have hfits := Schema.fits_of_decode hdecode
    rw [decode, if_neg (by simpa using hfits), hdecode]
    exact if_pos (accepts_iff.2 haccepts)

theorem refuses_of_decode {error : ProtocolError} (h : packet.decode bytes = .error error) :
    ∃ fault, error = .malformedPayload packet.tag fault ∧ packet.Refuses bytes fault := by
  unfold decode at h
  split at h
  · rename_i hfits
    have hfits : packet.schema.fits bytes = false := by simpa using hfits
    cases hdecode : packet.schema.decode bytes with
    | error fault =>
      cases h
      exact ⟨_, rfl, .unfit hfits hdecode⟩
    | ok values => simp [Schema.fits_of_decode hdecode] at hfits
  rename_i hfits
  have hfits : packet.schema.fits bytes = true := by simpa using hfits
  split at h
  · rename_i fault hdecode
    cases h
    exact ⟨_, rfl, .undecoded hfits hdecode⟩
  · rename_i values hdecode
    split at h
    · cases h
    · rename_i hrejects
      cases h
      exact ⟨_, rfl, .rejected hdecode fun haccepts => hrejects (accepts_iff.2 haccepts)⟩

/-- The look refuses nothing that decodes; so a packet accepts what its schema decodes and its validator lets
through, and refuses all else as malformed under its tag. -/
theorem decode_iff (packet : Packet) (bytes : Bytes) :
    (∀ values, packet.schema.decode bytes = .ok values → packet.schema.fits bytes = true) ∧
      (∀ values, packet.decode bytes = .ok values ↔
        packet.schema.decode bytes = .ok values ∧ packet.Accepts values) ∧
      ∀ error, packet.decode bytes = .error error →
        ∃ fault, error = .malformedPayload packet.tag fault ∧ packet.Refuses bytes fault :=
  ⟨fun _ => Schema.fits_of_decode, fun _ => decode_eq_ok, fun _ => refuses_of_decode⟩

namespace Checked

/-- One or two texts, of which the validator wants one only. -/
def one : Packet :=
  { tag := "one", schema := { shape := .single ⟨.strings, 1, 2⟩ }, validator := some fun values => values.length == 1 }

end Checked

theorem decode_iff_checked :
    Checked.one.schema.fits [1, 97] = true ∧ Checked.one.decode [1, 97] = .ok [.string "a"] ∧
      Checked.one.Accepts [.string "a"] ∧
      ∃ fault, ProtocolError.malformedPayload "one" .rejected = .malformedPayload Checked.one.tag fault ∧
        Checked.one.Refuses [1, 97, 1, 98] fault := by
  obtain ⟨hfits, hdecode, -⟩ := decode_iff Checked.one [1, 97]
  obtain ⟨-, -, herror⟩ := decode_iff Checked.one [1, 97, 1, 98]
  have hone : Checked.one.decode [1, 97] = .ok [.string "a"] := by cbv
  obtain ⟨hschema, haccepts⟩ := (hdecode _).1 hone
  exact ⟨hfits _ hschema, hone, haccepts, herror _ (by cbv)⟩

end Packet

end PacketProtocol
