import PacketProtocol.Proofs.Decoded
import PacketProtocol.Proofs.Tables
/-!
# Arity on receipt

Whatever octets a schema decodes, there are as many values as it declares. Columns of flags are cut before they are
counted, and rows are put together from columns that are found to be of one length, so that a bound of any slot is
one of the number of rows.
-/

namespace PacketProtocol

namespace Slot

/-- Values of a slot within its bounds: the characters of one raw text, or the number of values. -/
def Bounds (slot : Slot) (values : List Value) : Prop :=
  match slot.kind with
  | .raw => ∃ text, values = [.string text] ∧ slot.min.toNat ≤ text.length ∧ text.length ≤ slot.max.toNat
  | _ => slot.min.toNat ≤ values.length ∧ values.length ≤ slot.max.toNat

/-- Rows within the bounds of the slot at an index: one row with a raw text there, or as many as the bounds say. -/
def BoundsRows (slot : Slot) (index : Nat) (rows : List (List Value)) : Prop :=
  match slot.kind with
  | .raw => ∃ row text, rows = [row] ∧ row[index]? = some (.string text) ∧ slot.min.toNat ≤ text.length ∧
      text.length ≤ slot.max.toNat
  | _ => slot.min.toNat ≤ rows.length ∧ rows.length ≤ slot.max.toNat

/-- Values as a slot decodes them: no more than it may hold, and raw text is one text. -/
structure Holds (slot : Slot) (values : List Value) : Prop where
  count_le : slot.count values ≤ slot.max.toNat
  text : slot.kind = .raw → ∃ text, values = [.string text]

variable {slot : Slot} {values : List Value} {bytes : Bytes}

theorem holds_of_decode (h : slot.kind.decode bytes slot.max.toNat = .ok values) : slot.Holds values := by
  obtain ⟨-, hread, hcount⟩ := PayloadKind.decode_eq_ok.1 h
  refine ⟨hcount, fun hraw => ?_⟩
  rw [hraw, PayloadKind.read] at hread
  split at hread
  · rename_i text htext
    exact ⟨text, (Except.ok.inj hread).symm⟩
  · cases hread

/-- Cutting flags leaves no more of them. -/
theorem Holds.take (h : slot.Holds values) (hflags : slot.kind.isFlags = true) (rows : Nat) :
    slot.Holds (values.take rows) := by
  obtain ⟨kind, min, max⟩ := slot
  cases kind with
  | booleans =>
    have hcount := h.count_le
    simp only [Slot.count, PayloadKind.count] at hcount
    constructor
    · simp only [Slot.count, PayloadKind.count, List.length_take]
      omega
    · intro hraw
      cases hraw
  | _ => cases hflags

theorem Holds.bounds (h : slot.Holds values) (hmin : slot.min.toNat ≤ slot.count values) : slot.Bounds values := by
  have hcount := h.count_le
  obtain ⟨kind, min, max⟩ := slot
  cases kind with
  | raw =>
    obtain ⟨text, rfl⟩ := h.text rfl
    simp only [Slot.count, PayloadKind.count, List.map_cons, List.map_nil, List.sum_cons, List.sum_nil,
      Value.string?, Option.map_some, Option.getD_some, Nat.add_zero] at hmin hcount
    exact ⟨text, rfl, hmin, hcount⟩
  | _ => exact ⟨hmin, hcount⟩

/-- A column within the bounds of its slot bounds the rows that its entries are in. -/
theorem Bounds.boundsRows {index : Nat} {rows : List (List Value)} (h : slot.Bounds values)
    (hlength : values.length = rows.length)
    (hentries : ∀ (place : Nat) (row : List Value), rows[place]? = some row → row[index]? = values[place]?) :
    slot.BoundsRows index rows := by
  obtain ⟨kind, min, max⟩ := slot
  cases kind with
  | raw =>
    obtain ⟨text, rfl, hmin, hmax⟩ := h
    rw [List.length_singleton] at hlength
    obtain ⟨row, rfl⟩ := List.length_eq_one_iff.1 hlength.symm
    exact ⟨row, text, rfl, hentries 0 row rfl, hmin, hmax⟩
  | _ =>
    obtain ⟨hmin, hmax⟩ := h
    rw [hlength] at hmin hmax
    exact ⟨hmin, hmax⟩

end Slot

namespace Schema

variable {slots : List Slot} {bytes rest : Bytes} {columns even : List (List Value)}

theorem Received.holds (h : Received slots bytes columns rest) : List.Forall₂ Slot.Holds slots columns := by
  induction h with
  | nil => exact .nil
  | cons _ hcolumn _ ih => exact .cons (Slot.holds_of_decode hcolumn) ih

theorem holds_of_cutFlags {rows : Nat} (hholds : List.Forall₂ Slot.Holds slots columns)
    (h : cutFlags rows slots columns = .ok even) : List.Forall₂ Slot.Holds slots even := by
  induction hholds generalizing even with
  | nil =>
    cases h
    exact .nil
  | @cons slot column slots columns hslot _ ih =>
    rw [cutFlags] at h
    split at h
    · rename_i hflags
      split at h
      · cases h
      · obtain ⟨tail, htail, h⟩ := Outcome.bind_eq_ok.1 h
        obtain rfl := Outcome.pure_eq_ok.1 h
        exact .cons (hslot.take hflags rows) (ih htail)
    · obtain ⟨tail, htail, h⟩ := Outcome.bind_eq_ok.1 h
      obtain rfl := Outcome.pure_eq_ok.1 h
      exact .cons hslot (ih htail)

theorem bounds_of_meetMinimums (hholds : List.Forall₂ Slot.Holds slots columns)
    (h : meetMinimums slots columns = true) : List.Forall₂ Slot.Bounds slots columns := by
  induction hholds with
  | nil => exact .nil
  | cons hslot _ ih =>
    simp only [meetMinimums, List.zipWith_cons_cons, List.all_cons, id_eq, Bool.and_eq_true,
      decide_eq_true_eq] at h ih
    exact .cons (hslot.bounds h.1) (ih h.2)

end Schema

/-! ## Rows of columns -/

namespace Columns

/-- Rows made of columns: each has one entry of every column, and every column one entry of each row. -/
theorem unflatten_eq_ok {columns table : List (List Value)} (h : unflatten columns = .ok table) :
    (∀ row ∈ table, row.length = columns.length) ∧
      ∀ (index : Nat) (column : List Value), columns[index]? = some column →
        column.length = table.length ∧
          ∀ (place : Nat) (row : List Value), table[place]? = some row → row[index]? = column[place]? := by
  obtain ⟨width, hwidth⟩ := width_of_transpose h
  rw [unflatten, transpose_of_width hwidth] at h
  cases columns with
  | nil =>
    cases h
    constructor
    · intro row hrow
      cases hrow
    · intro index column hcolumn
      cases hcolumn
  | cons first others =>
    rw [if_neg (by simp)] at h
    cases h
    have hlt : ∀ place ∈ List.range width, ∀ column ∈ first :: others, place < column.length :=
      fun place hplace column hcolumn => hwidth column hcolumn ▸ List.mem_range.1 hplace
    constructor
    · intro row hrow
      obtain ⟨place, hplace, rfl⟩ := List.mem_map.1 hrow
      exact length_column (hlt place hplace)
    · intro index column hcolumn
      have hlength := hwidth column (List.mem_of_getElem? hcolumn)
      refine ⟨by simpa using hlength, fun place row hrow => ?_⟩
      rw [List.getElem?_map] at hrow
      obtain ⟨place', hplace', rfl⟩ := Option.map_eq_some_iff.1 hrow
      obtain ⟨hplace, rfl⟩ := List.getElem?_eq_some_iff.1 hplace'
      rw [List.getElem_range, getElem?_column (hlt place (by simpa using hplace)), hcolumn, Option.bind_some]

end Columns

namespace Schema

variable {slots : List Slot} {columns table : List (List Value)}

/-- Of columns that came out even, the bounds of each slot are bounds of the rows. -/
theorem boundsRows_of_columns (hbounds : List.Forall₂ Slot.Bounds slots columns)
    (htable : Columns.unflatten columns = .ok table) :
    (∀ row ∈ table, row.length = slots.length) ∧
      ∀ (index : Nat) (slot : Slot), slots[index]? = some slot → slot.BoundsRows index table := by
  obtain ⟨hwidth, hcolumn⟩ := Columns.unflatten_eq_ok htable
  refine ⟨fun row hrow => (hwidth row hrow).trans hbounds.length_eq.symm, fun index slot hslot => ?_⟩
  obtain ⟨hindex, rfl⟩ := List.getElem?_eq_some_iff.1 hslot
  have hlt : index < columns.length := hbounds.length_eq ▸ hindex
  obtain ⟨hlength, hentries⟩ := hcolumn index _ (List.getElem?_eq_getElem hlt)
  exact Slot.Bounds.boundsRows (hbounds.get hindex hlt) hlength hentries

/-! ## Every schema -/

/-- Values of the shape a schema declares and within its bounds: those of a single slot; one list for each slot; or
rows with one entry for each slot, as many as every slot may hold. -/
def Within (schema : Schema) (values : List Value) : Prop :=
  match schema.shape with
  | .single slot => slot.Bounds values
  | .object slots =>
    if schema.autoFlatten then
      ∃ rows, values = rows.map .list ∧ (∀ row ∈ rows, row.length = slots.length) ∧
        ∀ (index : Nat) (slot : Slot), slots[index]? = some slot → slot.BoundsRows index rows
    else ∃ columns, values = columns.map .list ∧ List.Forall₂ Slot.Bounds slots columns

/-- What a schema decodes is within its bounds, whatever the octets. -/
theorem within_of_decode {schema : Schema} {bytes : Bytes} {values : List Value}
    (h : schema.decode bytes = .ok values) : schema.Within values := by
  unfold Within
  cases hshape : schema.shape with
  | single slot =>
    obtain ⟨hdecode, hmin⟩ := single_of_decode hshape h
    exact (Slot.holds_of_decode hdecode).bounds hmin
  | object slots =>
    obtain ⟨rows, sections, columns, -, hreceived, harranges⟩ := received_of_decode hshape h
    have hholds := hreceived.holds
    unfold Arranges at harranges
    dsimp only
    split at harranges
    · rename_i hflatten
      obtain ⟨even, table, heven, hminimums, htable, rfl⟩ := harranges
      rw [if_pos hflatten]
      -- the minimum is that of the columns after the cut
      have hbounds := bounds_of_meetMinimums (holds_of_cutFlags hholds heven) hminimums
      exact ⟨table, rfl, boundsRows_of_columns hbounds htable⟩
    · rename_i hflatten
      obtain ⟨hminimums, rfl⟩ := harranges
      rw [if_neg hflatten]
      exact ⟨columns, rfl, bounds_of_meetMinimums hholds hminimums⟩

namespace Badge

/-- A raw text among flags and integers, flattened: there can be one row only. -/
def schema : Schema :=
  { shape := .object [⟨.raw, 1, 9⟩, ⟨.booleans, 1, 8⟩, ⟨.intsDynamic, 0, 3⟩], autoFlatten := true }

def payload : Bytes := [2, 104, 105, 1, 128, 2, 1, 5]

end Badge

theorem within_of_decode_badge :
    Badge.schema.decode Badge.payload = .ok [.list [.string "hi", .bool true, .int 5]] ∧
      Badge.schema.Within [.list [.string "hi", .bool true, .int 5]] := by
  have hdecode : Badge.schema.decode Badge.payload = .ok [.list [.string "hi", .bool true, .int 5]] := by cbv
  exact ⟨hdecode, within_of_decode hdecode⟩

end Schema

end PacketProtocol
