import PacketProtocol.Packet.Basic
import PacketProtocol.Proofs.Machine.Payload
import PacketProtocol.Proofs.Sections
/-!
# Schemas on the machine

Sections are read one by one, columns are counted, cut and turned into rows by index. Nothing traps:
a column's count was held against the bounds when it was decoded, and rows are indexed only after
their lengths were found equal.
-/

namespace PacketProtocol.Machine

/-! ## Shapes -/

/-- The octets of a section. -/
def framed : Reading Bytes := do take (← octet).toNat

def sectionsFit : List Slot → Reader → Option Bool
  | [], r => r.isEmpty
  | slot :: slots, r => do
    match ← (framed r).run with
    | .error _ => return false
    | .ok (payload, r) =>
      if ← fits slot.kind payload slot.max.toNat then sectionsFit slots r else return false

def schemaFits (schema : Schema) (bytes : Bytes) : Option Bool :=
  match schema.shape with
  | .single slot => fits slot.kind bytes slot.max.toNat
  | .object slots =>
    if schema.leadsWithRows then do
      match ← (varint (.start bytes)).run with
      | .error _ => return false
      | .ok (_, r) => sectionsFit slots r
    else sectionsFit slots (.start bytes)

theorem framed_nil {r : Reader} (h : r.ahead = []) : framed r = safe (.error .unexpectedEnd) := by
  show octet r >>= (fun read => take read.1.toNat read.2) = _
  rw [octet_nil h]
  rfl

theorem framed_cons {r : Reader} (hr : r.Valid) {length : UInt8} {rest : Bytes} (h : r.ahead = length :: rest) :
    framed r = if length.toNat ≤ rest.length then safe (.ok (rest.take length.toNat, r.skip (1 + length.toNat)))
      else safe (.error .unexpectedEnd) := by
  have hvalid := hr.skip_one h
  have hrest := Reader.ahead_skip_one h
  show octet r >>= (fun read => take read.1.toNat read.2) = _
  rw [octet_cons hr h]
  show take length.toNat (r.skip 1) = _
  split
  · rename_i hle
    rw [take_of_le hvalid (hrest ▸ hle), hrest, Reader.skip_skip]
  · rename_i hlt
    exact take_of_lt hvalid (hrest ▸ Nat.lt_of_not_le hlt)

theorem sectionsFit_eq {slots : List Slot} {r : Reader} (hr : r.Valid) :
    sectionsFit slots r = some (Schema.sectionsFit slots r.ahead) := by
  induction slots generalizing r with
  | nil => rw [sectionsFit, Schema.sectionsFit, hr.isEmpty]
  | cons slot slots ih =>
    rw [sectionsFit]
    cases hahead : r.ahead with
    | nil =>
      rw [framed_nil hahead]
      rfl
    | cons length rest =>
      rw [framed_cons hr hahead, Schema.sectionsFit]
      by_cases hle : length.toNat ≤ rest.length
      · have hcount : 1 + length.toNat ≤ r.ahead.length := by rw [hahead, List.length_cons]; omega
        have hrest : (r.skip (1 + length.toNat)).ahead = rest.drop length.toNat := by
          rw [Reader.ahead_skip, hahead, Nat.add_comm, List.drop_succ_cons]
        have hlength : (rest.take length.toNat).length < 2 ^ 64 := by
          have := length.toNat_lt
          rw [List.length_take]
          omega
        rw [if_pos hle]
        show (fits slot.kind (rest.take length.toNat) slot.max.toNat >>= fun fit => _) = _
        rw [fits_eq slot.kind hlength slot.max.toNat_lt, ← hrest]
        cases slot.kind.fits (rest.take length.toNat) slot.max.toNat with
        | false => simp
        | true => simpa [hle] using ih (hr.skip hcount)
      · rw [if_neg hle]
        simp [hle, safe]

theorem schemaFits_eq (schema : Schema) {bytes : Bytes} (h : bytes.length < 2 ^ 64) :
    schemaFits schema bytes = some (schema.fits bytes) := by
  have hstart := Reader.start_valid h
  unfold schemaFits Schema.fits
  cases schema.shape with
  | single slot => exact fits_eq slot.kind h slot.max.toNat_lt
  | object slots =>
    dsimp only
    split
    · obtain ⟨fault, hparse, hread⟩ | ⟨rows, count, -, hcount, hparse, hread⟩ := varint_follows _ hstart
      · rw [hread, show Varint.decode bytes = _ from hparse]
        rfl
      · rw [hread, show Varint.decode bytes = _ from hparse]
        have hsections := @sectionsFit_eq slots _ (hstart.skip hcount)
        rw [Reader.ahead_skip] at hsections
        exact hsections
    · exact sectionsFit_eq hstart

/-! ## Columns -/

/-- Puts one fault in the place of any other. -/
def orFault {α : Type} (fault : DecodeFault) (m : Reading α) : Reading α := fun r =>
  ExceptT.adapt (fun _ => fault) (m r)

def columns : List Slot → Reading (List (List Value))
  | [] => return []
  | slot :: slots => do
    let length ← octet
    let payload ← orFault .sectionLength (take length.toNat)
    let column ← (decode slot.kind payload slot.max.toNat : Checked DecodeFault (List Value))
    return column :: (← columns slots)

/-- Whether every slot's count reaches its lower bound. -/
def meetMinimums : List Slot → List (List Value) → Option Bool
  | slot :: slots, column :: columns => do
    if (← count slot.kind column) < slot.min.toNat then return false else meetMinimums slots columns
  | _, _ => return true

/-- The columns of a rectangular table, entry by entry. -/
def transpose (rows : List (List Value)) : Option (Result (List (List Value))) :=
  match rows with
  | [] => return .ok []
  | first :: _ =>
    if rows.any fun row => row.length != first.length then return .error (.invalidSchema .notRectangular)
    else do return .ok (← (List.range first.length).mapM fun i => rows.mapM fun row => index row i)

/-- Cuts the columns of flags where rows were turned into columns. -/
def cutColumns (schema : Schema) (slots : List Slot) (rows : Option Nat) (columns : List (List Value)) :
    Except DecodeFault (List (List Value)) :=
  if schema.autoFlatten then Schema.cutFlags (rows.getD (Schema.rowCount slots columns)) slots columns
  else .ok columns

/-- The values of columns that were read, turned into rows where the schema says so. -/
def arrange (schema : Schema) (slots : List Slot) (rows : Option Nat) (columns : List (List Value)) :
    Checked DecodeFault (List Value) := do
  let columns ← safe (cutColumns schema slots rows columns)
  if ← meetMinimums slots columns then
    if schema.autoFlatten then
      match ← transpose columns with
      | .ok rows => return rows.map .list
      | .error _ => throw .raggedColumns
    else return columns.map .list
  else throw .capacity

def decodeSchema (schema : Schema) (bytes : Bytes) : Checked DecodeFault (List Value) :=
  match schema.shape with
  | .single slot => do
    let values ← decode slot.kind bytes slot.max.toNat
    if (← count slot.kind values) < slot.min.toNat then throw .capacity else return values
  | .object slots => do
    let (rows, r) ←
      if schema.leadsWithRows then do
        let (rows, r) ← varint (.start bytes)
        pure (some rows, r)
      else pure (none, .start bytes)
    let (columns, r) ← columns slots r
    let _ ← finish r
    arrange schema slots rows columns

/-- The values of a payload that fits its packet's schema, decodes and passes the validator. -/
def decodePacket (packet : Packet) (bytes : Bytes) : Checked ProtocolError (List Value) := do
  if ← schemaFits packet.schema bytes then
    match ← (decodeSchema packet.schema bytes).run with
    | .error fault => throw (.malformedPayload packet.tag (.decode fault))
    | .ok values =>
      if packet.validator.all fun accepts => accepts values then return values
      else throw (.malformedPayload packet.tag .rejected)
  else throw (.malformedPayload packet.tag (.decode .capacity))

theorem section_follows :
    Follows 1 (do orFault .sectionLength (take (← octet).toNat)) Schema.section? := by
  intro r hr
  unfold FollowsAt
  cases hahead : r.ahead with
  | nil =>
    refine .inl ⟨.unexpectedEnd, rfl, ?_⟩
    show octet r >>= (fun _ => _) = _
    rw [octet_nil hahead]
    rfl
  | cons length rest =>
    have hvalid := hr.skip_one hahead
    have hrest := Reader.ahead_skip_one hahead
    have hread : (do orFault .sectionLength (take (← octet).toNat) : Reading Bytes) r =
        ExceptT.adapt (fun _ => .sectionLength) (take length.toNat (r.skip 1)) := by
      show octet r >>= (fun _ => _) = _
      rw [octet_cons hr hahead]
      rfl
    rw [hread, Schema.section?_cons]
    obtain hlt | hle := Nat.lt_or_ge rest.length length.toNat
    · refine .inl ⟨.sectionLength, if_neg (Nat.not_le.2 hlt), ?_⟩
      rw [take_of_lt hvalid (hrest ▸ hlt)]
      rfl
    · refine .inr ⟨rest.take length.toNat, length.toNat + 1, Nat.le_add_left 1 _, Nat.succ_le_succ hle, if_pos hle, ?_⟩
      rw [take_of_le hvalid (hrest ▸ hle), hrest, Reader.skip_skip, Nat.add_comm]
      rfl

theorem length_of_section {bytes payload rest : Bytes} (h : Schema.section? bytes = .ok (payload, rest)) :
    payload.length < 2 ^ 64 := by
  cases bytes with
  | nil => cases h
  | cons length tail =>
    have hlength := length.toNat_lt
    rw [Schema.section?_cons] at h
    split at h
    · cases h
      rw [List.length_take]
      omega
    · cases h

theorem columns_follows (slots : List Slot) : Follows 0 (columns slots) (Schema.columnsParser slots) := by
  induction slots with
  | nil => exact .pure []
  | cons slot slots ih =>
    rw [columns, ← bind_assoc]
    refine section_follows.bindOf (P := fun payload => payload.length < 2 ^ 64) length_of_section ?_
    intro payload hpayload
    exact (Follows.lift (decode_eq slot.kind hpayload slot.max.toNat_lt)).bind fun column => ih.bind fun _ => .pure _

/-! ## Bounds and rows -/

/-- Columns whose counts are words. -/
abbrev Countable (slots : List Slot) (columns : List (List Value)) : Prop :=
  List.Forall₂ (fun slot column => slot.kind = .raw → slot.kind.count column < 2 ^ 64) slots columns

theorem countable_columns {slots : List Slot} {bytes rest : Bytes} {columns : List (List Value)}
    (h : Schema.columnsParser slots bytes = .ok (columns, rest)) : Countable slots columns := by
  induction slots generalizing bytes columns with
  | nil =>
    cases h
    exact .nil
  | cons slot slots ih =>
    obtain ⟨⟨payload, tail⟩, -, h⟩ := Outcome.bind_eq_ok.1 h
    obtain ⟨⟨column, tail'⟩, hcolumn, h⟩ := Outcome.bind_eq_ok.1 h
    obtain ⟨⟨columns', tail''⟩, hcolumns, h⟩ := Outcome.bind_eq_ok.1 h
    cases h
    obtain ⟨column', hdecode, hlift⟩ := Outcome.bind_eq_ok.1 hcolumn
    cases hlift
    refine .cons (fun _ => ?_) (ih hcolumns)
    have := (PayloadKind.decode_eq_ok.1 hdecode).2.2
    have := slot.max.toNat_lt
    omega

/-- Only columns of flags are cut, and those are not of text. -/
theorem Countable.cutFlags {rows : Nat} {slots : List Slot} {columns columns' : List (List Value)}
    (h : Countable slots columns) (hcut : Schema.cutFlags rows slots columns = .ok columns') :
    Countable slots columns' := by
  induction h generalizing columns' with
  | nil =>
    cases hcut
    exact .nil
  | @cons slot column slots columns hcolumn _ ih =>
    rw [Schema.cutFlags] at hcut
    split at hcut
    · rename_i hflags
      split at hcut
      · cases hcut
      · obtain ⟨tail, htail, h⟩ := Outcome.bind_eq_ok.1 hcut
        cases h
        refine .cons (fun hraw => ?_) (ih htail)
        rw [hraw] at hflags
        cases hflags
    · obtain ⟨tail, htail, h⟩ := Outcome.bind_eq_ok.1 hcut
      cases h
      exact .cons hcolumn (ih htail)

theorem meetMinimums_eq {slots : List Slot} {columns : List (List Value)} (h : Countable slots columns) :
    meetMinimums slots columns = some (Schema.meetMinimums slots columns) := by
  induction h with
  | nil => rfl
  | @cons slot column slots columns hcolumn _ ih =>
    rw [meetMinimums, count_eq hcolumn]
    show (if slot.count column < slot.min.toNat then _ else _) = _
    have hall : Schema.meetMinimums (slot :: slots) (column :: columns) =
        (decide (slot.min.toNat ≤ slot.count column) && Schema.meetMinimums slots columns) := rfl
    rw [hall]
    split
    · rename_i hlt
      simp [Nat.not_le.2 hlt]
    · rename_i hle
      simpa [Nat.not_lt.1 hle] using ih

/-- An index inside every row finds an entry in every row. -/
theorem mapM_index {rows : List (List Value)} {i : Nat} (h : ∀ row ∈ rows, i < row.length) :
    rows.mapM (fun row => index row i) = some (rows.filterMap (·[i]?)) := by
  induction rows with
  | nil => rfl
  | cons row rows ih =>
    have hlt := h row (by simp)
    have hrow : row[i]? = some row[i] := List.getElem?_eq_getElem hlt
    rw [List.mapM_cons, index, hrow, ih fun other hother => h other (by simp [hother]), List.filterMap_cons, hrow]
    rfl

theorem transpose_eq (rows : List (List Value)) : transpose rows = some (Columns.transpose rows) := by
  cases rows with
  | nil => rfl
  | cons first rest =>
    rw [transpose, Columns.transpose]
    split
    · rfl
    · rename_i hwidth
      have hcolumn : ∀ i ∈ List.range first.length,
          (first :: rest).mapM (fun row => index row i) = some ((first :: rest).filterMap (·[i]?)) := by
        refine fun i hi => mapM_index fun row hrow => ?_
        have hlength := List.any_eq_false.1 (Bool.eq_false_iff.2 hwidth) row hrow
        simp only [bne_iff_ne, ne_eq, Decidable.not_not] at hlength
        rw [hlength]
        exact List.mem_range.1 hi
      rw [mapM_eq_some hcolumn]
      rfl

/-- Columns that were cut, as values. -/
def arranged (schema : Schema) (slots : List Slot) (columns : List (List Value)) : Except DecodeFault (List Value) :=
  if Schema.meetMinimums slots columns then
    if schema.autoFlatten then
      match Columns.unflatten columns with
      | .ok rows => .ok (rows.map .list)
      | .error _ => .error .raggedColumns
    else .ok (columns.map .list)
  else .error .capacity

/-- This is how a schema goes on once its columns are read. -/
theorem cutColumns_bind_arranged (schema : Schema) (slots : List Slot) (rows : Option Nat)
    (columns : List (List Value)) :
    (cutColumns schema slots rows columns >>= arranged schema slots) = (do
      let columns ←
        if schema.autoFlatten then Schema.cutFlags (rows.getD (Schema.rowCount slots columns)) slots columns
        else pure columns
      if !Schema.meetMinimums slots columns then
        throw .capacity
      if schema.autoFlatten then
        match Columns.unflatten columns with
        | .ok rows => return rows.map .list
        | .error _ => throw .raggedColumns
      else return columns.map .list) := by
  have harranged : ∀ columns, arranged schema slots columns =
      if !Schema.meetMinimums slots columns then .error .capacity
      else if schema.autoFlatten then
        match Columns.unflatten columns with
        | .ok rows => .ok (rows.map .list)
        | .error _ => .error .raggedColumns
      else .ok (columns.map .list) := by
    intro columns
    unfold arranged
    cases Schema.meetMinimums slots columns <;> rfl
  unfold cutColumns
  cases hflatten : schema.autoFlatten with
  | false => exact (harranged columns).trans (by rw [hflatten]; rfl)
  | true =>
    refine congrArg (Schema.cutFlags _ slots columns >>= ·) (funext fun columns => ?_)
    exact (harranged columns).trans (by rw [hflatten]; rfl)

theorem arrange_eq {schema : Schema} {slots : List Slot} {rows : Option Nat} {columns : List (List Value)}
    (h : Countable slots columns) :
    arrange schema slots rows columns = safe (cutColumns schema slots rows columns >>= arranged schema slots) := by
  refine safe_bind fun columns' hcut => ?_
  -- what is counted is what was left by the cut, not what was read
  have hcountable : Countable slots columns' := by
    unfold cutColumns at hcut
    split at hcut
    · exact h.cutFlags hcut
    · cases hcut
      exact h
  rw [meetMinimums_eq hcountable, liftM_some, pure_bind, arranged]
  split
  · split
    · rw [transpose_eq, liftM_some, pure_bind, Columns.unflatten]
      cases Columns.transpose columns' <;> rfl
    · rfl
  · rfl

/-! ## Packets -/

/-- The columns, and nothing behind them. -/
theorem sections_eq (schema : Schema) (slots : List Slot) (rows : Option Nat) {r : Reader} (hr : r.Valid) :
    (columns slots r >>= fun read => finish read.2 >>= fun _ => arrange schema slots rows read.1) =
      safe (Schema.columnsParser slots r.ahead >>= fun read =>
        if !read.2.isEmpty then .error .trailingBytes
        else cutColumns schema slots rows read.1 >>= arranged schema slots) := by
  obtain ⟨fault, hparse, hread⟩ | ⟨columns', count, -, hcount, hparse, hread⟩ := columns_follows slots r hr
  · rw [hparse, hread]
    rfl
  · rw [hparse, hread]
    have hcountable := countable_columns hparse
    show (finish (r.skip count) >>= fun _ => arrange schema slots rows columns') =
      safe (if !(r.ahead.drop count).isEmpty then _ else _)
    rw [finish_eq (hr.skip hcount), Reader.ahead_skip, arrange_eq hcountable]
    cases (r.ahead.drop count).isEmpty <;> rfl

theorem decodeSchema_eq (schema : Schema) {bytes : Bytes} (h : bytes.length < 2 ^ 64) :
    decodeSchema schema bytes = safe (schema.decode bytes) := by
  unfold decodeSchema Schema.decode
  cases schema.shape with
  | single slot =>
    dsimp only
    rw [decode_eq slot.kind h slot.max.toNat_lt]
    refine safe_bind fun values hvalues => ?_
    have hword : slot.kind = .raw → slot.kind.count values < 2 ^ 64 := by
      have := (PayloadKind.decode_eq_ok.1 hvalues).2.2
      have := slot.max.toNat_lt
      omega
    rw [count_eq hword, liftM_some, pure_bind]
    show (if slot.count values < slot.min.toNat then _ else _) = _
    split <;> rfl
  | object slots =>
    have hstart := Reader.start_valid h
    dsimp only
    have hmodel : ∀ (rows : Option Nat) (read : List (List Value) × Bytes),
        (if !read.2.isEmpty then .error .trailingBytes
          else cutColumns schema slots rows read.1 >>= arranged schema slots) = _ :=
      fun rows read => congrArg (fun tail => if !read.2.isEmpty then .error .trailingBytes else tail)
        (cutColumns_bind_arranged schema slots rows read.1)
    cases hleads : schema.leadsWithRows with
    | false =>
      refine (sections_eq schema slots none hstart).trans (congrArg safe ?_)
      exact congrArg (Schema.columnsParser slots bytes >>= ·) (funext (hmodel none))
    | true =>
      obtain ⟨fault, hparse, hread⟩ | ⟨rows, count, -, hcount, hparse, hread⟩ := varint_follows _ hstart
      · rw [hread, show Varint.decode bytes = _ from hparse]
        rfl
      · have htail := sections_eq schema slots (some rows) (hstart.skip hcount)
        rw [Reader.ahead_skip] at htail
        rw [hread, show Varint.decode bytes = _ from hparse]
        refine htail.trans (congrArg safe ?_)
        exact congrArg (Schema.columnsParser slots (bytes.drop count) >>= ·) (funext (hmodel (some rows)))

theorem decodePacket_eq (packet : Packet) {bytes : Bytes} (h : bytes.length < 2 ^ 64) :
    decodePacket packet bytes = safe (packet.decode bytes) := by
  rw [decodePacket, Packet.decode, schemaFits_eq packet.schema h, decodeSchema_eq packet.schema h, liftM_some,
    pure_bind]
  cases packet.schema.fits bytes with
  | false => rfl
  | true =>
    cases packet.schema.decode bytes with
    | error fault => rfl
    | ok values =>
      show (if packet.validator.all fun accepts => accepts values then _ else _) =
        safe (if packet.validator.all fun accepts => accepts values then _ else _)
      split <;> rfl

end PacketProtocol.Machine
