import PacketProtocol.Proofs.RoundTrip
/-!
# Rows of an auto-flattened object

A table of rows is sent column by column. The receiver gets every table back that was sent, but for
one shape: rows without entries under flags alone. The number of such rows stands in front of
columns that are empty, and the receiver refuses what does not come out even.
-/

namespace PacketProtocol

namespace Columns

/-- Columns of rows that are all of one width. -/
theorem transpose_of_width {rows : List (List Value)} {width : Nat} (h : ∀ row ∈ rows, row.length = width) :
    transpose rows =
      .ok (if rows = [] then [] else (List.range width).map fun column => rows.filterMap (·[column]?)) := by
  cases rows with
  | nil => rfl
  | cons first rest =>
    have hfirst := h first (by simp)
    have hany : ((first :: rest).any fun row => row.length != first.length) = false := by
      refine List.any_eq_false.2 fun row hrow => ?_
      simp [h row hrow, hfirst]
    rw [transpose, if_neg (by rw [hany]; decide), if_neg (by simp), hfirst]

/-- Rows that have columns are all of one width. -/
theorem width_of_transpose {rows columns : List (List Value)} (h : transpose rows = .ok columns) :
    ∃ width, ∀ row ∈ rows, row.length = width := by
  cases rows with
  | nil => exact ⟨0, nofun⟩
  | cons first rest =>
    refine ⟨first.length, ?_⟩
    by_contra hne
    have hany : ((first :: rest).any fun row => row.length != first.length) = true := by
      simpa using hne
    rw [transpose, if_pos hany] at h
    cases h

theorem length_column {rows : List (List Value)} {column : Nat} (h : ∀ row ∈ rows, column < row.length) :
    (rows.filterMap (·[column]?)).length = rows.length := by
  induction rows with
  | nil => rfl
  | cons row rows ih =>
    have hrow := h row (by simp)
    rw [List.filterMap_cons, List.getElem?_eq_getElem hrow]
    simp [ih fun r hr => h r (by simp [hr])]

/-- Rows either have no entries, and then no columns, or every column has one entry of each row. -/
theorem transpose_eq_ok {rows columns : List (List Value)} (h : transpose rows = .ok columns) :
    (columns = [] ∧ ∀ row ∈ rows, row = []) ∨
      (columns ≠ [] ∧ (∃ row ∈ rows, row ≠ []) ∧ ∀ column ∈ columns, column.length = rows.length) := by
  obtain ⟨width, hwidth⟩ := width_of_transpose h
  rw [transpose_of_width hwidth] at h
  cases h
  rcases rows with _ | ⟨first, rest⟩
  · exact .inl ⟨rfl, nofun⟩
  rw [if_neg (by simp)]
  -- rows of width zero have no columns, however many they are
  by_cases hzero : width = 0
  · subst hzero
    exact .inl ⟨rfl, fun row hrow => List.length_eq_zero_iff.1 (hwidth row hrow)⟩
  · refine .inr ⟨by simpa using hzero, ⟨first, by simp, ?_⟩, ?_⟩
    · exact List.ne_nil_of_length_pos (by rw [hwidth first (by simp)]; omega)
    · intro column hcolumn
      obtain ⟨index, hindex, rfl⟩ := List.mem_map.1 hcolumn
      exact length_column fun row hrow => hwidth row hrow ▸ List.mem_range.1 hindex

end Columns

namespace Schema

/-- Groups of an auto-flattened object: none of them has values, as no row has; or each has one of
every row. -/
theorem groups_flattened {schema : Schema} {slots : List Slot} {values : List Value} {groups : List (List Value)}
    (hflatten : schema.autoFlatten = true) (h : schema.groups slots values = .ok groups) :
    (groups = slots.map (fun _ => []) ∧ ∀ value ∈ values, groupOf value = []) ∨
      ((∃ value ∈ values, groupOf value ≠ []) ∧ ∀ group ∈ groups, group.length = values.length) := by
  rw [Schema.groups, if_pos hflatten] at h
  obtain ⟨columns, hcolumns, h⟩ := Outcome.bind_eq_ok.1 h
  obtain rfl := Outcome.pure_eq_ok.1 h
  obtain ⟨rfl, hrows⟩ | ⟨hne, hrow, hlength⟩ := Columns.transpose_eq_ok hcolumns
  · exact .inl ⟨rfl, by simpa using hrows⟩
  · rw [if_neg (by simpa using hne)]
    exact .inr ⟨by simpa using hrow, by simpa using hlength⟩

/-! ## Cutting the flags -/

/-- Values of each slot as they arrive, without the flags that fill up an octet. -/
def arrivedColumns (slots : List Slot) (groups : List (List Value)) : List (List Value) :=
  List.zipWith (fun slot group => group.map slot.kind.arrived) slots groups

theorem canonical_of_not_flags {slot : Slot} {values : List Value} (h : slot.kind.isFlags = false) :
    slot.canonical values = values.map slot.kind.arrived := by
  obtain ⟨kind, min, max⟩ := slot
  cases kind <;> first | exact List.append_nil _ | cases h

variable {slots : List Slot} {groups : List (List Value)} {bytes : Bytes} {rows : Nat}

/-- Cut to the length of the groups, the columns are what was sent. -/
theorem Sections.cut (h : Sections slots groups bytes) (hlength : ∀ group ∈ groups, group.length = rows) :
    cutFlags rows slots (List.zipWith Slot.canonical slots groups) = .ok (arrivedColumns slots groups) := by
  induction h with
  | nil => rfl
  | @cons slot slots values groups payload bytes hsends _ _ ih =>
    have ih := ih fun group hgroup => hlength group (by simp [hgroup])
    have hvalues : values.length = rows := hlength values (by simp)
    simp only [List.zipWith_cons_cons, cutFlags, ih]
    by_cases hflags : slot.kind.isFlags = true
    · have hcut : (slot.canonical values).take rows = values.map slot.kind.arrived := by
        rw [Slot.canonical, PayloadKind.canonical, List.take_left' (by simpa using hvalues)]
      have hle : ¬ (slot.canonical values).length < rows := by
        simp [Slot.canonical, PayloadKind.canonical, hvalues]
      rw [if_pos hflags, if_neg hle, hcut]
      rfl
    · rw [if_neg hflags, canonical_of_not_flags (by simpa using hflags)]
      rfl

/-- Columns that are not of flags have as many entries as their groups. -/
theorem rowCount_canonical (hlength : ∀ group ∈ groups, group.length = rows) (heq : groups.length = slots.length)
    (hflags : allFlags slots = false) : rowCount slots (List.zipWith Slot.canonical slots groups) = rows := by
  induction slots generalizing groups with
  | nil => cases hflags
  | cons slot slots ih =>
    rcases groups with _ | ⟨values, groups⟩
    · cases heq
    simp only [List.zipWith_cons_cons, rowCount]
    by_cases hslot : slot.kind.isFlags = true
    · rw [if_pos hslot]
      refine ih (fun group hgroup => hlength group (by simp [hgroup])) (Nat.succ.inj heq) ?_
      simpa [allFlags, hslot] using hflags
    · rw [if_neg hslot, canonical_of_not_flags (by simpa using hslot), List.length_map]
      exact hlength values (by simp)

theorem count_arrived (kind : PayloadKind) (values : List Value) :
    kind.count (values.map kind.arrived) = kind.count values := by
  cases kind with
  | raw => exact congrArg PayloadKind.raw.count (List.map_id'' (fun _ => rfl) values)
  | _ => simp [PayloadKind.count]

theorem Sections.meetMinimums_arrived (h : Sections slots groups bytes) :
    Schema.meetMinimums slots (arrivedColumns slots groups) = true := by
  induction h with
  | nil => rfl
  | cons hsends _ _ ih =>
    simp only [Schema.meetMinimums, arrivedColumns, List.zipWith_cons_cons, List.all_cons, id_eq, Bool.and_eq_true,
      decide_eq_true_eq] at ih ⊢
    refine ⟨?_, ih⟩
    rw [Slot.count, count_arrived]
    exact hsends.min_le

theorem length_arrivedColumns (hlength : ∀ group ∈ groups, group.length = rows) :
    ∀ column ∈ arrivedColumns slots groups, column.length = rows := by
  induction slots generalizing groups with
  | nil => nofun
  | cons slot slots ih =>
    rcases groups with _ | ⟨values, groups⟩
    · nofun
    intro column hcolumn
    rcases List.mem_cons.1 hcolumn with rfl | hcolumn
    · rw [List.length_map]
      exact hlength values (by simp)
    · exact ih (fun group hgroup => hlength group (by simp [hgroup])) column hcolumn

/-! ## Decoding rows -/

/-- Rows of columns that arrive. -/
def arrivedRows (slots : List Slot) (groups : List (List Value)) (rows : Nat) : List Value :=
  (List.range rows).map fun row => .list ((arrivedColumns slots groups).filterMap (·[row]?))

/-- The number of rows a receiver goes by. -/
def rowsTold (schema : Schema) (slots : List Slot) (values : List Value) (groups : List (List Value)) : Nat :=
  if schema.leadsWithRows then values.length else rowCount slots (List.zipWith Slot.canonical slots groups)

theorem decode_rows {schema : Schema} {values : List Value} {front sections : Bytes} {groups : List (List Value)}
    (hshape : schema.shape = .object slots) (hflatten : schema.autoFlatten = true)
    (hfront : schema.Fronts values front)
    (hsections : Sections slots groups sections) :
    schema.decode (front ++ sections) =
      (do
        let columns ← cutFlags (schema.rowsTold slots values groups) slots (List.zipWith Slot.canonical slots groups)
        if !Schema.meetMinimums slots columns then
          throw .capacity
        match Columns.unflatten columns with
        | .ok rows => return rows.map .list
        | .error _ => throw .raggedColumns) := by
  have hread := hsections.reads []
  rw [List.append_nil] at hread
  unfold Fronts at hfront
  split at hfront
  · rename_i hleads
    obtain ⟨hlt, rfl⟩ := hfront
    simp only [decode, hshape, hleads, hflatten, if_true, Varint.decode_groups hlt, bind, Except.bind, pure,
      Except.pure, hread, rowsTold]
    rfl
  · rename_i hleads
    subst hfront
    simp only [decode, hshape, hleads, hflatten, if_true, List.nil_append, bind, Except.bind, pure, Except.pure, hread,
      rowsTold]
    rfl

/-- Columns that come out even are read as rows. -/
theorem decode_rows_even {schema : Schema} {values : List Value} {front sections : Bytes} {groups : List (List Value)}
    (hshape : schema.shape = .object slots) (hpos : 0 < slots.length) (hflatten : schema.autoFlatten = true)
    (hfront : schema.Fronts values front)
    (hsections : Sections slots groups sections) (hlength : ∀ group ∈ groups, group.length = rows)
    (htold : schema.rowsTold slots values groups = rows) :
    schema.decode (front ++ sections) = .ok (arrivedRows slots groups rows) := by
  have hne : arrivedColumns slots groups ≠ [] := by
    refine List.ne_nil_of_length_pos ?_
    rw [arrivedColumns, List.length_zipWith, hsections.length_eq, Nat.min_self]
    exact hpos
  rw [decode_rows hshape hflatten hfront hsections, htold, hsections.cut hlength]
  simp only [bind, Except.bind, pure, Except.pure, hsections.meetMinimums_arrived, Columns.unflatten,
    Columns.transpose_of_width (length_arrivedColumns hlength), if_neg hne]
  simp [arrivedRows]

/-- The number of rows stands in front of the sections, and no row has an entry. -/
def Hollow (schema : Schema) (values : List Value) : Prop :=
  schema.leadsWithRows = true ∧ values ≠ [] ∧ ∀ value ∈ values, groupOf value = []

theorem decode_hollow {schema : Schema} {values : List Value} {front sections : Bytes} {groups : List (List Value)}
    (hshape : schema.shape = .object slots) (hpos : 0 < slots.length) (hflatten : schema.autoFlatten = true)
    (hfront : schema.Fronts values front)
    (hsections : Sections slots groups sections) (hgroups : groups = slots.map fun _ => []) (h : schema.Hollow values) :
    schema.decode (front ++ sections) = .error .raggedColumns := by
  obtain ⟨hleads, hne, -⟩ := h
  have hvalues : 0 < values.length := List.length_pos_iff.2 hne
  rw [decode_rows hshape hflatten hfront hsections, rowsTold, if_pos hleads]
  -- the first column is of flags and has none
  obtain ⟨slot, slots, rfl⟩ := List.exists_cons_of_length_pos hpos
  have hflags : slot.kind.isFlags = true := by
    have : allFlags (slot :: slots) = true := by
      simpa [leadsWithRows, hflatten, Schema.slots, hshape, Shape.slots] using hleads
    simp only [allFlags, List.all_cons, Bool.and_eq_true] at this
    exact this.1
  have hempty : slot.canonical [] = [] := by
    obtain ⟨kind, min, max⟩ := slot
    cases kind <;> rfl
  rw [hgroups, List.map_cons, List.zipWith_cons_cons, hempty, cutFlags, if_pos hflags,
    if_pos (show ([] : List Value).length < values.length from hvalues)]
  rfl

/-- Rows come out even unless none of them has an entry and their number is told. -/
theorem decode_flattened {schema : Schema} {values : List Value} {front sections : Bytes}
    (hshape : schema.shape = .object slots) (hpos : 0 < slots.length) (hflatten : schema.autoFlatten = true)
    (h : schema.Writes slots values front sections) :
    schema.Hollow values ∧ schema.decode (front ++ sections) = .error .raggedColumns ∨
      ¬ schema.Hollow values ∧ ∃ decoded, schema.decode (front ++ sections) = .ok decoded := by
  obtain ⟨hfront, groups, hgroups, hsections⟩ := h
  have hflags : schema.leadsWithRows = allFlags slots := by
    simp [leadsWithRows, hflatten, Schema.slots, hshape, Shape.slots]
  have heven : ∀ rows, (∀ group ∈ groups, group.length = rows) → (schema.leadsWithRows = true → values.length = rows) →
      ∃ decoded, schema.decode (front ++ sections) = .ok decoded := by
    intro rows hlength hleads
    refine ⟨_, decode_rows_even hshape hpos hflatten hfront hsections hlength ?_⟩
    unfold rowsTold
    split
    · exact hleads ‹_›
    · rename_i hmixed
      exact rowCount_canonical hlength hsections.length_eq (by simpa [hflags] using hmixed)
  obtain ⟨rfl, hrows⟩ | ⟨⟨value, hvalue, hne⟩, hlength⟩ := groups_flattened hflatten hgroups
  · -- without entries the columns are empty, and come out even with no rows only
    by_cases hhollow : schema.Hollow values
    · exact .inl ⟨hhollow, decode_hollow hshape hpos hflatten hfront hsections rfl hhollow⟩
    · refine .inr ⟨hhollow, heven 0 (by simp) fun hleads => ?_⟩
      by_contra hne
      exact hhollow ⟨hleads, fun hnil => hne (by simp [hnil]), hrows⟩
  · exact .inr ⟨fun hhollow => hne (hhollow.2.2 value hvalue), heven _ hlength fun _ => rfl⟩

/-- A receiver refuses what was sent for hollow rows only, whatever the kinds and the delivery. -/
theorem decode_encode_or {schema : Schema} {tag : String} {values : List Value} {bytes : Bytes} (h : schema.Declared)
    (he : schema.encode tag values = .ok bytes) :
    schema.fits bytes = true ∧
      (schema.Hollow values ∧ schema.decode bytes = .error .raggedColumns ∨
        ¬ schema.Hollow values ∧ ∃ decoded, schema.decode bytes = .ok decoded) := by
  have hwell := h.wellFormed
  have hplain : schema.autoFlatten = false → ¬ schema.Hollow values := by
    intro hflatten hhollow
    simpa [leadsWithRows, hflatten] using hhollow.1
  cases hshape : schema.shape with
  | single slot =>
    have hsends := encode_single hwell hshape he
    have hflatten : schema.autoFlatten = false := by
      by_contra hflat
      simpa [isObject, hshape, Shape.isObject] using hwell.flatten (by simpa using hflat)
    exact ⟨fits_single hshape hsends, .inr ⟨hplain hflatten, _, decode_single hshape hsends⟩⟩
  | object slots =>
    obtain ⟨front, sections, hwrites, rfl⟩ := encode_object hwell hshape he
    refine ⟨fits_object hshape hwrites, ?_⟩
    by_cases hflatten : schema.autoFlatten = true
    · have hpos : 0 < slots.length := by simpa [Schema.slots, hshape, Shape.slots] using hwell.slots_pos
      exact decode_flattened hshape hpos hflatten hwrites
    · have hflatten : schema.autoFlatten = false := by simpa using hflatten
      exact .inr ⟨hplain hflatten, _, decode_object hshape hflatten hwrites⟩

end Schema

/-! ## Refusals -/

namespace Packet

/-- What a sender was allowed to send looks well at the other end, and is malformed there exactly if
it is hollow. -/
theorem decode_encode_iff {packet : Packet} (h : packet.schema.Declared) (hvalidator : packet.validator = none)
    {tag : String} {values : List Value} {bytes : Bytes} (he : packet.schema.encode tag values = .ok bytes) :
    packet.schema.fits bytes = true ∧
      ((∃ decoded, packet.schema.decode bytes = .ok decoded) ↔ ¬ packet.schema.Hollow values) ∧
      ((∃ decoded, packet.decode bytes = .ok decoded) ↔ ¬ packet.schema.Hollow values) ∧
      (packet.schema.Hollow values →
        packet.decode bytes = .error (.malformedPayload packet.tag (.decode .raggedColumns))) := by
  obtain ⟨hfits, hcases⟩ := Schema.decode_encode_or h he
  rw [decode_of_schema hfits hvalidator]
  obtain ⟨hhollow, hdecode⟩ | ⟨hhollow, decoded, hdecode⟩ := hcases
  · rw [hdecode]
    exact ⟨hfits, iff_of_false nofun (not_not.2 hhollow), iff_of_false nofun (not_not.2 hhollow), fun _ => rfl⟩
  · rw [hdecode]
    exact ⟨hfits, iff_of_true ⟨decoded, rfl⟩ hhollow, iff_of_true ⟨decoded, rfl⟩ hhollow, fun h => absurd h hhollow⟩

/-- One row without entries is sent as one row of no columns, and comes back as malformed. -/
theorem decode_encode_iff_flags :
    let packet : Packet :=
      { tag := "flags", schema := { shape := .object [⟨.booleans, 0, 8⟩], autoFlatten := true } }
    packet.schema.Declared ∧ packet.validator = none ∧ packet.schema.encode "flags" [.list []] = .ok [1, 0] ∧
      packet.schema.Hollow [.list []] ∧
      packet.decode [1, 0] = .error (.malformedPayload "flags" (.decode .raggedColumns)) ∧
      ¬ ∃ decoded, packet.schema.decode [1, 0] = .ok decoded := by
  intro packet
  have hobject : Schema.Declared { shape := .object [⟨.booleans, 0, 8⟩] } :=
    @Schema.Declared.object [.booleans] [0] [8] _ (by simp [PayloadKind.Declared]) rfl
  have hdeclared : packet.schema.Declared := @Schema.Declared.autoFlatten _ _ true hobject rfl
  have hencode : packet.schema.encode "flags" [.list []] = .ok [1, 0] := by cbv
  have hhollow : packet.schema.Hollow [.list []] := ⟨rfl, by simp, by simp [Schema.groupOf]⟩
  obtain ⟨-, hschema, -, hmalformed⟩ := decode_encode_iff hdeclared rfl hencode
  exact ⟨hdeclared, rfl, hencode, hhollow, hmalformed hhollow, fun hok => hschema.1 hok hhollow⟩

end Packet

end PacketProtocol
