import PacketProtocol.Proofs.Rows
/-!
# Tables come back row by row

Rows with one entry for each slot are sent column by column and put together again at the other end. As many
rows arrive as were sent, in their order, and each has what arrives of its entries and nothing else: the
flags that fill up the last octet of a column are gone.
-/

namespace PacketProtocol

/-! ## Entries -/

namespace PayloadKind

/-- What arrives for a value that was sent in a kind. A kind without values has no such pair. -/
inductive Arrives : PayloadKind → Value → Value → Prop
  | raw (text : String) : Arrives raw (.string text) (.string text)
  | string (text : String) : Arrives strings (.string text) (.string text)
  | fixedInt {value : Value} {n : Int64} : value.int? = some n → Arrives intsFixed value (.int n)
  | int {value : Value} {n : Int64} : value.int? = some n → Arrives intsDynamic value (.int n)
  | decimal {value : Value} {x : Binary64} : value.number? = some x →
      Arrives decimals value (.number (Fraction.carried x))
  | flag (flag : Bool) : Arrives booleans (.bool flag) (.bool flag)
  /-- The first member that agrees with what was sent. -/
  | member {package : EnumPackage} {value member : Value} {index : Nat} : package.indexOf? value = some index →
      package.members[index]? = some member → Arrives (enum package) value member
  | float {value : Value} {x : Binary64} : value.number? = some x →
      Arrives floats value (.number (Binary32.decode (Binary32.ofBinary64 x).encode).toBinary64)

variable {kind : PayloadKind} {values : List Value} {payload : Bytes}

/-- Values that are written one by one, each of which was found to be of the kind. -/
theorem arrives_of_mapM {ε β : Type} {write : Value → Except ε β} {chunks : List β}
    (hwrite : ∀ value chunk, write value = .ok chunk → kind.Arrives value (kind.arrived value))
    (h : values.mapM write = .ok chunks) : ∀ value ∈ values, kind.Arrives value (kind.arrived value) := by
  intro value hvalue
  obtain ⟨chunk, -, hchunk⟩ := Outcome.exists_of_forall₂ (Outcome.mapM_eq_ok.1 h).flip value hvalue
  exact hwrite value chunk hchunk

theorem arrives_of_encode (h : kind.encode values = .ok payload) :
    ∀ value ∈ values, kind.Arrives value (kind.arrived value) := by
  cases kind with
  | none =>
    cases values with
    | nil => nofun
    | cons value values => cases h
  | raw =>
    simp only [encode] at h
    split at h
    · rename_i text
      intro value hvalue
      obtain rfl := List.mem_singleton.1 hvalue
      exact .raw text
    · cases h
  | strings =>
    obtain ⟨chunks, hchunks, -⟩ := Outcome.bind_eq_ok.1 h
    refine arrives_of_mapM (fun value chunk hvalue => ?_) hchunks
    obtain ⟨text, rfl, -⟩ := encodeText_eq_ok.1 hvalue
    exact .string text
  | intsFixed =>
    obtain ⟨chunks, hchunks, -⟩ := Outcome.bind_eq_ok.1 h
    refine arrives_of_mapM (fun value chunk hvalue => ?_) hchunks
    obtain ⟨n, hn, -⟩ := Outcome.bind_eq_ok.1 hvalue
    rw [arrived, expect_eq_ok.1 hn]
    exact .fixedInt (expect_eq_ok.1 hn)
  | intsDynamic =>
    obtain ⟨ints, hints, -⟩ := Outcome.bind_eq_ok.1 h
    refine arrives_of_mapM (fun value n hn => ?_) hints
    rw [arrived, expect_eq_ok.1 hn]
    exact .int (expect_eq_ok.1 hn)
  | decimals =>
    obtain ⟨chunks, hchunks, -⟩ := Outcome.bind_eq_ok.1 h
    refine arrives_of_mapM (fun value chunk hvalue => ?_) hchunks
    obtain ⟨x, hx, -⟩ := Outcome.bind_eq_ok.1 hvalue
    rw [arrived, expect_eq_ok.1 hx]
    exact .decimal (expect_eq_ok.1 hx)
  | booleans =>
    obtain ⟨flags, hflags, -⟩ := Outcome.bind_eq_ok.1 h
    refine arrives_of_mapM (fun value flag hflag => ?_) hflags
    have hbool := expect_eq_ok.1 hflag
    cases value <;> cases hbool
    exact .flag flag
  | enum package =>
    refine arrives_of_mapM (fun value octet hoctet => ?_) h
    unfold encodeMember at hoctet
    cases hindex : package.indexOf? value with
    | none =>
      rw [hindex] at hoctet
      cases hoctet
    | some index =>
      have hlt : index < package.members.length := (List.findIdx?_eq_some_iff_findIdx_eq.1 hindex).1
      have hmember := List.getElem?_eq_getElem hlt
      rw [arrived, hindex, Option.bind_some, hmember]
      exact .member hindex hmember
  | floats =>
    obtain ⟨chunks, hchunks, -⟩ := Outcome.bind_eq_ok.1 h
    refine arrives_of_mapM (fun value chunk hvalue => ?_) hchunks
    obtain ⟨x, hx, -⟩ := Outcome.bind_eq_ok.1 hvalue
    rw [arrived, expect_eq_ok.1 hx]
    exact .float (expect_eq_ok.1 hx)

end PayloadKind

/-! ## Rows of columns -/

namespace Columns

theorem filterMap_getElem?_range (row : List Value) : (List.range row.length).filterMap (row[·]?) = row := by
  induction row with
  | nil => rfl
  | cons value row ih =>
    rw [List.length_cons, List.range_succ_eq_map, List.filterMap_cons, List.filterMap_map]
    simpa [Function.comp_def] using ih

/-- Of rows that all have the column, an entry of the column is the entry of its row. -/
theorem getElem?_column {rows : List (List Value)} {column : Nat} (h : ∀ row ∈ rows, column < row.length)
    (index : Nat) : (rows.filterMap (·[column]?))[index]? = rows[index]?.bind (·[column]?) := by
  induction rows generalizing index with
  | nil => rfl
  | cons row rows ih =>
    have hrow := h row (by simp)
    rw [List.filterMap_cons, List.getElem?_eq_getElem hrow]
    cases index with
    | zero => simp [List.getElem?_eq_getElem hrow]
    | succ index => simpa using ih (fun r hr => h r (by simp [hr])) index

/-- Across the columns of a table stand its rows. -/
theorem filterMap_columns {rows : List (List Value)} {row : List Value} {width index : Nat}
    (h : ∀ row ∈ rows, row.length = width) (hrow : rows[index]? = some row) :
    ((List.range width).map fun column => rows.filterMap (·[column]?)).filterMap (·[index]?) = row := by
  have hwidth : row.length = width := h row (List.mem_of_getElem? hrow)
  have hentry : ∀ column ∈ List.range width, (rows.filterMap (·[column]?))[index]? = row[column]? := by
    intro column hcolumn
    have hlt : ∀ row ∈ rows, column < row.length := fun r hr => h r hr ▸ List.mem_range.1 hcolumn
    rw [getElem?_column hlt, hrow, Option.bind_some]
  rw [List.filterMap_map]
  calc (List.range width).filterMap ((·[index]?) ∘ fun column => rows.filterMap (·[column]?))
    _ = (List.range width).filterMap (row[·]?) := List.filterMap_congr hentry
    _ = row := by rw [← hwidth, filterMap_getElem?_range]

end Columns

namespace Schema

/-- A row as it arrives: for each slot what arrives of the row's entry, and nothing else. -/
inductive RowArrives : List Slot → List Value → List Value → Prop
  | nil : RowArrives [] [] []
  | cons {slot : Slot} {slots : List Slot} {entry arrived : Value} {entries row : List Value} :
      slot.kind.Arrives entry arrived → RowArrives slots entries row →
        RowArrives (slot :: slots) (entry :: entries) (arrived :: row)

variable {slots : List Slot} {groups : List (List Value)} {bytes : Bytes} {index : Nat}

/-- Entries of one index in all groups arrive as the entries of that index in the columns. -/
theorem Sections.rowArrives (h : Sections slots groups bytes) (hindex : ∀ group ∈ groups, index < group.length) :
    RowArrives slots (groups.filterMap (·[index]?)) ((arrivedColumns slots groups).filterMap (·[index]?)) := by
  induction h with
  | nil => exact .nil
  | @cons slot slots values groups payload bytes hsends _ _ ih =>
    have hlt : index < values.length := hindex values (by simp)
    have hentry := PayloadKind.arrives_of_encode hsends.encode values[index] (List.getElem_mem hlt)
    have ih := ih fun group hgroup => hindex group (by simp [hgroup])
    rw [arrivedColumns, List.zipWith_cons_cons, List.filterMap_cons, List.filterMap_cons, List.getElem?_map,
      List.getElem?_eq_getElem hlt]
    exact .cons hentry ih

/-- Of rows with one entry for each slot, every group has one entry of each row, and across the groups stand the
rows. -/
theorem groups_of_rows {schema : Schema} {values : List Value} (hflatten : schema.autoFlatten = true)
    (hpos : 0 < slots.length) (hwidth : ∀ value ∈ values, (groupOf value).length = slots.length)
    (h : schema.groups slots values = .ok groups) :
    (∀ group ∈ groups, group.length = values.length) ∧
      ∀ (index : Nat) (value : Value), values[index]? = some value →
        groups.filterMap (·[index]?) = groupOf value := by
  have hrows : ∀ row ∈ values.map groupOf, row.length = slots.length := by simpa using hwidth
  rw [Schema.groups, if_pos hflatten, Columns.flatten, Columns.transpose_of_width hrows] at h
  obtain ⟨_, ⟨⟩, h⟩ := Outcome.bind_eq_ok.1 h
  obtain rfl := Outcome.pure_eq_ok.1 h
  cases values with
  | nil => simp
  | cons first rest =>
    have hcolumns : (List.range slots.length).map (fun column =>
        ((first :: rest).map groupOf).filterMap (·[column]?)) ≠ [] := by
      simpa using List.length_pos_iff.1 hpos
    have hsome : (first :: rest).map groupOf ≠ [] := List.cons_ne_nil _ _
    rw [if_neg hsome, if_neg (by rwa [List.isEmpty_iff])]
    refine ⟨fun group hgroup => ?_, fun index value hvalue => ?_⟩
    · obtain ⟨column, hcolumn, rfl⟩ := List.mem_map.1 hgroup
      have hlt : ∀ row ∈ (first :: rest).map groupOf, column < row.length := fun row hrow =>
        hrows row hrow ▸ List.mem_range.1 hcolumn
      rw [Columns.length_column hlt, List.length_map]
    · refine Columns.filterMap_columns hrows ?_
      rw [List.getElem?_map, hvalue, Option.map_some]

/-! ## Round trip -/

/-- A receiver gets as many rows as were sent, in their order, and of each row what arrives of its entries. -/
theorem decode_encode_rows {schema : Schema} {tag : String} {values : List Value} {bytes : Bytes} (h : schema.Declared)
    (hshape : schema.shape = .object slots) (hflatten : schema.autoFlatten = true)
    (hwidth : ∀ value ∈ values, (groupOf value).length = slots.length)
    (he : schema.encode tag values = .ok bytes) :
    ∃ rows, schema.decode bytes = .ok (rows.map .list) ∧
      List.Forall₂ (fun value row => RowArrives slots (groupOf value) row) values rows := by
  have hwell := h.wellFormed
  have hpos : 0 < slots.length := by simpa [Schema.slots, hshape, Shape.slots] using hwell.slots_pos
  obtain ⟨front, sections, ⟨hfront, groups, hgroups, hsections⟩, rfl⟩ := encode_object hwell hshape he
  obtain ⟨hlength, hrow⟩ := groups_of_rows hflatten hpos hwidth hgroups
  -- the number of rows is told, or is that of any column that is not of flags
  have htold : schema.rowsTold slots values groups = values.length := by
    unfold rowsTold
    split
    · rfl
    · rename_i hleads
      refine rowCount_canonical hlength hsections.length_eq ?_
      simpa [leadsWithRows, hflatten, Schema.slots, hshape, Shape.slots] using hleads
  have hdecode := decode_rows_even hshape hpos hflatten hfront hsections hlength htold
  refine ⟨(List.range values.length).map fun index => (arrivedColumns slots groups).filterMap (·[index]?), ?_, ?_⟩
  · rw [hdecode, arrivedRows, List.map_map]
    rfl
  · refine List.forall₂_iff_get.2 ⟨by simp, fun index hvalue _ => ?_⟩
    have hlt : ∀ group ∈ groups, index < group.length := fun group hgroup => hlength group hgroup ▸ hvalue
    have harrives := hsections.rowArrives hlt
    rw [hrow index _ (List.getElem?_eq_getElem hvalue)] at harrives
    simpa using harrives

namespace Table

def package : EnumPackage := ⟨"mood", [.null, .int 3, .string "calm"]⟩

def columns : List Slot := [⟨.intsDynamic, 0, 9⟩, ⟨.booleans, 0, 9⟩, ⟨.enum package, 0, 9⟩]

def schema : Schema := { shape := .object columns, autoFlatten := true }

theorem schema_declared : schema.Declared := by
  have hkinds : ∀ kind ∈ [PayloadKind.intsDynamic, .booleans, .enum package], kind.Declared := by
    simp only [List.mem_cons, List.not_mem_nil, or_false, forall_eq_or_imp, forall_eq]
    exact ⟨trivial, trivial, "mood", package.members, rfl⟩
  have hobject : Schema.Declared { shape := .object columns } :=
    @Declared.object _ [0, 0, 0] [9, 9, 9] _ hkinds rfl
  exact @Declared.autoFlatten _ _ true hobject rfl

/-- Three rows, so that five flags fill up the octet; two of the numbers are doubles. -/
def values : List Value :=
  [.list [.int (-1), .bool true, .string "calm"], .list [.number ⟨0x4008000000000000⟩, .bool false, .null],
    .list [.int 300, .bool true, .number ⟨0x4008000000000000⟩]]

def payload : Bytes := [7, 2, 0, 129, 0, 3, 2, 44, 1, 160, 3, 2, 0, 1]

def rows : List (List Value) :=
  [[.int (-1), .bool true, .string "calm"], [.int 3, .bool false, .null], [.int 300, .bool true, .int 3]]

end Table

theorem decode_encode_rows_table :
    Table.schema.Declared ∧ Table.schema.shape = .object Table.columns ∧ Table.schema.autoFlatten = true ∧
      (∀ value ∈ Table.values, (groupOf value).length = Table.columns.length) ∧
      Table.schema.encode "table" Table.values = .ok Table.payload ∧
      Table.schema.decode Table.payload = .ok (Table.rows.map .list) ∧
      List.Forall₂ (fun value row => RowArrives Table.columns (groupOf value) row) Table.values Table.rows := by
  have hwidth : ∀ value ∈ Table.values, (groupOf value).length = Table.columns.length := by
    simp [Table.values, Table.columns, groupOf]
  have hencode : Table.schema.encode "table" Table.values = .ok Table.payload := by cbv
  have htable : Table.schema.decode Table.payload = .ok (Table.rows.map .list) := by cbv
  obtain ⟨rows, hdecode, hrows⟩ := decode_encode_rows Table.schema_declared rfl rfl hwidth hencode
  obtain rfl : rows = Table.rows :=
    List.map_injective_iff.2 (fun _ _ => Value.list.inj) (Except.ok.inj (hdecode.symm.trans htable))
  exact ⟨Table.schema_declared, rfl, rfl, hwidth, hencode, htable, hrows⟩

end Schema

end PacketProtocol
