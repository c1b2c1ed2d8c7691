import PacketProtocol.Payload.Decode
import PacketProtocol.Proofs.Declared
import PacketProtocol.Proofs.Packing
import PacketProtocol.Proofs.Reading
/-!
# Payloads are read back

Whatever a kind encodes, it decodes: the octets fit as many counted units as were sent, and what is
read are the values as they arrive. Integers arrive as integers, a value of an enum as the member it
agrees with, packed flags with those the last octet was filled up with.
-/

namespace PacketProtocol

/-! ## Texts -/

namespace Utf8

theorem utf8Encode_size_le (chars : List Char) : chars.utf8Encode.size ≤ 4 * chars.length := by
  induction chars with
  | nil => simp
  | cons c chars ih =>
    have hc := c.utf8Size_le_four
    rw [List.utf8Encode_cons, ByteArray.size_append, List.utf8Encode_singleton]
    simp
    omega

/-- A character takes at most four octets. -/
theorem length_encode_le (text : String) : (encode text).length ≤ 4 * text.length := by
  have h := utf8Encode_size_le text.toList
  rw [String.utf8Encode_toList, String.length_toList] at h
  exact h

theorem length_le_utf8Encode_size (chars : List Char) : chars.length ≤ chars.utf8Encode.size := by
  induction chars with
  | nil => simp
  | cons c chars ih =>
    have hc := c.utf8Size_pos
    rw [List.utf8Encode_cons, ByteArray.size_append, List.utf8Encode_singleton]
    simp
    omega

/-- A character takes at least one octet. -/
theorem length_le_of_decode {bytes : Bytes} {text : String} (h : decode bytes = some text) :
    text.length ≤ bytes.length := by
  have hsize := length_le_utf8Encode_size text.toList
  rw [String.utf8Encode_toList, String.length_toList] at hsize
  unfold decode String.fromUTF8? at h
  split at h
  · cases h
    exact hsize
  · cases h

end Utf8

/-! ## Runs of entries -/

namespace Parser

variable {α : Type}

theorem many_cons {entry : Parser α} {chunk rest : Bytes} {a : α} {as : List α} (hentry : entry.Reads chunk a)
    (hne : chunk ≠ []) (hrest : many entry rest = .ok as) : many entry (chunk ++ rest) = .ok (a :: as) := by
  have hpos := List.length_pos_iff.2 hne
  -- an entry that reads nothing would end the run
  rw [many, if_neg (by simp [hne]), hentry rest]
  simp only
  rw [if_pos (by simp; omega), hrest]

/-- Entries to the end of the input are read one by one. -/
theorem many_flatten {entry : Parser α} {as : List α} {chunks : List Bytes}
    (h : List.Forall₂ (fun a chunk => entry.Reads chunk a ∧ chunk ≠ []) as chunks) :
    many entry chunks.flatten = .ok as := by
  induction h with
  | nil => rw [List.flatten_nil, many]; rfl
  | cons hentry _ ih => exact many_cons hentry.1 hentry.2 ih

end Parser

namespace PayloadKind

theorem pieces_flatten {α : Type} {width : Nat} {chunks : List (List α)} (hwidth : 0 < width)
    (h : ∀ chunk ∈ chunks, chunk.length = width) : pieces width chunks.flatten = chunks := by
  induction chunks with
  | nil => rw [pieces]; simp
  | cons chunk chunks ih =>
    have hchunk := h chunk (by simp)
    have hne : chunk ≠ [] := List.ne_nil_of_length_pos (by omega)
    rw [pieces, if_neg (by simp [hne]; omega), List.flatten_cons, List.take_left' hchunk, List.drop_left' hchunk,
      ih fun c hc => h c (by simp [hc])]

theorem length_flatten {α : Type} {width : Nat} {chunks : List (List α)}
    (h : ∀ chunk ∈ chunks, chunk.length = width) : chunks.flatten.length = width * chunks.length := by
  induction chunks with
  | nil => simp
  | cons chunk chunks ih =>
    rw [List.flatten_cons, List.length_append, h chunk (by simp), ih fun c hc => h c (by simp [hc]),
      List.length_cons, Nat.mul_succ, Nat.add_comm]

end PayloadKind

/-! ## Fractions -/

namespace Fraction

/-- The double that arrives for a finite one. -/
def carried (x : Binary64) : Binary64 :=
  let decimal := kept x
  .ofDecimal (x.isBelowZero ∧ (decimal.whole ≠ 0 ∨ decimal.mirrored ≠ 0))
    (.ofMirrored decimal.whole decimal.mirrored)

theorem encode_eq_ok {x : Binary64} {bytes : Bytes} (h : encode x = .ok bytes) :
    ∃ whole fraction, ZigZag.encode ((if x.isBelowZero then -1 else 1) * ((kept x).whole : Int)) = .ok whole ∧
      ZigZag.encode ((if x.isBelowZero then -1 else 1) * ((kept x).mirrored : Int)) = .ok fraction ∧
      bytes = whole ++ fraction := by
  simp only [encode] at h
  split at h
  · cases h
  split at h
  · cases h
  obtain ⟨whole, hwhole, h⟩ := Outcome.bind_eq_ok.1 h
  obtain ⟨fraction, hfraction, h⟩ := Outcome.bind_eq_ok.1 h
  exact ⟨whole, fraction, hwhole, hfraction, (Outcome.pure_eq_ok.1 h).symm⟩

/-- Two signed varints are read as the decimal of which they are whole part and fraction. -/
theorem parser_reads_parts {whole fraction : Int} {front back : Bytes} (hwhole : ZigZag.encode whole = .ok front)
    (hfraction : ZigZag.encode fraction = .ok back) : parser.Reads (front ++ back)
      (.ofDecimal (whole < 0 ∨ fraction < 0) (.ofMirrored whole.natAbs fraction.natAbs)) :=
  (Parser.signedVarint_reads hwhole).bind ((Parser.signedVarint_reads hfraction).andThen (.pure _))

theorem parser_reads {x : Binary64} {bytes : Bytes} (h : encode x = .ok bytes) : parser.Reads bytes (carried x) := by
  obtain ⟨whole, fraction, hwhole, hfraction, rfl⟩ := encode_eq_ok h
  have hread := parser_reads_parts hwhole hfraction
  have hsign : ∀ m : Nat, ((if x.isBelowZero then -1 else 1) * (m : Int)).natAbs = m := by
    intro m
    split <;> simp
  have hnegative : ∀ m : Nat, (if x.isBelowZero then -1 else 1) * (m : Int) < 0 ↔ x.isBelowZero = true ∧ m ≠ 0 := by
    intro m
    split
    · simp [*]; omega
    · simp [*]
  simp only [hsign, hnegative, ← and_or_left] at hread
  exact hread

end Fraction

/-! ## Values as they arrive -/

namespace PayloadKind

/-- What a receiver has in the place of a value sent in this kind. -/
def arrived (kind : PayloadKind) (value : Value) : Value :=
  match kind with
  | intsFixed | intsDynamic => (Value.int <$> value.int?).getD value
  | decimals => ((fun x => .number (Fraction.carried x)) <$> value.number?).getD value
  | enum package => ((package.indexOf? value).bind (package.members[·]?)).getD value
  | floats =>
    ((fun x => .number (Binary32.decode (Binary32.ofBinary64 x).encode).toBinary64) <$> value.number?).getD value
  | _ => value

/-- Flags a receiver finds behind the `count` that were sent: the last octet is filled up, as far as
the capacity goes. -/
def padding (kind : PayloadKind) (capacity count : Nat) : List Value :=
  match kind with
  | booleans => List.replicate (min (8 * Flags.packedLength count) capacity - count) (.bool false)
  | _ => []

/-- The values a receiver has of those that were sent. -/
def canonical (kind : PayloadKind) (capacity : Nat) (values : List Value) : List Value :=
  values.map kind.arrived ++ kind.padding capacity values.length

theorem expect_eq_ok {α : Type} {kind : PayloadKind} {read : Value → Option α} {value : Value} {a : α} :
    kind.expect read value = .ok a ↔ read value = some a := by
  unfold expect
  cases read value <;> simp

/-- The octets look like a payload of the kind, and these are the values in them. -/
structure Carries (kind : PayloadKind) (bytes : Bytes) (capacity : Nat) (values : List Value) : Prop where
  fits : kind.fits bytes capacity = true
  read : kind.read bytes capacity = .ok values

/-! ## Texts -/

theorem encodeText_eq_ok {value : Value} {chunk : Bytes} :
    encodeText value = .ok chunk ↔ ∃ text, value = .string text ∧ text.utf8ByteSize < Varint.bound ∧
      chunk = Varint.groups text.utf8ByteSize ++ Utf8.encode text := by
  unfold encodeText
  simp only [Outcome.bind_eq_ok, expect_eq_ok, Outcome.pure_eq_ok, Varint.encode_eq_ok]
  constructor
  · rintro ⟨text, htext, _, ⟨hlt, rfl⟩, rfl⟩
    cases value <;> cases htext
    exact ⟨_, rfl, hlt, rfl⟩
  · rintro ⟨text, rfl, hlt, rfl⟩
    exact ⟨text, rfl, _, ⟨hlt, rfl⟩, rfl⟩

theorem fitsTexts_cons {room : Nat} {octets rest : Bytes} (hlt : octets.length < Varint.bound)
    (hrest : fitsTexts room rest = true) :
    fitsTexts (room + 1) (Varint.groups octets.length ++ octets ++ rest) = true := by
  have hdecode := Varint.decode_groups hlt (octets ++ rest)
  rw [← List.append_assoc] at hdecode
  obtain ⟨group, groups, hgroups⟩ := List.exists_cons_of_ne_nil (Varint.groups_ne_nil octets.length)
  simp only [hgroups, List.cons_append] at hdecode ⊢
  simp only [fitsTexts, hdecode]
  simp [hrest]

theorem fitsTexts_flatten {values : List Value} {chunks : List Bytes} {room : Nat}
    (h : List.Forall₂ (fun value chunk => encodeText value = .ok chunk) values chunks) (hroom : values.length ≤ room) :
    fitsTexts room chunks.flatten = true := by
  induction h generalizing room with
  | nil => simp [fitsTexts]
  | cons hvalue _ ih =>
    obtain ⟨text, rfl, hlt, rfl⟩ := encodeText_eq_ok.1 hvalue
    obtain ⟨room, rfl⟩ := Nat.exists_eq_succ_of_ne_zero (Nat.ne_zero_of_lt hroom)
    exact @fitsTexts_cons room (Utf8.encode text) _ hlt (ih (Nat.le_of_succ_le_succ hroom))

theorem none_carries {values : List Value} {bytes : Bytes} {capacity : Nat} (h : none.encode values = .ok bytes) :
    none.Carries bytes capacity (values.map none.arrived) := by
  cases values with
  | nil => cases h; exact ⟨rfl, rfl⟩
  | cons value values => cases h

theorem raw_carries {values : List Value} {bytes : Bytes} {capacity : Nat} (h : raw.encode values = .ok bytes)
    (hcapacity : raw.count values ≤ capacity) : raw.Carries bytes capacity (values.map raw.arrived) := by
  simp only [encode] at h
  split at h
  · rename_i text
    cases h
    have hsize := Utf8.length_encode_le text
    have hcount : text.length ≤ capacity := by simpa [count, Value.string?] using hcapacity
    refine ⟨?_, ?_⟩
    · -- receivers allow four octets for each character
      simp only [fits, decide_eq_true_eq]
      omega
    · simp only [read, Utf8.decode_encode]
      rfl
  · cases h

theorem strings_carries {values : List Value} {bytes : Bytes} {capacity : Nat} (h : strings.encode values = .ok bytes)
    (hcapacity : values.length ≤ capacity) : strings.Carries bytes capacity (values.map strings.arrived) := by
  obtain ⟨chunks, hchunks, rfl⟩ := Outcome.flatten_mapM_eq_ok.1 h
  refine ⟨fitsTexts_flatten hchunks hcapacity, Parser.many_flatten (List.forall₂_map_left_iff.2 ?_)⟩
  refine hchunks.imp fun value chunk hvalue => ?_
  obtain ⟨text, rfl, hlt, rfl⟩ := encodeText_eq_ok.1 hvalue
  exact ⟨(Parser.text_reads hlt).map _, by simp [Varint.groups_ne_nil]⟩

/-! ## Integers -/

theorem length_of_encode {n : Int64} {width : Nat} {units : Bytes} (h : Sector.encode n width = .ok units) :
    units.length = width := by
  obtain ⟨-, rfl⟩ := Sector.encode_eq_ok.1 h
  exact Sector.length_units ..

theorem decodeInt_of_encode {n : Int64} {width : Nat} {units : Bytes} (h : Sector.encode n width = .ok units) :
    decodeInt units = .ok (.int n) := by
  rw [decodeInt, Sector.decode_encode h]
  rfl

/-- Pieces of equal width are read one by one. -/
theorem pieces_forall₂ {α β : Type} {width : Nat} {r : α → List β → Prop} {as : List α} {chunks : List (List β)}
    (hwidth : 0 < width) (h : List.Forall₂ (fun a chunk => chunk.length = width ∧ r a chunk) as chunks) :
    chunks.flatten.length = width * as.length ∧ List.Forall₂ r as (pieces width chunks.flatten) := by
  have hlength : ∀ chunk ∈ chunks, chunk.length = width := by
    intro chunk hchunk
    obtain ⟨_, -, hwidth, -⟩ := Outcome.exists_of_forall₂ h chunk hchunk
    exact hwidth
  rw [length_flatten hlength, pieces_flatten hwidth hlength, h.length_eq]
  exact ⟨rfl, h.imp fun _ _ h => h.2⟩

theorem mapM_pieces {width : Nat} {decode : Bytes → Except DecodeFault Value} {values : List Value} {bytes : Bytes}
    (h : List.Forall₂ (fun value chunk => decode chunk = .ok value) values (pieces width bytes)) :
    (pieces width bytes).mapM decode = .ok values :=
  Outcome.mapM_eq_ok.2 h.flip

theorem encodeFixedInt_eq_ok {value : Value} {chunk : Bytes} (h : encodeFixedInt value = .ok chunk) :
    chunk.length = 2 ∧ decodeInt chunk = .ok (intsFixed.arrived value) := by
  obtain ⟨n, hn, h⟩ := Outcome.bind_eq_ok.1 h
  have hencode : Sector.encode n 2 = .ok chunk := by
    split at h
    · cases h
    · exact h
  refine ⟨length_of_encode hencode, ?_⟩
  rw [decodeInt_of_encode hencode, arrived, expect_eq_ok.1 hn]
  rfl

theorem intsFixed_carries {values : List Value} {bytes : Bytes} {capacity : Nat}
    (h : intsFixed.encode values = .ok bytes) (hcapacity : values.length ≤ capacity) :
    intsFixed.Carries bytes capacity (values.map intsFixed.arrived) := by
  obtain ⟨chunks, hchunks, rfl⟩ := Outcome.flatten_mapM_eq_ok.1 h
  obtain ⟨hlength, hpieces⟩ := pieces_forall₂ (by decide) (hchunks.imp fun _ _ => encodeFixedInt_eq_ok)
  refine ⟨?_, mapM_pieces (List.forall₂_map_left_iff.2 hpieces)⟩
  simp only [fits, hlength]
  simp; omega

theorem encodeInts_eq_ok {values : List Value} {bytes : Bytes} (h : encodeInts values = .ok bytes) :
    (values = [] ∧ bytes = []) ∨ ∃ width chunks, 0 < width ∧ width ≤ Sector.maxUnits ∧ 0 < values.length ∧
      bytes = UInt8.ofNat width :: chunks.flatten ∧
      List.Forall₂ (fun value chunk => chunk.length = width ∧ decodeInt chunk = .ok (intsDynamic.arrived value))
        values chunks := by
  obtain ⟨ints, hints, h⟩ := Outcome.bind_eq_ok.1 h
  have hvalues := Outcome.mapM_eq_ok.1 hints
  cases hmax : (ints.map Sector.size).max? with
  | none =>
    rw [hmax] at h
    obtain rfl : ints = [] := by simpa using hmax
    cases hvalues
    exact .inl ⟨rfl, (Outcome.pure_eq_ok.1 h).symm⟩
  | some width =>
    rw [hmax] at h
    obtain ⟨chunks, hchunks, h⟩ := Outcome.bind_eq_ok.1 h
    obtain rfl := Outcome.pure_eq_ok.1 h
    have hunits := Outcome.mapM_eq_ok.1 hchunks
    -- the widest integer is one of those sent, and it has its units
    obtain ⟨n, hn, rfl⟩ : ∃ n ∈ ints, Sector.size n = width := by
      simpa using List.max?_mem hmax
    obtain ⟨chunk, -, hchunk⟩ := Outcome.exists_of_forall₂ hunits.flip n hn
    obtain ⟨⟨-, hwidth⟩, -⟩ := Sector.encode_eq_ok.1 hchunk
    have hpos : 0 < values.length := by
      rw [hvalues.length_eq]
      exact List.length_pos_of_mem hn
    refine .inr ⟨Sector.size n, chunks, Sector.digitCount_pos _, hwidth, hpos, rfl, ?_⟩
    refine (Outcome.forall₂_comp hvalues hunits).imp ?_
    rintro value chunk ⟨m, hm, hchunk⟩
    refine ⟨length_of_encode hchunk, ?_⟩
    rw [decodeInt_of_encode hchunk, arrived, expect_eq_ok.1 hm]
    rfl

theorem intsDynamic_carries {values : List Value} {bytes : Bytes} {capacity : Nat}
    (h : intsDynamic.encode values = .ok bytes) (hcapacity : values.length ≤ capacity) :
    intsDynamic.Carries bytes capacity (values.map intsDynamic.arrived) := by
  obtain ⟨rfl, rfl⟩ | ⟨width, chunks, hwidth, hunits, hpos, rfl, hchunks⟩ := encodeInts_eq_ok h
  · exact ⟨rfl, rfl⟩
  have hn : (UInt8.ofNat width).toNat = width :=
    UInt8.toNat_ofNat_of_lt' (Nat.lt_of_le_of_lt hunits (by decide))
  obtain ⟨hlength, hpieces⟩ := pieces_forall₂ hwidth hchunks
  refine ⟨?_, ?_⟩
  · have hne : chunks.flatten ≠ [] := by
      refine List.ne_nil_of_length_pos ?_
      rw [hlength]
      exact Nat.mul_pos hwidth hpos
    simp only [fits, hn, hlength]
    simp [hunits, hne, Nat.mul_div_cancel_left _ hwidth, hcapacity]
    omega
  · simp only [read, hn]
    exact mapM_pieces (List.forall₂_map_left_iff.2 hpieces)

/-! ## Numbers with fractions -/

theorem fitsPairs_cons {room n m : Nat} {rest : Bytes} (hn : n < Varint.bound) (hm : m < Varint.bound)
    (hrest : fitsPairs room rest = true) :
    fitsPairs (room + 1) (Varint.groups n ++ Varint.groups m ++ rest) = true := by
  have hfirst := Varint.decode_groups hn (Varint.groups m ++ rest)
  have hsecond := Varint.decode_groups hm rest
  rw [← List.append_assoc] at hfirst
  obtain ⟨group, groups, hgroups⟩ := List.exists_cons_of_ne_nil (Varint.groups_ne_nil n)
  simp only [hgroups, List.cons_append] at hfirst ⊢
  simp only [fitsPairs, hfirst, hsecond, hrest]

theorem fitsPairs_flatten {values : List Value} {chunks : List Bytes} {room : Nat}
    (h : List.Forall₂ (fun _ chunk => ∃ x, Fraction.encode x = .ok chunk) values chunks)
    (hroom : values.length ≤ room) :
    fitsPairs room chunks.flatten = true := by
  induction h generalizing room with
  | nil => simp [fitsPairs]
  | cons hvalue _ ih =>
    obtain ⟨x, hx⟩ := hvalue
    obtain ⟨whole, fraction, hwhole, hfraction, rfl⟩ := Fraction.encode_eq_ok hx
    obtain ⟨hw, rfl⟩ := ZigZag.encode_eq_ok.1 hwhole
    obtain ⟨hf, rfl⟩ := ZigZag.encode_eq_ok.1 hfraction
    obtain ⟨room, rfl⟩ := Nat.exists_eq_succ_of_ne_zero (Nat.ne_zero_of_lt hroom)
    exact fitsPairs_cons (ZigZag.fold_lt_bound hw) (ZigZag.fold_lt_bound hf) (ih (Nat.le_of_succ_le_succ hroom))

theorem decimals_carries {values : List Value} {bytes : Bytes} {capacity : Nat}
    (h : decimals.encode values = .ok bytes) (hcapacity : values.length ≤ capacity) :
    decimals.Carries bytes capacity (values.map decimals.arrived) := by
  obtain ⟨chunks, hchunks, rfl⟩ := Outcome.flatten_mapM_eq_ok.1 h
  have hall : List.Forall₂ (fun value chunk => ∃ x, value.number? = some x ∧ Fraction.encode x = .ok chunk)
      values chunks := by
    refine hchunks.imp fun value chunk hvalue => ?_
    obtain ⟨x, hx, hvalue⟩ := Outcome.bind_eq_ok.1 hvalue
    exact ⟨x, expect_eq_ok.1 hx, hvalue⟩
  refine ⟨fitsPairs_flatten (hall.imp fun _ _ ⟨x, _, hx⟩ => ⟨x, hx⟩) hcapacity,
    Parser.many_flatten (List.forall₂_map_left_iff.2 (hall.imp ?_))⟩
  rintro value chunk ⟨x, hx, hchunk⟩
  have hread := (Fraction.parser_reads hchunk).map Value.number
  obtain ⟨whole, fraction, hwhole, -, rfl⟩ := Fraction.encode_eq_ok hchunk
  obtain ⟨-, rfl⟩ := ZigZag.encode_eq_ok.1 hwhole
  rw [arrived, hx]
  exact ⟨hread, by simp [Varint.groups_ne_nil]⟩

theorem floats_carries {values : List Value} {bytes : Bytes} {capacity : Nat}
    (h : floats.encode values = .ok bytes) (hcapacity : values.length ≤ capacity) :
    floats.Carries bytes capacity (values.map floats.arrived) := by
  obtain ⟨chunks, hchunks, rfl⟩ := Outcome.flatten_mapM_eq_ok.1 h
  have hall : List.Forall₂ (fun value chunk => chunk.length = 4 ∧
      floats.arrived value = .number (Binary32.decode chunk).toBinary64) values chunks := by
    refine hchunks.imp fun value chunk hvalue => ?_
    obtain ⟨x, hx, hvalue⟩ := Outcome.bind_eq_ok.1 hvalue
    obtain rfl := Outcome.pure_eq_ok.1 hvalue
    refine ⟨by simp [Binary32.encode], ?_⟩
    rw [arrived, expect_eq_ok.1 hx]
    rfl
  obtain ⟨hlength, hpieces⟩ := pieces_forall₂ (by decide) hall
  refine ⟨?_, ?_⟩
  · simp only [fits, hlength]
    simp; omega
  · have heq := List.forall₂_map_left_iff.2 (List.forall₂_map_right_iff.2 hpieces)
    rw [List.forall₂_eq_eq_eq] at heq
    rw [heq]
    rfl

/-! ## Flags and members -/

theorem booleans_carries {values : List Value} {bytes : Bytes} {capacity : Nat}
    (h : booleans.encode values = .ok bytes) (hcapacity : values.length ≤ capacity) :
    booleans.Carries bytes capacity (values ++ booleans.padding capacity values.length) := by
  obtain ⟨flags, hflags, h⟩ := Outcome.bind_eq_ok.1 h
  obtain rfl := Outcome.pure_eq_ok.1 h
  have hvalues : values = flags.map .bool := by
    have hall : List.Forall₂ (fun value flag => value = Value.bool flag) values flags := by
      refine (Outcome.mapM_eq_ok.1 hflags).imp fun value flag hflag => ?_
      have := expect_eq_ok.1 hflag
      cases value <;> cases this
      rfl
    rwa [← List.forall₂_map_right_iff, List.forall₂_eq_eq_eq] at hall
  subst hvalues
  rw [List.length_map] at hcapacity
  refine ⟨?_, ?_⟩
  · simp only [fits, Flags.length_pack, Flags.packedLength]
    simp; omega
  · -- both ends cut the flags that fill up the last octet at the capacity
    have hcount : min (capacity - flags.length) (8 * Flags.packedLength flags.length - flags.length) =
        min (8 * Flags.packedLength flags.length) capacity - flags.length := by omega
    simp only [read, Flags.unpack_pack, padding, List.take_append, List.take_of_length_le hcapacity,
      List.take_replicate, List.map_append, List.map_replicate, List.length_map, hcount]

theorem encodeMember_eq_ok {package : EnumPackage} {value : Value} {octet : UInt8} (hp : package.WellFormed)
    (h : encodeMember package value = .ok octet) :
    octet.toNat < package.members.length ∧ decodeMember package octet = .ok ((enum package).arrived value) := by
  unfold encodeMember at h
  cases hindex : package.indexOf? value with
  | none => rw [hindex] at h; cases h
  | some index =>
    rw [hindex] at h
    cases h
    have hlt : index < package.members.length := (List.findIdx?_eq_some_iff_findIdx_eq.1 hindex).1
    have hn : (UInt8.ofNat index).toNat = index :=
      UInt8.toNat_ofNat_of_lt' (Nat.lt_trans (Nat.lt_of_lt_of_le hlt hp.members_le) (by decide))
    simp only [decodeMember, arrived, hindex, hn, Option.bind_some, List.getElem?_eq_getElem hlt]
    exact ⟨hlt, rfl⟩

theorem enum_carries {package : EnumPackage} {values : List Value} {bytes : Bytes} {capacity : Nat}
    (hp : package.WellFormed) (h : (enum package).encode values = .ok bytes) (hcapacity : values.length ≤ capacity) :
    (enum package).Carries bytes capacity (values.map (enum package).arrived) := by
  have hall := (Outcome.mapM_eq_ok.1 h).imp fun _ _ => encodeMember_eq_ok hp
  refine ⟨?_, Outcome.mapM_eq_ok.2 (List.forall₂_map_right_iff.2 (hall.flip.imp fun _ _ h => h.2))⟩
  simp only [fits, Bool.and_eq_true, decide_eq_true_eq, List.all_eq_true]
  refine ⟨by rw [← hall.length_eq]; exact hcapacity, fun octet hoctet => ?_⟩
  obtain ⟨_, -, hlt, -⟩ := Outcome.exists_of_forall₂ hall octet hoctet
  exact hlt

/-! ## Every kind -/

/-- Units are counted alike at both ends, but for the flags that fill up the last octet. -/
theorem count_le_canonical {kind : PayloadKind} {values : List Value} {bytes : Bytes} {capacity : Nat}
    (h : kind.encode values = .ok bytes) (hcapacity : kind.count values ≤ capacity) :
    kind.count values ≤ kind.count (kind.canonical capacity values) ∧
      kind.count (kind.canonical capacity values) ≤ capacity := by
  cases kind with
  | raw =>
    have hsame : values.map raw.arrived = values := List.map_id'' (fun _ => rfl) values
    have hcanonical : raw.canonical capacity values = values := by
      rw [canonical, hsame]
      exact List.append_nil values
    rw [hcanonical]
    exact ⟨Nat.le_refl _, hcapacity⟩
  | booleans =>
    simp only [count] at hcapacity
    simp only [count, canonical, padding, List.length_append, List.length_map, List.length_replicate]
    omega
  | _ => simpa [count, canonical, padding] using hcapacity

theorem carries {kind : PayloadKind} {values : List Value} {bytes : Bytes} {capacity : Nat} (hk : kind.Declared)
    (h : kind.encode values = .ok bytes) (hcapacity : kind.count values ≤ capacity) :
    kind.Carries bytes capacity (kind.canonical capacity values) := by
  cases kind with
  | none => simpa [canonical, padding] using none_carries h
  | raw => simpa [canonical, padding] using raw_carries h hcapacity
  | strings => simpa [canonical, padding] using strings_carries h hcapacity
  | intsFixed => simpa [canonical, padding] using intsFixed_carries h hcapacity
  | intsDynamic => simpa [canonical, padding] using intsDynamic_carries h hcapacity
  | decimals => simpa [canonical, padding] using decimals_carries h hcapacity
  | booleans =>
    have hsame : values.map booleans.arrived = values := List.map_id'' (fun _ => rfl) values
    rw [canonical, hsame]
    exact booleans_carries h hcapacity
  | enum package => simpa [canonical, padding] using enum_carries hk.wellFormed h hcapacity
  | floats => simpa [canonical, padding] using floats_carries h hcapacity

/-- A kind decodes the octets that fit, if they can be read and do not count too much. -/
theorem decode_eq_ok {kind : PayloadKind} {bytes : Bytes} {capacity : Nat} {values : List Value} :
    kind.decode bytes capacity = .ok values ↔
      kind.fits bytes capacity = true ∧ kind.read bytes capacity = .ok values ∧ kind.count values ≤ capacity := by
  rw [decode]
  by_cases hfits : kind.fits bytes capacity = true
  · rw [if_neg (by simpa using hfits)]
    simp only [hfits, true_and, Outcome.bind_eq_ok]
    constructor
    · rintro ⟨read, hread, h⟩
      split at h
      · cases h
      · rename_i hcount
        obtain rfl := Outcome.pure_eq_ok.1 h
        exact ⟨hread, Nat.le_of_not_lt hcount⟩
    · rintro ⟨hread, hcount⟩
      refine ⟨values, hread, ?_⟩
      rw [if_neg (Nat.not_lt.2 hcount)]
      rfl
  · rw [if_pos (by simpa using hfits)]
    constructor
    · intro h
      cases h
    · intro h
      exact absurd h.1 hfits

/-- What a kind encodes it decodes, to the values as they arrive. -/
theorem decode_encode {kind : PayloadKind} {values : List Value} {bytes : Bytes} {capacity : Nat} (hk : kind.Declared)
    (h : kind.encode values = .ok bytes) (hcapacity : kind.count values ≤ capacity) :
    kind.decode bytes capacity = .ok (kind.canonical capacity values) := by
  have hcarries := carries hk h hcapacity
  exact decode_eq_ok.2 ⟨hcarries.fits, hcarries.read, (count_le_canonical h hcapacity).2⟩

end PayloadKind

end PacketProtocol
