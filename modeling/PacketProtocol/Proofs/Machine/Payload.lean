import PacketProtocol.Proofs.Machine.Reader
import PacketProtocol.Proofs.Payload
/-!
# Payloads on the machine

The look at the shape of a payload, and the reading of its values, in operations that can trap. They
do not: widths are looked at before anything is cut by them, counters are bounded by the octets, and
shifts stay below the width of their words.
-/

namespace PacketProtocol.Machine

/-! ## Sectors -/

def sectorDigit (negative : Bool) (unit : UInt8) : Checked DecodeFault Nat :=
  if unit = 0 then return 0
  else if !negative then return unit.toNat
  else if Sector.base < unit.toNat then liftM (sub unit.toNat Sector.base)
  else throw .sectorMixedSign

/-- A digit behind a magnitude, if the result is a word. -/
def appendDigit (magnitude digit : Nat) : Option Nat :=
  (mul 64 magnitude Sector.base).bind fun product => add 64 product digit

/-- Puts the digits of units behind a magnitude. One that is no word is a fault, not a trap. -/
def magnitudeFrom (negative : Bool) : Bytes → Nat → Checked DecodeFault Nat
  | [], magnitude => return magnitude
  | unit :: units, magnitude => do
    let digit ← sectorDigit negative unit
    match appendDigit magnitude digit with
    | some magnitude => magnitudeFrom negative units magnitude
    | none => throw .sectorOverflow

/-- A word under a sign. -/
def signed (negative : Bool) (magnitude : Nat) : Except DecodeFault Int64 :=
  if negative then
    if magnitude ≤ 2 ^ 63 then .ok (Int64.ofInt (-magnitude)) else .error .sectorOverflow
  else
    if magnitude < 2 ^ 63 then .ok (Int64.ofInt magnitude) else .error .sectorOverflow

def decodeSectors (units : Bytes) : Checked DecodeFault Int64 :=
  if units.isEmpty || Sector.maxUnits < units.length then throw .unexpectedEnd
  else do
    let negative := units.any fun unit => Sector.base ≤ unit.toNat
    safe (signed negative (← magnitudeFrom negative units 0))

theorem sectorDigit_eq (negative : Bool) (unit : UInt8) :
    sectorDigit negative unit = safe (Sector.digit negative unit) := by
  unfold sectorDigit Sector.digit
  split
  · rfl
  · split
    · rfl
    · split
      · rename_i hbase
        rw [sub_of_le (Nat.le_of_lt hbase)]
        rfl
      · rfl

theorem appendDigit_eq (magnitude digit : Nat) :
    appendDigit magnitude digit =
      if Sector.base * magnitude + digit < 2 ^ 64 then some (Sector.base * magnitude + digit) else none := by
  rw [appendDigit, mul, Nat.mul_comm magnitude]
  by_cases hmul : Sector.base * magnitude < 2 ^ 64
  · rw [if_pos hmul]
    rfl
  · rw [if_neg hmul, if_neg (by omega)]
    rfl

/-- A magnitude that is a word. -/
def wordOf (magnitude : Nat) : Except DecodeFault Nat :=
  if magnitude < 2 ^ 64 then .ok magnitude else .error .sectorOverflow

/-- Only the last of ten digits can make a magnitude too large for a word. -/
theorem magnitudeFrom_eq {negative : Bool} {units : Bytes} {taken magnitude : Nat}
    (hunits : negative = false → ∀ unit ∈ units, unit.toNat < Sector.base)
    (hroom : taken + units.length ≤ Sector.maxUnits) (hmagnitude : magnitude < Sector.base ^ taken)
    (hword : magnitude < 2 ^ 64) :
    magnitudeFrom negative units magnitude = safe (units.mapM (Sector.digit negative) >>= fun digits =>
      wordOf (digits.foldl (fun magnitude digit => Sector.base * magnitude + digit) magnitude)) := by
  induction units generalizing taken magnitude with
  | nil =>
    show _ = safe (wordOf magnitude)
    rw [wordOf, if_pos hword]
    rfl
  | cons unit units ih =>
    rw [magnitudeFrom, sectorDigit_eq, List.mapM_cons, bind_assoc]
    refine safe_bind fun digit hdigit => ?_
    have hlt := Sector.digit_lt (fun hsign => hunits hsign unit (by simp)) hdigit
    rw [appendDigit_eq]
    by_cases hfits : Sector.base * magnitude + digit < 2 ^ 64
    · have hnext : Sector.base * magnitude + digit < Sector.base ^ (taken + 1) := by
        rw [Nat.pow_succ]
        simp only [Sector.base] at *
        omega
      have htail := @ih (taken + 1) _ (fun hsign other hother => hunits hsign other (by simp [hother]))
        (by rw [List.length_cons] at hroom; omega) hnext hfits
      rw [if_pos hfits]
      simp only [htail, bind_assoc]
      rfl
    · -- nine digits always fit, so a sum that does not is the tenth's
      have hlast : units = [] := by
        by_contra hne
        have hpos := List.length_pos_iff.2 hne
        have hpow : Sector.base ^ taken ≤ Sector.base ^ 8 := Nat.pow_le_pow_right (by decide) (by
          rw [List.length_cons] at hroom
          simp only [Sector.maxUnits] at hroom
          omega)
        simp only [Sector.base] at *
        omega
      subst hlast
      show _ = safe (wordOf (Sector.base * magnitude + digit))
      rw [if_neg hfits, wordOf, if_neg hfits]
      rfl

/-- A magnitude that is no word is too large under either sign. -/
theorem wordOf_bind_signed (negative : Bool) (magnitude : Nat) :
    (wordOf magnitude >>= signed negative) = signed negative magnitude := by
  unfold wordOf
  by_cases hword : magnitude < 2 ^ 64
  · rw [if_pos hword]
    rfl
  · rw [if_neg hword, signed, if_neg (show ¬magnitude ≤ 2 ^ 63 by omega), if_neg (show ¬magnitude < 2 ^ 63 by omega)]
    cases negative <;> rfl

theorem decodeSectors_eq (units : Bytes) : decodeSectors units = safe (Sector.decode units) := by
  unfold decodeSectors Sector.decode
  split
  · rfl
  · rename_i hlength
    simp only [Bool.or_eq_true, decide_eq_true_eq, not_or, Nat.not_lt] at hlength
    generalize hnegative : (units.any fun unit => decide (Sector.base ≤ unit.toNat)) = negative
    have hunits : negative = false → ∀ unit ∈ units, unit.toNat < Sector.base := by
      rintro rfl unit hunit
      simpa using List.any_eq_false.1 hnegative unit hunit
    have hmagnitude := @magnitudeFrom_eq negative units 0 0 hunits (by simpa using hlength.2) (by decide) (by decide)
    dsimp only
    rw [hmagnitude]
    refine (safe_bind fun magnitude _ => rfl).trans (congrArg safe ?_)
    rw [bind_assoc]
    refine congrArg (units.mapM (Sector.digit negative) >>= ·) (funext fun digits => ?_)
    exact wordOf_bind_signed negative (Sector.ofDigits digits)

/-! ## Singles -/

def decodeSingle (octets : Bytes) : Option Binary32 := do
  let bits := Bytes.toNat octets
  let negative := (← shiftRight 32 bits 31) == 1
  let exponent := (← shiftRight 32 bits 23) &&& 0xFF
  let implicit ← shiftLeft 32 1 23
  let fraction := bits &&& (← sub implicit 1)
  if exponent = 255 then
    return if fraction = 0 then .ofParts negative Format.binary32.infinity else .nan
  else if exponent = 0 then return .ofScaled negative ⟨fraction, -149⟩
  else
    let scale ← subSigned 32 (← subSigned 32 exponent 127) 23
    return .ofScaled negative ⟨fraction ||| implicit, scale⟩

theorem toNat_lt_of_length {octets : Bytes} (h : octets.length = 4) : Bytes.toNat octets < 2 ^ 32 := by
  match octets, h with
  | [a, b, c, d], _ =>
    have := a.toNat_lt
    have := b.toNat_lt
    have := c.toNat_lt
    have := d.toNat_lt
    simp only [Bytes.toNat, List.foldl_cons, List.foldl_nil]
    omega

theorem decodeSingle_eq {octets : Bytes} (h : octets.length = 4) :
    decodeSingle octets = some (Binary32.decode octets) := by
  have hbits := toNat_lt_of_length h
  unfold decodeSingle Binary32.decode
  generalize Bytes.toNat octets = bits at hbits
  have hsign : shiftRight 32 bits 31 = some (bits / 2 ^ 31) := shiftRight_of_lt (by decide)
  have hexponent : shiftRight 32 bits 23 = some (bits / 2 ^ 23) := shiftRight_of_lt (by decide)
  have himplicit : shiftLeft 32 1 23 = some (2 ^ 23) := rfl
  have hmask : sub (2 ^ 23) 1 = some (2 ^ 23 - 1) := rfl
  have hfield : bits / 2 ^ 23 &&& 0xFF = bits / 2 ^ 23 % 2 ^ 8 := Nat.and_two_pow_sub_one_eq_mod _ 8
  have hfraction : bits &&& 2 ^ 23 - 1 = bits % 2 ^ 23 := Nat.and_two_pow_sub_one_eq_mod bits 23
  have hnegative : (bits / 2 ^ 31 == 1) = decide (2 ^ 31 ≤ bits) := by
    rw [Bool.eq_iff_iff, beq_iff_eq, decide_eq_true_eq]
    omega
  simp only [Nat.mod_eq_of_lt hbits, hsign, hexponent, himplicit, hmask, hfield, hfraction, hnegative,
    Option.bind_eq_bind, Option.bind_some]
  split
  · rfl
  · split
    · rfl
    · have hlt : bits / 2 ^ 23 % 2 ^ 8 < 2 ^ 8 := Nat.mod_lt _ (by decide)
      generalize bits / 2 ^ 23 % 2 ^ 8 = exponent at hlt
      have hunbias : subSigned 32 exponent 127 = some ((exponent : Int) - 127) := if_pos (by omega)
      have hscale : subSigned 32 ((exponent : Int) - 127) 23 = some ((exponent : Int) - 150) := by
        rw [subSigned, if_pos (by omega), Int.sub_sub]
        rfl
      have hor : bits % 2 ^ 23 ||| 2 ^ 23 = bits % 2 ^ 23 + 2 ^ 23 := by
        have := Nat.two_pow_add_eq_or_of_lt (Nat.mod_lt bits (Nat.two_pow_pos 23)) 1
        rw [Nat.or_comm, Nat.add_comm]
        simpa using this.symm
      rw [hunbias, Option.bind_some, hscale, hor]
      rfl

/-! ## Flags -/

/-- Octets that hold `count` flags. -/
def packedLength (count : Nat) : Option Nat := do
  let whole ← quotient count 8
  if (← remainder count 8) > 0 then add 64 whole 1 else return whole

/-- The flags of an octet, highest bit first. -/
def flagsOf (octet : UInt8) : Option (List Bool) :=
  [7, 6, 5, 4, 3, 2, 1, 0].mapM fun bit => do return (octet.toNat &&& (← shiftLeft 8 1 bit)) != 0

theorem packedLength_eq {count : Nat} (h : count < 2 ^ 32) : packedLength count = some (Flags.packedLength count) := by
  rw [packedLength, quotient_of_ne (by decide), remainder_of_ne (by decide), Flags.packedLength]
  simp only [Option.bind_eq_bind, Option.bind_some]
  split
  · rw [add_of_lt (by omega)]
    exact congrArg some (by omega)
  · exact congrArg some (by omega)

theorem flagsOf_eq (octet : UInt8) : flagsOf octet = some (Flags.ofOctet octet) := by
  have hbit : ∀ bit < 8, (do return (octet.toNat &&& (← shiftLeft 8 1 bit)) != 0 : Option Bool) =
      some (octet.toNat / 2 ^ bit % 2 == 1) := by
    intro bit hbit
    have hpow : 2 ^ bit < 2 ^ 8 := Nat.pow_lt_pow_right (by decide) hbit
    have hshift : shiftLeft 8 1 bit = some (2 ^ bit) := by
      have := @shiftLeft_of_lt 8 1 bit hbit (by omega)
      rwa [Nat.one_mul] at this
    have hpos : 2 ^ bit ≠ 0 := Nat.ne_of_gt (Nat.two_pow_pos bit)
    rw [hshift]
    show some ((octet.toNat &&& 2 ^ bit) != 0) = _
    rw [Nat.and_two_pow, Nat.toNat_testBit]
    obtain hzero | hone := Nat.mod_two_eq_zero_or_one (octet.toNat / 2 ^ bit)
    · rw [hzero, Nat.zero_mul]
      rfl
    · rw [hone, Nat.one_mul]
      exact congrArg some (bne_iff_ne.2 hpos)
  rw [flagsOf]
  simp only [List.mapM_cons, List.mapM_nil, hbit, Nat.reduceLT]
  rfl

/-! ## Shapes -/

/-- Whether the octets left are entries. An entry is told the how manieth it is. -/
def fitsEach (entry : Nat → Reading Unit) : Nat → Nat → Reader → Option Bool
  | 0, _, _ => none
  | fuel + 1, count, r => do
    if ← r.isEmpty then return true
    else
      let count ← add 64 count 1
      match ← (entry count r).run with
      | .error _ => return false
      | .ok (_, r) => fitsEach entry fuel count r

/-- A text, if it is among the first `capacity`. -/
def fitsText (capacity count : Nat) : Reading Unit := do
  let length ← varint
  if capacity < count then throw .capacity
  else
    let _ ← take length
    return ()

/-- A pair of varints, if it is among the first `capacity`. -/
def fitsPair (capacity count : Nat) : Reading Unit := do
  if capacity < count then throw .capacity
  else
    let _ ← varint
    let _ ← varint
    return ()

/-- Whether pieces of a width come out even, and are at most `capacity`. -/
def piecesFit (width : Nat) (bytes : Bytes) (capacity : Nat) : Option Bool := do
  if (← remainder bytes.length width) = 0 then return (← quotient bytes.length width) ≤ capacity
  else return false

def fits (kind : PayloadKind) (bytes : Bytes) (capacity : Nat) : Option Bool :=
  match kind with
  | .none => return bytes.isEmpty
  | .raw => return bytes.length ≤ min (capacity * 4) (2 ^ 64 - 1)
  | .strings => fitsEach (fitsText capacity) (bytes.length + 1) 0 (.start bytes)
  | .intsFixed => piecesFit 2 bytes capacity
  | .intsDynamic =>
    match bytes with
    | [] => return true
    | width :: rest =>
      if 1 ≤ width.toNat ∧ width.toNat ≤ Sector.maxUnits ∧ !rest.isEmpty then piecesFit width.toNat rest capacity
      else return false
  | .decimals => fitsEach (fitsPair capacity) (bytes.length + 1) 0 (.start bytes)
  | .booleans => do return bytes.length ≤ (← packedLength capacity)
  | .enum package =>
    return bytes.length ≤ capacity && bytes.all fun index => index.toNat < package.members.length
  | .floats => piecesFit 4 bytes capacity

/-- A loop over entries decides a shape, if an entry is what the shape begins with. -/
theorem fitsEach_eq {entry : Nat → Reading Unit} {parser : Nat → Parser Unit} {shape : Nat → Bytes → Bool}
    (hentry : ∀ count, Follows 1 (entry count) (parser count)) (hnil : ∀ count, shape count [] = true)
    (hcons : ∀ count bytes, bytes ≠ [] → shape count bytes =
      match parser (count + 1) bytes with
      | .error _ => false
      | .ok (_, rest) => shape (count + 1) rest)
    {fuel count : Nat} {r : Reader} (hr : r.Valid) (hfuel : r.ahead.length < fuel)
    (hword : count + r.ahead.length < 2 ^ 64) : fitsEach entry fuel count r = some (shape count r.ahead) := by
  induction fuel generalizing count r with
  | zero => cases hfuel
  | succ fuel ih =>
    rw [fitsEach, hr.isEmpty]
    by_cases hempty : r.ahead = []
    · rw [hempty, hnil]
      rfl
    · have hpos := List.length_pos_iff.2 hempty
      have hadd : add 64 count 1 = some (count + 1) := add_of_lt (by omega)
      rw [List.isEmpty_eq_false_iff.2 hempty, hadd, hcons _ _ hempty]
      obtain ⟨fault, hparse, hread⟩ | ⟨⟨⟩, used, hleast, hused, hparse, hread⟩ := hentry (count + 1) r hr
      · rw [hparse]
        show ((entry (count + 1) r).run >>= fun _ => _) = _
        rw [hread]
        rfl
      · have hrest := @ih (count + 1) (r.skip used) (hr.skip hused)
        rw [Reader.ahead_skip, List.length_drop] at hrest
        rw [hparse]
        show ((entry (count + 1) r).run >>= fun _ => _) = some (shape (count + 1) (r.ahead.drop used))
        rw [hread, ← hrest (by omega) (by omega)]
        rfl

/-- What a parser of a text among the first `capacity` does. -/
def textWithin (capacity count : Nat) : Parser Unit := fun bytes =>
  match Varint.decode bytes with
  | .error fault => .error fault
  | .ok (length, rest) =>
    if capacity < count then .error .capacity
    else if length ≤ rest.length then .ok ((), rest.drop length)
    else .error .unexpectedEnd

/-- What a parser of a pair of varints among the first `capacity` does. -/
def pairWithin (capacity count : Nat) : Parser Unit := fun bytes =>
  if capacity < count then .error .capacity
  else
    match Varint.decode bytes with
    | .error fault => .error fault
    | .ok (_, rest) =>
      match Varint.decode rest with
      | .error fault => .error fault
      | .ok (_, rest) => .ok ((), rest)

theorem fitsText_follows (capacity count : Nat) : Follows 1 (fitsText capacity count) (textWithin capacity count) := by
  have hparser : textWithin capacity count = Parser.varint >>= fun length =>
      if capacity < count then Parser.fail .capacity else Parser.take length >>= fun _ => pure () := by
    funext bytes
    show textWithin capacity count bytes = Varint.decode bytes >>= fun read =>
      (if capacity < count then Parser.fail .capacity else Parser.take read.1 >>= fun _ => pure () : Parser Unit) read.2
    unfold textWithin
    cases Varint.decode bytes with
    | error fault => rfl
    | ok read =>
      show (if capacity < count then _ else _) = (if capacity < count then _ else _ : Parser Unit) read.2
      by_cases hroom : capacity < count
      · rw [if_pos hroom, if_pos hroom]
        rfl
      · rw [if_neg hroom, if_neg hroom]
        show _ = Parser.take read.1 read.2 >>= fun taken => .ok ((), taken.2)
        unfold Parser.take
        split <;> rfl
  rw [hparser]
  refine varint_follows.bind fun length => ?_
  split
  · exact .fail _
  · exact (take_follows length).bind (fun _ => .pure _) (Nat.zero_le _)

theorem fitsPair_follows (capacity count : Nat) : Follows 1 (fitsPair capacity count) (pairWithin capacity count) := by
  have hparser : pairWithin capacity count =
      if capacity < count then Parser.fail .capacity
      else Parser.varint >>= fun _ => Parser.varint >>= fun _ => pure () := by
    funext bytes
    unfold pairWithin
    split
    · rfl
    · show _ = Varint.decode bytes >>= fun read => Varint.decode read.2 >>= fun read => .ok ((), read.2)
      cases Varint.decode bytes with
      | error fault => rfl
      | ok read =>
        dsimp only
        show _ = Varint.decode read.2 >>= fun read => .ok ((), read.2)
        cases Varint.decode read.2 <;> rfl
  rw [hparser, fitsPair]
  split
  · exact .fail _
  · exact varint_follows.bind fun _ => varint_follows.bind fun _ => .pure _

theorem fitsTexts_eq (capacity : Nat) {bytes : Bytes} (h : bytes.length < 2 ^ 64) :
    fitsEach (fitsText capacity) (bytes.length + 1) 0 (.start bytes) = some (PayloadKind.fitsTexts capacity bytes) := by
  -- the loop counts entries up to the capacity, the shape counts down the capacity that is left
  refine @fitsEach_eq _ _ (fun count => PayloadKind.fitsTexts (capacity - count)) (fitsText_follows capacity)
    (fun _ => by rw [PayloadKind.fitsTexts]) (fun count bytes hne => ?_) _ 0 (.start bytes)
    (Reader.start_valid h) (Nat.lt_succ_self _) (by simpa using h)
  obtain ⟨octet, tail, rfl⟩ := List.exists_cons_of_ne_nil hne
  unfold textWithin
  obtain hroom | hroom := Nat.lt_or_ge count capacity
  · have hsucc : capacity - count = capacity - (count + 1) + 1 := by omega
    rw [hsucc, PayloadKind.fitsTexts]
    cases Varint.decode (octet :: tail) with
    | error fault => rfl
    | ok read =>
      dsimp only
      rw [if_neg (by omega)]
      by_cases hle : read.1 ≤ read.2.length <;> simp [hle]
  · have hzero : capacity - count = 0 := by omega
    rw [hzero, PayloadKind.fitsTexts]
    cases Varint.decode (octet :: tail) with
    | error fault => rfl
    | ok read =>
      dsimp only
      rw [if_pos (by omega)]

theorem fitsPairs_eq (capacity : Nat) {bytes : Bytes} (h : bytes.length < 2 ^ 64) :
    fitsEach (fitsPair capacity) (bytes.length + 1) 0 (.start bytes) = some (PayloadKind.fitsPairs capacity bytes) := by
  refine @fitsEach_eq _ _ (fun count => PayloadKind.fitsPairs (capacity - count)) (fitsPair_follows capacity)
    (fun _ => by rw [PayloadKind.fitsPairs]) (fun count bytes hne => ?_) _ 0 (.start bytes)
    (Reader.start_valid h) (Nat.lt_succ_self _) (by simpa using h)
  obtain ⟨octet, tail, rfl⟩ := List.exists_cons_of_ne_nil hne
  unfold pairWithin
  obtain hroom | hroom := Nat.lt_or_ge count capacity
  · have hsucc : capacity - count = capacity - (count + 1) + 1 := by omega
    rw [hsucc, PayloadKind.fitsPairs, if_neg (by omega)]
    cases Varint.decode (octet :: tail) with
    | error fault => rfl
    | ok read =>
      dsimp only
      cases Varint.decode read.2 <;> rfl
  · have hzero : capacity - count = 0 := by omega
    rw [hzero, PayloadKind.fitsPairs, if_pos (by omega)]

theorem piecesFit_eq {width : Nat} (h : width ≠ 0) (bytes : Bytes) (capacity : Nat) :
    piecesFit width bytes capacity = some (bytes.length % width == 0 && decide (bytes.length / width ≤ capacity)) := by
  rw [piecesFit, remainder_of_ne h, quotient_of_ne h]
  show (if bytes.length % width = 0 then some _ else some _) = _
  by_cases hmod : bytes.length % width = 0
  · rw [if_pos hmod, beq_iff_eq.2 hmod, Bool.true_and]
  · rw [if_neg hmod, beq_eq_false_iff_ne.2 hmod, Bool.false_and]

theorem fits_eq (kind : PayloadKind) {bytes : Bytes} {capacity : Nat} (hlength : bytes.length < 2 ^ 64)
    (hcapacity : capacity < 2 ^ 32) : fits kind bytes capacity = some (kind.fits bytes capacity) := by
  cases kind with
  | none => rfl
  | raw =>
    refine congrArg some (decide_eq_decide.2 ?_)
    omega
  | strings => exact fitsTexts_eq capacity hlength
  | intsFixed => exact piecesFit_eq (by decide) bytes capacity
  | intsDynamic =>
    cases bytes with
    | nil => rfl
    | cons width rest =>
      show (if _ then _ else _) = some (_ && _ && _ && _ && _)
      split
      · rename_i hwidth
        obtain ⟨hpos, hmax, hrest⟩ := hwidth
        rw [piecesFit_eq (by omega), hrest]
        simp [hpos, hmax]
      · rename_i hwidth
        refine congrArg some (Eq.symm ?_)
        by_contra hfits
        simp only [Bool.not_eq_false, Bool.and_eq_true, decide_eq_true_eq] at hfits
        exact hwidth ⟨hfits.1.1.1.1, hfits.1.1.1.2, hfits.1.1.2⟩
  | decimals => exact fitsPairs_eq capacity hlength
  | booleans =>
    rw [fits, packedLength_eq hcapacity]
    rfl
  | enum package => rfl
  | floats => exact piecesFit_eq (by decide) bytes capacity

/-! ## Values -/

def fraction : Reading Binary64 := do
  let whole ← signedVarint
  let fraction ← signedVarint
  return Binary64.ofDecimal (whole < 0 ∨ fraction < 0) (Decimal.ofMirrored whole.natAbs fraction.natAbs)

def decodeInt (units : Bytes) : Checked DecodeFault Value := Value.int <$> decodeSectors units

/-- What arity bounds apply to. The characters of texts are added up. -/
def count (kind : PayloadKind) (values : List Value) : Option Nat :=
  match kind with
  | .raw => values.foldlM (fun total value => add 64 total ((value.string?.map String.length).getD 0)) 0
  | _ => return values.length

def read (kind : PayloadKind) (bytes : Bytes) (capacity : Nat) : Checked DecodeFault (List Value) :=
  match kind with
  | .none => return []
  | .raw =>
    match Utf8.decode bytes with
    | some text => return [.string text]
    | none => throw .invalidUtf8
  | .strings => whileLeft (Value.string <$> text) (bytes.length + 1) (.start bytes)
  | .intsFixed => do (← chunks 2 bytes).mapM decodeInt
  | .intsDynamic =>
    match bytes with
    | [] => return []
    | width :: rest => do (← chunks width.toNat rest).mapM decodeInt
  | .decimals => whileLeft (Value.number <$> fraction) (bytes.length + 1) (.start bytes)
  | .booleans => do
    let flags ← (bytes.mapM flagsOf : Option (List (List Bool)))
    return (flags.flatten.take capacity).map .bool
  | .enum package => bytes.mapM fun index => safe (PayloadKind.decodeMember package index)
  | .floats => do
    (← chunksExact 4 bytes).mapM fun octets => do
      return .number (← decodeSingle (← copy 4 octets)).toBinary64

def decode (kind : PayloadKind) (bytes : Bytes) (capacity : Nat) : Checked DecodeFault (List Value) := do
  if ← fits kind bytes capacity then
    let values ← read kind bytes capacity
    if capacity < (← count kind values) then throw .capacity else return values
  else throw .capacity

theorem fraction_follows : Follows 1 fraction Fraction.parser :=
  signedVarint_follows.bind fun _ => signedVarint_follows.bind fun _ => .pure _

theorem decodeInt_eq (units : Bytes) : decodeInt units = safe (PayloadKind.decodeInt units) := by
  rw [decodeInt, decodeSectors_eq, safe_map]
  rfl

theorem mapM_eq_some {α β : Type} {f : α → Option β} {g : α → β} {list : List α} (h : ∀ a ∈ list, f a = some (g a)) :
    list.mapM f = some (list.map g) := by
  induction list with
  | nil => rfl
  | cons a list ih =>
    rw [List.mapM_cons, h a (by simp), ih fun b hb => h b (by simp [hb])]
    rfl

/-- Values that could be read are read. The shape is what keeps widths from being zero. -/
theorem read_eq {kind : PayloadKind} {bytes : Bytes} {capacity : Nat} (hfits : kind.fits bytes capacity = true)
    (hlength : bytes.length < 2 ^ 64) : read kind bytes capacity = safe (kind.read bytes capacity) := by
  cases kind with
  | none => rfl
  | raw =>
    rw [read, PayloadKind.read]
    cases Utf8.decode bytes <;> rfl
  | strings =>
    exact whileLeft_eq (text_follows.map Value.string (Nat.le_refl _)) (Reader.start_valid hlength) (Nat.lt_succ_self _)
  | intsFixed =>
    rw [read, chunks_of_ne (by decide)]
    exact safe_mapM fun units _ => decodeInt_eq units
  | intsDynamic =>
    cases bytes with
    | nil => rfl
    | cons width rest =>
      simp only [PayloadKind.fits, Bool.and_eq_true, decide_eq_true_eq] at hfits
      have hwidth : width.toNat ≠ 0 := Nat.ne_of_gt hfits.1.1.1.1
      rw [read, chunks_of_ne hwidth]
      exact safe_mapM fun units _ => decodeInt_eq units
  | decimals =>
    exact whileLeft_eq (fraction_follows.map Value.number (Nat.le_refl _)) (Reader.start_valid hlength)
      (Nat.lt_succ_self _)
  | booleans =>
    rw [read, mapM_eq_some fun octet _ => flagsOf_eq octet, PayloadKind.read, Flags.unpack, List.flatMap_def]
    rfl
  | enum package => exact safe_mapM fun _ _ => rfl
  | floats =>
    simp only [PayloadKind.fits, Bool.and_eq_true, beq_iff_eq] at hfits
    have hsingle : ∀ octets ∈ PayloadKind.pieces 4 bytes,
        (do return .number (← decodeSingle (← copy 4 octets)).toBinary64 : Checked DecodeFault Value) =
          safe (.ok (.number (Binary32.decode octets).toBinary64)) := by
      intro octets hoctets
      have hlength := length_of_mem_pieces hfits.1 octets hoctets
      have hcopy : copy 4 octets = some octets := if_pos hlength
      rw [hcopy, liftM_some, pure_bind, decodeSingle_eq hlength]
      rfl
    rw [read, chunksExact_of_mod (by decide) hfits.1]
    refine (safe_mapM hsingle).trans (congrArg safe ?_)
    exact List.mapM_pure

/-- A sum that is a word is added up without overflow. -/
theorem foldlM_add {width : Value → Nat} {total : Nat} {values : List Value}
    (h : total + (values.map width).sum < 2 ^ 64) :
    values.foldlM (fun total value => add 64 total (width value)) total = some (total + (values.map width).sum) := by
  induction values generalizing total with
  | nil => rfl
  | cons value values ih =>
    rw [List.map_cons, List.sum_cons] at h ⊢
    rw [List.foldlM_cons, add_of_lt (by omega), ← Nat.add_assoc]
    exact ih (by omega)

theorem count_eq {kind : PayloadKind} {values : List Value} (h : kind = .raw → kind.count values < 2 ^ 64) :
    count kind values = some (kind.count values) := by
  cases kind with
  | raw =>
    have hsum := h rfl
    rw [PayloadKind.count, ← Nat.zero_add (List.sum _)] at hsum
    rw [count, foldlM_add hsum, Nat.zero_add]
    rfl
  | _ => rfl

theorem decode_eq (kind : PayloadKind) {bytes : Bytes} {capacity : Nat} (hlength : bytes.length < 2 ^ 64)
    (hcapacity : capacity < 2 ^ 32) : decode kind bytes capacity = safe (kind.decode bytes capacity) := by
  rw [decode, PayloadKind.decode, fits_eq kind hlength hcapacity, liftM_some, pure_bind]
  cases hfits : kind.fits bytes capacity with
  | false => rfl
  | true =>
    rw [read_eq hfits hlength]
    refine safe_bind fun values hvalues => ?_
    -- a text has no more characters than octets, so that their number is a word
    have hraw : kind = .raw → kind.count values < 2 ^ 64 := by
      rintro rfl
      rw [PayloadKind.read] at hvalues
      cases htext : Utf8.decode bytes with
      | none =>
        rw [htext] at hvalues
        cases hvalues
      | some text =>
        rw [htext] at hvalues
        cases hvalues
        have := Utf8.length_le_of_decode htext
        simp only [PayloadKind.count, List.map_cons, List.map_nil, List.sum_cons, List.sum_nil, Value.string?,
          Option.map_some, Option.getD_some]
        omega
    rw [count_eq hraw, liftM_some, pure_bind]
    split <;> rfl

end PacketProtocol.Machine
