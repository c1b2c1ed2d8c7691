import Mathlib.Data.Int.Bitwise
import PacketProtocol.Parser
import PacketProtocol.Proofs.Machine.Operations
/-!
# Readers

The machine reads octets in place: a reader is the octets and a position in them. It gives what a
parser gives on the octets from that position on, and while the position is inside, which every read
keeps up, it does not trap.
-/

namespace PacketProtocol.Machine

/-- Octets in memory, and how many of them were read. -/
structure Reader where
  data : Bytes
  pos : Nat

namespace Reader

def start (data : Bytes) : Reader := ⟨data, 0⟩

def remaining (r : Reader) : Option Nat := sub r.data.length r.pos

def isEmpty (r : Reader) : Option Bool := do return (← r.remaining) == 0

def peek (r : Reader) : Option UInt8 := r.data[r.pos]?

/-- What was not read yet. -/
def ahead (r : Reader) : Bytes := r.data.drop r.pos

/-- The reader `count` octets further. -/
def skip (r : Reader) (count : Nat) : Reader := ⟨r.data, r.pos + count⟩

/-- A position inside octets whose number is a word. -/
structure Valid (r : Reader) : Prop where
  pos_le : r.pos ≤ r.data.length
  length_lt : r.data.length < 2 ^ 64

variable {r : Reader} {count count' : Nat}

theorem start_valid {data : Bytes} (h : data.length < 2 ^ 64) : (start data).Valid := ⟨Nat.zero_le _, h⟩

@[simp]
theorem ahead_start (data : Bytes) : (start data).ahead = data := rfl

@[simp]
theorem length_ahead (r : Reader) : r.ahead.length = r.data.length - r.pos := List.length_drop

@[simp]
theorem ahead_skip (r : Reader) (count : Nat) : (r.skip count).ahead = r.ahead.drop count := List.drop_drop.symm

@[simp]
theorem skip_skip (r : Reader) (count count' : Nat) : (r.skip count).skip count' = r.skip (count + count') := by
  simp [skip, Nat.add_assoc]

theorem peek_eq (r : Reader) : r.peek = r.ahead.head? := List.head?_drop.symm

theorem Valid.skip (h : r.Valid) (hcount : count ≤ r.ahead.length) : (r.skip count).Valid := by
  have := h.pos_le
  rw [length_ahead] at hcount
  refine ⟨?_, h.length_lt⟩
  show r.pos + count ≤ r.data.length
  omega

theorem ahead_skip_one {first : UInt8} {rest : Bytes} (h : r.ahead = first :: rest) : (r.skip 1).ahead = rest := by
  rw [ahead_skip, h, List.drop_one, List.tail_cons]

theorem Valid.skip_one {first : UInt8} {rest : Bytes} (hr : r.Valid) (h : r.ahead = first :: rest) :
    (r.skip 1).Valid := hr.skip (by simp [h])

theorem Valid.remaining (h : r.Valid) : r.remaining = some r.ahead.length := by
  rw [Reader.remaining, sub_of_le h.pos_le, length_ahead]

theorem Valid.isEmpty (h : r.Valid) : r.isEmpty = some r.ahead.isEmpty := by
  rw [Reader.isEmpty, h.remaining]
  cases r.ahead <;> rfl

/-- Positions inside do not overflow. -/
theorem Valid.add (h : r.Valid) (hcount : count ≤ r.ahead.length) : add 64 r.pos count = some (r.pos + count) := by
  have := h.pos_le
  have := h.length_lt
  rw [length_ahead] at hcount
  exact add_of_lt (by omega)

end Reader

/-- A computation with a reader at hand. -/
abbrev Reading := StateT Reader (Checked DecodeFault)

variable {α β : Type}

/-- Where the reader stands, the reading gives what the parser gives on the octets ahead, and it takes
as many, which are at least so many. It does not trap. -/
def FollowsAt (r : Reader) (least : Nat) (m : Reading α) (p : Parser α) : Prop :=
  (∃ fault, p r.ahead = .error fault ∧ m r = safe (.error fault)) ∨
    ∃ a count, least ≤ count ∧ count ≤ r.ahead.length ∧ p r.ahead = .ok (a, r.ahead.drop count) ∧
      m r = safe (.ok (a, r.skip count))

/-- The same wherever a reader stands inside its octets. -/
def Follows (least : Nat) (m : Reading α) (p : Parser α) : Prop := ∀ r : Reader, r.Valid → FollowsAt r least m p

theorem FollowsAt.congr {r : Reader} {least : Nat} {m m' : Reading α} {p p' : Parser α} (hm : m r = m' r)
    (hp : p r.ahead = p' r.ahead) (h : FollowsAt r least m' p') : FollowsAt r least m p := by
  rw [FollowsAt, hm, hp]
  exact h

/-- One step after the other. -/
theorem FollowsAt.bind {r : Reader} {least n : Nat} {m : Reading α} {p : Parser α} {f : α → Reading β}
    {g : α → Parser β} (h : FollowsAt r n m p)
    (hf : ∀ a count, n ≤ count → count ≤ r.ahead.length → p r.ahead = .ok (a, r.ahead.drop count) →
      FollowsAt (r.skip count) 0 (f a) (g a))
    (hle : least ≤ n) : FollowsAt r least (m >>= f) (p >>= g) := by
  have hm : (m >>= f) r = m r >>= fun read => f read.1 read.2 := rfl
  have hp : (p >>= g) r.ahead = p r.ahead >>= fun read => g read.1 read.2 := rfl
  rw [FollowsAt, hm, hp]
  obtain ⟨fault, hpr, hmr⟩ | ⟨a, count, hleast, hcount, hpr, hmr⟩ := h
  · exact .inl ⟨fault, by rw [hpr]; rfl, by rw [hmr]; rfl⟩
  -- what the second step takes is counted from where the first one stopped
  · have hrest := hf a count hleast hcount hpr
    rw [hmr, hpr]
    rw [FollowsAt, Reader.ahead_skip] at hrest
    obtain ⟨fault, hgr, hfr⟩ | ⟨b, count', -, hcount', hgr, hfr⟩ := hrest
    · exact .inl ⟨fault, hgr, hfr⟩
    · rw [List.length_drop] at hcount'
      rw [List.drop_drop] at hgr
      rw [Reader.skip_skip] at hfr
      exact .inr ⟨b, count + count', by omega, by omega, hgr, hfr⟩

namespace Follows

variable {least n : Nat} {m : Reading α} {p : Parser α}

theorem mono (h : Follows n m p) (hle : least ≤ n) : Follows least m p := by
  intro r hr
  obtain hfault | ⟨a, count, hleast, hread⟩ := h r hr
  · exact .inl hfault
  · exact .inr ⟨a, count, Nat.le_trans hle hleast, hread⟩

theorem pure (a : α) : Follows 0 (Pure.pure a) (Pure.pure a) :=
  fun _ _ => .inr ⟨a, 0, Nat.le_refl _, Nat.zero_le _, rfl, rfl⟩

theorem fail (fault : DecodeFault) : Follows least (throw fault : Reading α) (Parser.fail fault) :=
  fun _ _ => .inl ⟨fault, rfl, rfl⟩

/-- A step that reads nothing. -/
theorem lift {step : Checked DecodeFault α} {outcome : Except DecodeFault α} (h : step = safe outcome) :
    Follows 0 (liftM step : Reading α) (liftM outcome : Parser α) := by
  intro r _
  subst h
  cases outcome with
  | error fault => exact .inl ⟨fault, rfl, rfl⟩
  | ok a => exact .inr ⟨a, 0, Nat.le_refl _, Nat.zero_le _, rfl, rfl⟩

/-- What the first of two steps gives may be known to have some property. -/
theorem bindOf {f : α → Reading β} {g : α → Parser β} {P : α → Prop} (h : Follows n m p)
    (hP : ∀ {bytes a rest}, p bytes = .ok (a, rest) → P a) (hf : ∀ a, P a → Follows 0 (f a) (g a))
    (hle : least ≤ n := by decide) : Follows least (m >>= f) (p >>= g) :=
  fun r hr => (h r hr).bind (fun a _ _ hcount hread => hf a (hP hread) _ (hr.skip hcount)) hle

theorem bind {f : α → Reading β} {g : α → Parser β} (h : Follows n m p) (hf : ∀ a, Follows 0 (f a) (g a))
    (hle : least ≤ n := by decide) : Follows least (m >>= f) (p >>= g) :=
  h.bindOf (P := fun _ => True) (fun _ => trivial) (fun a _ => hf a) hle

theorem map (f : α → β) (h : Follows n m p) (hle : least ≤ n := by decide) : Follows least (f <$> m) (f <$> p) := by
  rw [map_eq_pure_bind, map_eq_pure_bind]
  exact h.bind (fun a => .pure (f a)) hle

end Follows

/-! ## Octets -/

def octet : Reading UInt8 := fun r => do
  match r.peek with
  | none => throw .unexpectedEnd
  | some octet => return (octet, ⟨r.data, ← add 64 r.pos 1⟩)

def take (count : Nat) : Reading Bytes := fun r => do
  if (← r.remaining) < count then throw .unexpectedEnd
  else
    let bytes ← slice r.data r.pos (← add 64 r.pos count)
    return (bytes, ⟨r.data, ← add 64 r.pos count⟩)

/-- As many octets as an array of that size takes. -/
def array (size : Nat) : Reading Bytes := do copy size (← take size)

def finish : Reading Unit := fun r => do
  if ← r.isEmpty then return ((), r) else throw .trailingBytes

theorem octet_nil {r : Reader} (h : r.ahead = []) : octet r = safe (.error .unexpectedEnd) := by
  rw [octet, r.peek_eq, h]
  rfl

theorem octet_cons {r : Reader} (hr : r.Valid) {first : UInt8} {rest : Bytes} (h : r.ahead = first :: rest) :
    octet r = safe (.ok (first, r.skip 1)) := by
  have hadd : add 64 r.pos 1 = some (r.pos + 1) := hr.add (by simp [h])
  rw [octet, r.peek_eq, h]
  simp only [List.head?_cons, hadd]
  rfl

theorem octet_follows : Follows 1 octet Parser.octet := by
  intro r hr
  unfold FollowsAt
  cases hahead : r.ahead with
  | nil => exact .inl ⟨_, rfl, octet_nil hahead⟩
  | cons first rest => exact .inr ⟨first, 1, Nat.le_refl _, by simp, rfl, octet_cons hr hahead⟩

theorem take_of_le {r : Reader} (hr : r.Valid) {count : Nat} (h : count ≤ r.ahead.length) :
    take count r = safe (.ok (r.ahead.take count, r.skip count)) := by
  have hslice : slice r.data r.pos (r.pos + count) = some (r.ahead.take count) := by
    have := hr.pos_le
    rw [Reader.length_ahead] at h
    rw [slice, if_pos (by omega), List.drop_take, Nat.add_sub_cancel_left, Reader.ahead]
  rw [take, hr.remaining]
  simp only [liftM_some, pure_bind, if_neg (Nat.not_lt.2 h), hr.add h, hslice]
  rfl

theorem take_of_lt {r : Reader} (hr : r.Valid) {count : Nat} (h : r.ahead.length < count) :
    take count r = safe (.error .unexpectedEnd) := by
  rw [take, hr.remaining]
  simp only [liftM_some, pure_bind, if_pos h]
  rfl

theorem take_follows (count : Nat) : Follows count (take count) (Parser.take count) := by
  intro r hr
  rw [FollowsAt, Parser.take]
  obtain hlt | hle := Nat.lt_or_ge r.ahead.length count
  · exact .inl ⟨_, if_neg (Nat.not_le.2 hlt), take_of_lt hr hlt⟩
  · exact .inr ⟨_, count, Nat.le_refl _, hle, if_pos hle, take_of_le hr hle⟩

theorem array_eq (size : Nat) (r : Reader) :
    array size r = take size r >>= fun read => liftM (copy size read.1) >>= fun bytes => pure (bytes, read.2) := rfl

theorem array_of_le {r : Reader} (hr : r.Valid) {size : Nat} (h : size ≤ r.ahead.length) :
    array size r = safe (.ok (r.ahead.take size, r.skip size)) := by
  have hcopy : copy size (r.ahead.take size) = some (r.ahead.take size) :=
    if_pos (List.length_take_of_le h)
  rw [array_eq, take_of_le hr h]
  show (liftM (copy size (r.ahead.take size)) >>= fun bytes => _ : Checked DecodeFault _) = _
  rw [hcopy]
  rfl

theorem array_of_lt {r : Reader} (hr : r.Valid) {size : Nat} (h : r.ahead.length < size) :
    array size r = safe (.error .unexpectedEnd) := by
  rw [array_eq, take_of_lt hr h]
  rfl

theorem array_follows (size : Nat) : Follows size (array size) (Parser.take size) := by
  intro r hr
  rw [FollowsAt, Parser.take]
  obtain hlt | hle := Nat.lt_or_ge r.ahead.length size
  · exact .inl ⟨_, if_neg (Nat.not_le.2 hlt), array_of_lt hr hlt⟩
  · exact .inr ⟨_, size, Nat.le_refl _, hle, if_pos hle, array_of_le hr hle⟩

theorem finish_eq {r : Reader} (hr : r.Valid) :
    finish r = safe (if r.ahead.isEmpty then .ok ((), r) else .error .trailingBytes) := by
  rw [finish, hr.isEmpty]
  cases r.ahead <;> rfl

theorem finish_follows : Follows 0 finish Parser.finish := by
  intro r hr
  rw [FollowsAt, finish_eq hr]
  cases hahead : r.ahead with
  | nil => exact .inr ⟨(), 0, Nat.le_refl _, Nat.zero_le _, rfl, rfl⟩
  | cons octet rest => exact .inl ⟨_, rfl, rfl⟩

/-! ## Varints -/

/-- Puts groups of seven bits behind the `i` that make up `value`, out of `total` octets. -/
def unvarintFrom (total : Nat) : Bytes → Nat → Nat → Checked DecodeFault (Nat × Nat)
  | [], _, _ => throw (if Varint.maxUnits ≤ total then .varintTooLong else .unexpectedEnd)
  | octet :: rest, i, value => do
    let group ← shiftLeft 64 (octet &&& 0x7F).toNat (← mul 64 7 i)
    let value := value ||| group
    if octet &&& 0x80 = 0 then return (value, ← add 64 i 1)
    else unvarintFrom total rest (← add 64 i 1) value

/-- A number, and how many octets it takes. -/
def unvarint (bytes : Bytes) : Checked DecodeFault (Nat × Nat) :=
  unvarintFrom bytes.length (bytes.take Varint.maxUnits) 0 0

def varint : Reading Nat := fun r => do
  let (value, used) ← unvarint (← slice r.data r.pos r.data.length)
  return (value, ⟨r.data, ← add 64 r.pos used⟩)

/-- The integer at a place of the order 0, -1, 1, -2, 2, … -/
def unzigzag (n : Nat) : Option Int := do
  let half ← shiftRight 64 n 1
  let sign ← subSigned 64 0 ((n &&& 1 : Nat) : Int)
  return Int.xor half sign

def signedVarint : Reading Int := do unzigzag (← varint)

def word : Reading UInt32 := do
  let n ← varint
  if n < 2 ^ 32 then return UInt32.ofNat n else throw .varintRange

theorem group_eq (octet : UInt8) : (octet &&& 0x7F).toNat = octet.toNat % 128 := by
  rw [UInt8.toNat_and]
  exact Nat.and_two_pow_sub_one_eq_mod octet.toNat 7

theorem mark_eq_zero (octet : UInt8) : octet &&& 0x80 = 0 ↔ octet < 128 := by
  have hbit : (octet &&& 0x80).toNat = octet.toNat / 128 % 2 * 128 := by
    rw [UInt8.toNat_and]
    refine (Nat.and_two_pow octet.toNat 7).trans ?_
    rw [Nat.toNat_testBit]
    rfl
  have := octet.toNat_lt
  rw [← UInt8.toNat_inj, hbit, UInt8.lt_iff_toNat_lt]
  show octet.toNat / 128 % 2 * 128 = 0 ↔ octet.toNat < 128
  omega

/-- A group of seven bits put in front of lower ones. -/
theorem or_group {i value group : Nat} (hvalue : value < 2 ^ (7 * i)) (hgroup : group < 128) :
    value ||| group * 2 ^ (7 * i) = value + 2 ^ (7 * i) * group ∧ value + 2 ^ (7 * i) * group < 2 ^ (7 * (i + 1)) := by
  constructor
  · rw [Nat.or_comm, ← Nat.shiftLeft_eq, ← Nat.shiftLeft_add_eq_or_of_lt hvalue, Nat.shiftLeft_eq, Nat.add_comm,
      Nat.mul_comm]
  · have hgroups : 2 ^ (7 * i) * group ≤ 2 ^ (7 * i) * 127 := Nat.mul_le_mul_left _ (Nat.le_of_lt_succ hgroup)
    rw [Nat.mul_add, Nat.pow_add]
    omega

theorem unvarintFrom_eq {room i value : Nat} {bytes : Bytes} (hi : i + room = 7) (hvalue : value < 2 ^ (7 * i)) :
    unvarintFrom (i + bytes.length) (bytes.take room) i value =
      safe (Varint.decodeWithin room bytes >>= fun read =>
        .ok (value + 2 ^ (7 * i) * read.1, i + (bytes.length - read.2.length))) := by
  -- the loop counts octets up, the parser counts down the room that is left; `hi` ties the two
  induction room generalizing i value bytes with
  | zero =>
    rw [List.take_zero, unvarintFrom, if_pos (by simp only [Varint.maxUnits]; omega)]
    rfl
  | succ room ih =>
    cases bytes with
    | nil =>
      rw [List.take_nil, unvarintFrom, if_neg (by simp only [Varint.maxUnits, List.length_nil]; omega)]
      rfl
    | cons octet rest =>
      have hgroup : octet.toNat % 128 < 128 := Nat.mod_lt _ (by decide)
      obtain ⟨hor, hjoined⟩ := or_group hvalue hgroup
      -- seven groups of seven bits stay far below a word, so neither the shift nor the sum overflows
      have hword : 2 ^ (7 * (i + 1)) ≤ 2 ^ 49 := Nat.pow_le_pow_right (by decide) (by omega)
      have hmul : mul 64 7 i = some (7 * i) := mul_of_lt (by omega)
      have hadd : add 64 i 1 = some (i + 1) := add_of_lt (by omega)
      have hshift : shiftLeft 64 (octet &&& 0x7F).toNat (7 * i) = some (octet.toNat % 128 * 2 ^ (7 * i)) := by
        rw [group_eq]
        refine shiftLeft_of_lt (by omega) ?_
        rw [Nat.mul_comm]
        omega
      rw [List.take_succ_cons, unvarintFrom, Varint.decodeWithin]
      simp only [hmul, hadd, liftM_some, pure_bind, hshift, hor, mark_eq_zero]
      by_cases hlast : octet < 128
      · have hsmall : octet.toNat % 128 = octet.toNat := Nat.mod_eq_of_lt (UInt8.lt_iff_toNat_lt.1 hlast)
        rw [if_pos hlast, if_pos hlast, hsmall, pure_eq_safe]
        refine congrArg (fun used => safe (.ok (value + 2 ^ (7 * i) * octet.toNat, used))) ?_
        show i + 1 = i + ((octet :: rest).length - rest.length)
        simp
      · have htotal : i + (octet :: rest).length = i + 1 + rest.length := by simp only [List.length_cons]; omega
        rw [if_neg hlast, if_neg hlast, htotal, ih (by omega) hjoined]
        cases hrest : Varint.decodeWithin room rest with
        | error fault => rfl
        | ok read =>
          obtain ⟨high, rest'⟩ := read
          have hlt := Varint.length_lt_of_decodeWithin hrest
          refine congrArg (fun read => safe (.ok read)) (Prod.ext ?_ ?_)
          · show value + 2 ^ (7 * i) * (octet.toNat % 128) + 2 ^ (7 * (i + 1)) * high =
              value + 2 ^ (7 * i) * (octet.toNat % 128 + 128 * high)
            rw [Nat.mul_add 7 i 1, Nat.pow_add, Nat.mul_add, Nat.mul_assoc, Nat.add_assoc]
          · show i + 1 + (rest.length - rest'.length) = i + ((octet :: rest).length - rest'.length)
            simp only [List.length_cons]
            omega

theorem unvarint_eq (bytes : Bytes) :
    unvarint bytes =
      safe (Varint.decode bytes >>= fun read => .ok (read.1, bytes.length - read.2.length)) := by
  have h := @unvarintFrom_eq Varint.maxUnits 0 0 bytes rfl (by decide)
  simpa [unvarint, Varint.decode] using h

theorem suffix_of_decodeWithin {room : Nat} {bytes rest : Bytes} {n : Nat}
    (h : Varint.decodeWithin room bytes = .ok (n, rest)) : rest <:+ bytes := by
  fun_induction Varint.decodeWithin room bytes generalizing n rest with
  | case1 => cases h
  | case2 => cases h
  | case3 => cases h; exact List.suffix_cons _ _
  | case4 => cases h
  | case5 room octet tail hge high rest' heq ih =>
    cases h
    exact (ih heq).trans (List.suffix_cons _ _)

theorem varint_follows : Follows 1 varint Parser.varint := by
  intro r hr
  have hslice : slice r.data r.pos r.data.length = some r.ahead := by
    rw [slice, if_pos ⟨hr.pos_le, Nat.le_refl _⟩, List.take_length, Reader.ahead]
  have hread : varint r = unvarint r.ahead >>= fun read =>
      liftM (add 64 r.pos read.2) >>= fun pos => pure (read.1, ⟨r.data, pos⟩) := by
    rw [varint, hslice]
    rfl
  rw [FollowsAt, hread, unvarint_eq, Parser.varint]
  cases hdecode : Varint.decode r.ahead with
  | error fault => exact .inl ⟨fault, rfl, rfl⟩
  | ok read =>
    obtain ⟨n, rest⟩ := read
    have hused : r.ahead.length - rest.length ≤ r.ahead.length := Nat.sub_le _ _
    have hrest : rest = r.ahead.drop (r.ahead.length - rest.length) :=
      List.suffix_iff_eq_drop.1 (suffix_of_decodeWithin hdecode)
    have hpos : 1 ≤ r.ahead.length - rest.length := by
      have := Varint.length_lt_of_decode hdecode
      omega
    refine .inr ⟨n, _, hpos, hused, congrArg (fun rest => Except.ok (n, rest)) hrest, ?_⟩
    show (liftM (add 64 r.pos _) >>= fun pos => _ : Checked DecodeFault _) = _
    rw [hr.add hused]
    rfl

theorem unzigzag_eq (n : Nat) : unzigzag n = some (ZigZag.unfold n) := by
  have hhalf : shiftRight 64 n 1 = some (n / 2) := shiftRight_of_lt (by decide)
  have hbit : n &&& 1 = n % 2 := Nat.and_one_is_mod n
  rw [unzigzag, hhalf, hbit]
  obtain h | h := Nat.mod_two_eq_zero_or_one n
  · have hsign : subSigned 64 0 ((n % 2 : Nat) : Int) = some 0 := by rw [h]; rfl
    rw [hsign, ZigZag.unfold, if_pos h]
    exact congrArg (fun half : Nat => some (half : Int)) (Nat.xor_zero _)
  · have hsign : subSigned 64 0 ((n % 2 : Nat) : Int) = some (-1) := by rw [h]; rfl
    rw [hsign, ZigZag.unfold, if_neg (by omega)]
    refine congrArg some ?_
    show Int.xor (Int.ofNat (n / 2)) (Int.negSucc 0) = -((n / 2 : Nat) : Int) - 1
    simp only [Int.xor, Nat.xor_zero, Int.negSucc_eq]
    omega

theorem signedVarint_follows : Follows 1 signedVarint Parser.signedVarint := by
  refine varint_follows.bind fun n => ?_
  rw [unzigzag_eq]
  exact .pure _

theorem word_follows : Follows 1 word Parser.word := by
  refine varint_follows.bind fun n => ?_
  split
  · exact .pure _
  · exact .fail _

/-! ## Texts -/

def utf8 (count : Nat) : Reading String := do
  match Utf8.decode (← take count) with
  | some text => return text
  | none => throw .invalidUtf8

def text : Reading String := do utf8 (← varint)

def shortText : Reading String := do utf8 (← octet).toNat

theorem utf8_follows (count : Nat) : Follows 0 (utf8 count) (Parser.utf8 count) := by
  refine (take_follows count).bind (fun bytes => ?_) (Nat.zero_le _)
  cases Utf8.decode bytes with
  | none => exact .fail _
  | some text => exact .pure _

theorem text_follows : Follows 1 text Parser.text := varint_follows.bind utf8_follows

theorem shortText_follows : Follows 1 shortText Parser.shortText := octet_follows.bind fun _ => utf8_follows _

/-! ## Repetition -/

/-- Reads so many entries. -/
def times (entry : Reading α) : Nat → Reading (List α)
  | 0 => return []
  | count + 1 => do
    let a ← entry
    return a :: (← times entry count)

/-- Reads entries while octets are left, in less than `fuel` rounds. -/
def whileLeft (entry : Reading α) : Nat → Reader → Checked DecodeFault (List α)
  | 0, _ => liftM (none : Option (List α))
  | fuel + 1, r => do
    if ← r.isEmpty then return []
    else
      let (a, r) ← entry r
      return a :: (← whileLeft entry fuel r)

theorem times_follows {n : Nat} {m : Reading α} {p : Parser α} (h : Follows n m p) (repeated : Nat → Parser (List α))
    (hzero : repeated 0 = pure [])
    (hsucc : ∀ count, repeated (count + 1) = p >>= fun a => repeated count >>= fun as => pure (a :: as))
    (count : Nat) : Follows 0 (times m count) (repeated count) := by
  induction count with
  | zero => exact hzero ▸ .pure []
  | succ count ih =>
    rw [hsucc]
    exact h.bind (fun a => ih.bind fun as => .pure _) (Nat.zero_le _)

/-- Entries that take an octet each end the loop in time. -/
theorem whileLeft_eq {m : Reading α} {p : Parser α} (h : Follows 1 m p) {fuel : Nat} {r : Reader} (hr : r.Valid)
    (hfuel : r.ahead.length < fuel) : whileLeft m fuel r = safe (Parser.many p r.ahead) := by
  induction fuel generalizing r with
  | zero => cases hfuel
  | succ fuel ih =>
    rw [whileLeft, Parser.many, hr.isEmpty]
    simp only [liftM_some, pure_bind]
    split
    · rfl
    · obtain ⟨fault, hpr, hmr⟩ | ⟨a, count, hleast, hcount, hpr, hmr⟩ := h r hr
      · rw [hpr, hmr]
        rfl
      · have hlt : (r.ahead.drop count).length < r.ahead.length := by rw [List.length_drop]; omega
        have htail := ih (hr.skip hcount) (by rw [Reader.ahead_skip]; omega)
        rw [Reader.ahead_skip] at htail
        rw [hpr, hmr]
        simp only [if_pos hlt]
        show (whileLeft m fuel (r.skip count) >>= fun as => pure (a :: as)) = _
        rw [htail]
        cases Parser.many p (r.ahead.drop count) <;> rfl

end PacketProtocol.Machine
