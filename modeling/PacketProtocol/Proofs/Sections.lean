import PacketProtocol.Proofs.Payload
import PacketProtocol.Schema.Codec
/-!
# Sections of an object

What the sender's checks leave of an object: for each slot a group of values within its bounds, and
behind its length what they were encoded to. Everything a receiver checks of the sections follows.
-/

namespace PacketProtocol

/-- The values a receiver has of those sent in a slot. -/
def Slot.canonical (slot : Slot) (values : List Value) : List Value := slot.kind.canonical slot.max.toNat values

namespace Slot

theorem admits_iff {slot : Slot} {count : Nat} :
    slot.admits count = true ↔ slot.min.toNat ≤ count ∧ count ≤ slot.max.toNat := by
  simp [admits]

theorem checkArity_eq_ok {slot : Slot} {tag : String} {count : Nat} :
    slot.checkArity tag count = .ok () ↔ slot.min.toNat ≤ count ∧ count ≤ slot.max.toNat := by
  rw [← admits_iff, checkArity]
  split <;> simp [*]

/-- Values within the bounds of a slot, and their payload. -/
structure Sends (slot : Slot) (values : List Value) (payload : Bytes) : Prop where
  kind : slot.kind.Declared
  encode : slot.kind.encode values = .ok payload
  min_le : slot.min.toNat ≤ slot.count values
  le_max : slot.count values ≤ slot.max.toNat

variable {slot : Slot} {values : List Value} {payload : Bytes}

theorem Sends.decode (h : slot.Sends values payload) :
    slot.kind.decode payload slot.max.toNat = .ok (slot.canonical values) :=
  PayloadKind.decode_encode h.kind h.encode h.le_max

theorem Sends.fits (h : slot.Sends values payload) : slot.kind.fits payload slot.max.toNat = true :=
  (PayloadKind.carries h.kind h.encode h.le_max).fits

theorem Sends.min_le_canonical (h : slot.Sends values payload) : slot.min.toNat ≤ slot.count (slot.canonical values) :=
  Nat.le_trans h.min_le (PayloadKind.count_le_canonical h.encode h.le_max).1

end Slot

namespace Schema

/-- Groups of values within the bounds of their slots, and the sections they are sent in. -/
inductive Sections : List Slot → List (List Value) → Bytes → Prop
  | nil : Sections [] [] []
  | cons {slot : Slot} {slots : List Slot} {values : List Value} {groups : List (List Value)} {payload bytes : Bytes} :
      slot.Sends values payload → payload.length ≤ maxSection → Sections slots groups bytes →
        Sections (slot :: slots) (values :: groups) (UInt8.ofNat payload.length :: payload ++ bytes)

theorem encodeSection_eq_ok {tag : String} {slot : Slot} {values : List Value} {bytes : Bytes} :
    encodeSection tag slot values = .ok bytes ↔ ∃ payload, slot.kind.encode values = .ok payload ∧
      payload.length ≤ maxSection ∧ UInt8.ofNat payload.length :: payload = bytes := by
  unfold encodeSection
  rw [Outcome.bind_eq_ok]
  refine exists_congr fun payload => and_congr_right fun _ => ?_
  by_cases h : maxSection < payload.length
  · rw [if_pos h]
    exact iff_of_false nofun fun h' => absurd h'.1 (Nat.not_le.2 h)
  · rw [if_neg h]
    exact ⟨fun h' => ⟨Nat.le_of_not_lt h, Outcome.pure_eq_ok.1 h'⟩, fun h' => Outcome.pure_eq_ok.2 h'.2⟩

/-- The sender's checks make the sections what they should be. -/
theorem sections_of_encode {tag : String} {slots : List Slot} {groups : List (List Value)} {bytes : Bytes}
    (hkinds : ∀ slot ∈ slots, slot.kind.Declared) (hlength : groups.length = slots.length)
    (harity : checkArities tag slots groups = .ok ()) (h : encodeSections tag slots groups = .ok bytes) :
    Sections slots groups bytes := by
  induction slots generalizing groups bytes with
  | nil =>
    obtain rfl := List.length_eq_zero_iff.1 hlength
    cases h
    exact .nil
  | cons slot slots ih =>
    rcases groups with _ | ⟨values, groups⟩
    · cases hlength
    obtain ⟨⟨⟩, hslot, harity⟩ := Outcome.bind_eq_ok.1 harity
    obtain ⟨hmin, hmax⟩ := Slot.checkArity_eq_ok.1 hslot
    obtain ⟨first, hfirst, h⟩ := Outcome.bind_eq_ok.1 h
    obtain ⟨rest, hrest, h⟩ := Outcome.bind_eq_ok.1 h
    obtain rfl := Outcome.pure_eq_ok.1 h
    obtain ⟨payload, hpayload, hle, rfl⟩ := encodeSection_eq_ok.1 hfirst
    have hsends : slot.Sends values payload := ⟨hkinds slot (by simp), hpayload, hmin, hmax⟩
    exact .cons hsends hle (ih (fun s hs => hkinds s (by simp [hs])) (Nat.succ.inj hlength) harity hrest)

variable {slots : List Slot} {groups : List (List Value)} {bytes : Bytes}

theorem section?_cons (length : UInt8) (rest : Bytes) : section? (length :: rest) =
    if length.toNat ≤ rest.length then .ok (rest.take length.toNat, rest.drop length.toNat)
    else .error .sectionLength := by
  by_cases hle : length.toNat ≤ rest.length
  · have htake : Parser.take length.toNat rest = .ok (rest.take length.toNat, rest.drop length.toNat) := if_pos hle
    simp only [section?, bind, StateT.bind, Except.bind, Parser.octet, get, getThe, MonadStateOf.get, StateT.get,
      pure, Except.pure, htake, if_pos hle]
    rfl
  · have htake : Parser.take length.toNat rest = .error .unexpectedEnd := if_neg hle
    simp only [section?, bind, StateT.bind, Except.bind, Parser.octet, get, getThe, MonadStateOf.get, StateT.get,
      pure, Except.pure, htake, if_neg hle]
    rfl

theorem section_reads {payload : Bytes} (h : payload.length ≤ maxSection) :
    Parser.Reads section? (UInt8.ofNat payload.length :: payload) payload := by
  have hn : (UInt8.ofNat payload.length).toNat = payload.length := UInt8.toNat_ofNat_of_lt' (Nat.lt_succ_of_le h)
  intro rest
  have hle : payload.length ≤ (payload ++ rest).length := by simp
  rw [List.cons_append, section?_cons, hn, if_pos hle, List.take_left, List.drop_left]

theorem Sections.length_eq (h : Sections slots groups bytes) : groups.length = slots.length := by
  induction h with
  | nil => rfl
  | cons _ _ _ ih => rw [List.length_cons, List.length_cons, ih]

/-- The receiver's columns: what arrives of each group. -/
theorem Sections.reads (h : Sections slots groups bytes) :
    (columnsParser slots).Reads bytes (List.zipWith Slot.canonical slots groups) := by
  induction h with
  | nil => exact .pure []
  | cons hsends hle _ ih =>
    refine (section_reads hle).bind ?_
    rw [hsends.decode]
    refine (Parser.Reads.pure _).after ?_
    exact ih.andThen (.pure _)

theorem Sections.fit (h : Sections slots groups bytes) : sectionsFit slots bytes = true := by
  induction h with
  | nil => rfl
  | @cons slot slots values groups payload bytes hsends hle _ ih =>
    have hn : (UInt8.ofNat payload.length).toNat = payload.length := UInt8.toNat_ofNat_of_lt' (Nat.lt_succ_of_le hle)
    simp only [List.cons_append, sectionsFit, hn]
    simp [hsends.fits, ih]

theorem Sections.meetMinimums (h : Sections slots groups bytes) :
    meetMinimums slots (List.zipWith Slot.canonical slots groups) = true := by
  induction h with
  | nil => rfl
  | cons hsends _ _ ih =>
    simp only [Schema.meetMinimums, List.zipWith_cons_cons, List.all_cons, id_eq, Bool.and_eq_true,
      decide_eq_true_eq] at ih ⊢
    exact ⟨hsends.min_le_canonical, ih⟩

end Schema

end PacketProtocol
