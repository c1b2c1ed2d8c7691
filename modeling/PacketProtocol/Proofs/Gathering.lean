import Mathlib.Data.List.DropRight
import PacketProtocol.Proofs.Batching
import PacketProtocol.Proofs.Machine.Operations
/-!
# Batches are put together

Payloads are added to a batcher, and it is flushed and cleared, in any order. What waits in it can be read off the
history of these operations, and so can every message that it gives. On the machine what waits is one string of
octets, the next message, beside a word that counts the payloads in it; the messages are the same.
-/

namespace PacketProtocol

open scoped Numerals

namespace Batcher

/-! ## Histories -/

/-- What can be done with a batcher. -/
inductive Operation where
  | add (payload : Bytes)
  | flush
  | clear

/-- The message that an operation gives, if any, or why it failed. -/
abbrev Answer := Except EncodeFault (Option Bytes)

/-- The operations so far, each with its answer. -/
abbrev History := List (Operation × Answer)

/-- Does one operation. A payload that cannot be added leaves the batcher as it is. -/
def perform (batcher : Batcher) : Operation → Answer × Batcher
  | .add payload =>
    match batcher.add payload with
    | .error fault => (.error fault, batcher)
    | .ok (message, batcher) => (.ok message, batcher)
  | .flush => (.ok batcher.flush.1, batcher.flush.2)
  | .clear => (.ok none, batcher.clear)

/-- Does one operation after the other. -/
def run (batcher : Batcher) : List Operation → History × Batcher
  | [] => ([], batcher)
  | operation :: rest =>
    let (answer, next) := batcher.perform operation
    let (history, last) := next.run rest
    ((operation, answer) :: history, last)

/-- Whether nothing waits after an operation, whatever waited before. -/
def Operation.empties : Operation → Bool
  | add _ => false
  | flush | clear => true

/-- The payload that an operation left waiting. -/
def kept? : Operation × Answer → Option Bytes
  | (.add payload, .ok none) => some payload
  | _ => none

/-- The payloads left waiting since the last flush or clear, oldest first. -/
def gathered (history : History) : List Bytes :=
  (history.rtakeWhile fun entry => !entry.1.empties).filterMap kept?

/-- The message is the key, and a body that is taken apart into these payloads. -/
def Carries (key : UInt8) (maxBatch : UInt32) (message : Bytes) (payloads : List Bytes) : Prop :=
  ∃ body, message = key :: body ∧ ∀ tag, unravel tag body maxBatch = .ok payloads

/-- What an operation answers after a history. -/
inductive Answers (key : UInt8) (maxBatch : UInt32) (past : History) : Operation → Answer → Prop
  /-- The payload's length has no varint. -/
  | tooLong {payload : Bytes} : Varint.bound ≤ payload.length →
      Answers key maxBatch past (.add payload) (.error (.varintRange payload.length Varint.bound))
  /-- There is room, and the payload waits. -/
  | kept {payload : Bytes} : payload.length < Varint.bound →
      (0 < maxBatch → (gathered past).length < maxBatch.toNat) → Answers key maxBatch past (.add payload) (.ok none)
  /-- As many wait as may, and the payload goes by itself. -/
  | alone {payload message : Bytes} : payload.length < Varint.bound → 0 < maxBatch →
      (gathered past).length = maxBatch.toNat → Carries key maxBatch message [payload] →
      Answers key maxBatch past (.add payload) (.ok (some message))
  /-- All that waits goes. -/
  | flushed {message : Bytes} : gathered past ≠ [] → Carries key maxBatch message (gathered past) →
      Answers key maxBatch past .flush (.ok (some message))
  | nothing : gathered past = [] → Answers key maxBatch past .flush (.ok none)
  | cleared : Answers key maxBatch past .clear (.ok none)

variable {key : UInt8} {maxBatch : UInt32} {past : History}

theorem gathered_concat (past : History) (entry : Operation × Answer) :
    gathered (past ++ [entry]) = if entry.1.empties then [] else gathered past ++ (kept? entry).toList := by
  unfold gathered
  rw [List.rtakeWhile_concat]
  cases entry.1.empties with
  | true => simp
  | false =>
    simp only [Bool.not_false, if_true, Bool.false_eq_true, if_false, List.filterMap_append]
    cases hkept : kept? entry <;> simp [hkept]

theorem length_gathered_le (history : History) : (gathered history).length ≤ history.length :=
  Nat.le_trans (List.length_filterMap_le _ _) (List.rtakeWhile_suffix _ history).length_le

/-- What waits can be sent, and is not more than may wait. -/
structure Sound (maxBatch : UInt32) (history : History) : Prop where
  short : ∀ payload ∈ gathered history, payload.length < Varint.bound
  room : 0 < maxBatch → (gathered history).length ≤ maxBatch.toNat

theorem sound_nil (maxBatch : UInt32) : Sound maxBatch [] := ⟨nofun, fun _ => Nat.zero_le _⟩

theorem Sound.emptied {entry : Operation × Answer} (h : entry.1.empties = true) :
    Sound maxBatch (past ++ [entry]) := by
  constructor <;> rw [gathered_concat, if_pos h]
  · nofun
  · intro _
    exact Nat.zero_le _

theorem Sound.unchanged {entry : Operation × Answer} (h : Sound maxBatch past)
    (hsame : gathered (past ++ [entry]) = gathered past) : Sound maxBatch (past ++ [entry]) := by
  constructor <;> rw [hsame]
  · exact h.short
  · exact h.room

theorem Sound.kept {payload : Bytes} (h : Sound maxBatch past) (hlt : payload.length < Varint.bound)
    (hroom : 0 < maxBatch → (gathered past).length < maxBatch.toNat) :
    Sound maxBatch (past ++ [(.add payload, .ok none)]) := by
  have hgathered : gathered (past ++ [(.add payload, .ok none)]) = gathered past ++ [payload] := by
    rw [gathered_concat]
    rfl
  constructor <;> rw [hgathered]
  · intro p hp
    rcases List.mem_append.1 hp with hp | hp
    · exact h.short p hp
    · obtain rfl := List.mem_singleton.1 hp
      exact hlt
  · intro hpos
    have := hroom hpos
    simp only [List.length_append, List.length_singleton]
    omega

theorem carries_message {payloads : List Bytes} (hne : payloads ≠ [])
    (hlt : ∀ payload ∈ payloads, payload.length < Varint.bound)
    (hroom : 0 < maxBatch → payloads.length ≤ maxBatch.toNat) :
    Carries key maxBatch (message key payloads) payloads :=
  ⟨_, rfl, fun _ => unravel_flatMap hne hlt hroom⟩

theorem isFull_iff {batcher : Batcher} :
    batcher.isFull = true ↔ 0 < batcher.maxBatch ∧ batcher.maxBatch.toNat ≤ batcher.size := by
  simp [isFull]

theorem isFull_gathered (h : Sound maxBatch past) :
    (Batcher.mk key maxBatch (gathered past)).isFull = true ↔
      0 < maxBatch ∧ (gathered past).length = maxBatch.toNat := by
  rw [isFull_iff]
  constructor
  · rintro ⟨hpos, hle⟩
    exact ⟨hpos, Nat.le_antisymm (h.room hpos) hle⟩
  · rintro ⟨hpos, heq⟩
    exact ⟨hpos, Nat.le_of_eq heq.symm⟩

/-- One operation answers as the history says, and the batcher goes on with the longer history. -/
theorem perform_gathered (key : UInt8) (h : Sound maxBatch past) (operation : Operation) :
    ∃ answer, perform ⟨key, maxBatch, gathered past⟩ operation =
        (answer, ⟨key, maxBatch, gathered (past ++ [(operation, answer)])⟩) ∧
      Answers key maxBatch past operation answer ∧ Sound maxBatch (past ++ [(operation, answer)]) := by
  cases operation with
  | add payload =>
    have hsame : ∀ answer : Answer, kept? (.add payload, answer) = none →
        gathered (past ++ [(.add payload, answer)]) = gathered past := by
      intro answer hnone
      rw [gathered_concat, hnone]
      exact List.append_nil _
    by_cases hlong : Varint.bound ≤ payload.length
    · have hgathered := hsame (.error (.varintRange payload.length Varint.bound)) rfl
      refine ⟨_, ?_, .tooLong hlong, h.unchanged hgathered⟩
      rw [hgathered, perform, add, if_pos hlong]
    have hlt : payload.length < Varint.bound := Nat.lt_of_not_le hlong
    by_cases hfull : (Batcher.mk key maxBatch (gathered past)).isFull = true
    · obtain ⟨hpos, heq⟩ := (isFull_gathered h).1 hfull
      have hone : 1 ≤ maxBatch.toNat := UInt32.lt_iff_toNat_lt.1 hpos
      have hgathered := hsame (.ok (some (message key [payload]))) rfl
      refine ⟨_, ?_, .alone hlt hpos heq (carries_message (by simp) (by simpa using hlt) fun _ => hone),
        h.unchanged hgathered⟩
      rw [hgathered, perform, add, if_neg hlong, if_pos hfull]
    · have hroom : 0 < maxBatch → (gathered past).length < maxBatch.toNat := by
        intro hpos
        refine Nat.lt_of_le_of_ne (h.room hpos) ?_
        intro heq
        exact hfull ((isFull_gathered h).2 ⟨hpos, heq⟩)
      refine ⟨.ok none, ?_, .kept hlt hroom, h.kept hlt hroom⟩
      rw [gathered_concat, perform, add, if_neg hlong, if_neg hfull]
      rfl
  | flush =>
    rcases List.eq_nil_or_concat' (gathered past) with hnil | ⟨_, _, hsome⟩
    · refine ⟨.ok none, ?_, .nothing hnil, .emptied rfl⟩
      rw [gathered_concat, hnil]
      rfl
    · have hne : gathered past ≠ [] := by simp [hsome]
      refine ⟨.ok (some (message key (gathered past))), ?_, .flushed hne (carries_message hne h.short h.room),
        .emptied rfl⟩
      rw [gathered_concat, perform, flush, if_neg (by simp [hne])]
      rfl
  | clear =>
    refine ⟨.ok none, ?_, .cleared, .emptied rfl⟩
    rw [gathered_concat]
    rfl

/-- What all operations answer, and that the history is sound at every moment. -/
theorem run_gathered (h : Sound maxBatch past) (operations : List Operation) :
    ∃ history, run ⟨key, maxBatch, gathered past⟩ operations =
        (history, ⟨key, maxBatch, gathered (past ++ history)⟩) ∧
      history.map Prod.fst = operations ∧
      (∀ before operation answer after, history = before ++ (operation, answer) :: after →
        Answers key maxBatch (past ++ before) operation answer) ∧
      ∀ before, before <+: history → Sound maxBatch (past ++ before) := by
  -- on the operations to come; `past` are those that were done
  induction operations generalizing past with
  | nil =>
    refine ⟨[], by rw [run, List.append_nil], rfl, by simp, ?_⟩
    intro before hbefore
    obtain rfl := List.prefix_nil.1 hbefore
    rwa [List.append_nil]
  | cons operation operations ih =>
    obtain ⟨answer, hperform, hanswers, hsound⟩ := perform_gathered key h operation
    obtain ⟨history, hrun, hoperations, hall, hkept⟩ := ih hsound
    refine ⟨(operation, answer) :: history, ?_, by rw [List.map_cons, hoperations], ?_, ?_⟩
    · rw [run, hperform]
      simp only [hrun, List.append_assoc, List.singleton_append]
    · intro before operation' answer' after hsplit
      cases before with
      | nil =>
        obtain ⟨⟨⟩, -⟩ := List.cons.inj hsplit
        rwa [List.append_nil]
      | cons first before =>
        obtain ⟨rfl, hrest⟩ := List.cons.inj hsplit
        simpa using hall before operation' answer' after hrest
    · intro before hbefore
      cases before with
      | nil => rwa [List.append_nil]
      | cons first before =>
        obtain ⟨rfl, hrest⟩ := List.cons_prefix_cons.1 hbefore
        simpa using hkept before hrest

/-- The same of a batcher in which nothing waits. -/
theorem run_empty (key : UInt8) (maxBatch : UInt32) (operations : List Operation) :
    ∃ history, run ⟨key, maxBatch, []⟩ operations = (history, ⟨key, maxBatch, gathered history⟩) ∧
      history.map Prod.fst = operations ∧
      (∀ before operation answer after, history = before ++ (operation, answer) :: after →
        Answers key maxBatch before operation answer) ∧
      ∀ before, before <+: history → Sound maxBatch before :=
  run_gathered (sound_nil maxBatch) operations

theorem run_append (batcher : Batcher) (front back : List Operation) :
    batcher.run (front ++ back) =
      ((batcher.run front).1 ++ ((batcher.run front).2.run back).1, ((batcher.run front).2.run back).2) := by
  induction front generalizing batcher with
  | nil => rfl
  | cons operation front ih => simp only [List.cons_append, run, ih]

end Batcher

/-! ## The buffer -/

namespace Machine

/-- The payloads of one packet that wait, as the message with them all, and how many they are. -/
structure Accumulator where
  key : UInt8
  maxBatch : UInt32
  buffer : Bytes
  count : Nat
deriving DecidableEq, Repr

namespace Accumulator

/-- Nothing waits, and the buffer is the key. -/
def start (key : UInt8) (maxBatch : UInt32) : Accumulator := ⟨key, maxBatch, [key], 0⟩

/-- Adds a payload to the buffer, or gives it back as a message of its own. -/
def add (a : Accumulator) (payload : Bytes) : Checked EncodeFault (Option Bytes × Accumulator) := do
  if 0 < a.maxBatch ∧ a.maxBatch.toNat ≤ a.count then
    return (some (a.key :: (← safe (Varint.encode payload.length)) ++ payload), a)
  else
    let length ← safe (Varint.encode payload.length)
    return (none, { a with buffer := a.buffer ++ length ++ payload, count := ← Machine.add 32 a.count 1 })

/-- Takes the buffer, unless nothing is in it. -/
def flush (a : Accumulator) : Option Bytes × Accumulator :=
  if a.count = 0 then (none, a) else (some a.buffer, start a.key a.maxBatch)

/-- Cuts the buffer back to the key. -/
def clear (a : Accumulator) : Accumulator := { a with buffer := a.buffer.take 1, count := 0 }

/-- Does one operation. -/
def perform (a : Accumulator) : Batcher.Operation → Option (Batcher.Answer × Accumulator)
  | .add payload => do
    match ← (a.add payload).run with
    | .error fault => return (.error fault, a)
    | .ok (message, a) => return (.ok message, a)
  | .flush => return (.ok a.flush.1, a.flush.2)
  | .clear => return (.ok none, a.clear)

/-- Does one operation after the other. -/
def run (a : Accumulator) : List Batcher.Operation → Option (Batcher.History × Accumulator)
  | [] => return ([], a)
  | operation :: rest => do
    let (answer, next) ← a.perform operation
    let (history, last) ← next.run rest
    return ((operation, answer) :: history, last)

/-- The octets and the count that stand for what waits. -/
def ofBatcher (batcher : Batcher) : Accumulator :=
  ⟨batcher.key, batcher.maxBatch, Batcher.message batcher.key batcher.pending, batcher.size⟩

variable {batcher : Batcher}

theorem message_concat (key : UInt8) (payloads : List Bytes) (payload : Bytes) :
    Batcher.message key (payloads ++ [payload]) =
      Batcher.message key payloads ++ Varint.groups payload.length ++ payload := by
  simp [Batcher.message, Batcher.fragment]

/-- Adding to the buffer is adding to what waits, as long as the counter has room. -/
theorem add_eq (payload : Bytes)
    (hroom : payload.length < Varint.bound → batcher.isFull = false → batcher.size + 1 < 2 ^ (32 : Nat)) :
    (ofBatcher batcher).add payload =
      safe ((batcher.add payload).map fun added => (added.1, ofBatcher added.2)) := by
  unfold add Batcher.add
  by_cases hlong : Varint.bound ≤ payload.length
  · have hencode : Varint.encode payload.length = .error (.varintRange payload.length Varint.bound) :=
      if_neg (Nat.not_lt.2 hlong)
    rw [if_pos hlong, hencode]
    split <;> rfl
  have hlt : payload.length < Varint.bound := Nat.lt_of_not_le hlong
  rw [if_neg hlong, Varint.encode_of_lt hlt]
  by_cases hfull : batcher.isFull = true
  · have hmessage : Batcher.message batcher.key [payload] =
        batcher.key :: Varint.groups payload.length ++ payload := by
      simp [Batcher.message, Batcher.fragment]
    rw [if_pos hfull, hmessage]
    exact if_pos (Batcher.isFull_iff.1 hfull)
  · have hcount : Machine.add 32 batcher.size 1 = some (batcher.size + 1) :=
      add_of_lt (hroom hlt (Bool.not_eq_true _ ▸ hfull))
    rw [if_neg hfull]
    refine (if_neg fun h => hfull (Batcher.isFull_iff.2 h)).trans ?_
    show (liftM (Machine.add 32 batcher.size 1) >>= fun count => _ : Checked EncodeFault _) = _
    rw [hcount]
    simp only [liftM_some, pure_bind, ofBatcher, Except.map, message_concat, Batcher.size, List.length_append]
    rfl

theorem flush_eq (batcher : Batcher) :
    (ofBatcher batcher).flush = (batcher.flush.1, ofBatcher batcher.flush.2) := by
  unfold flush Batcher.flush
  cases hpending : batcher.pending with
  | nil => simp [ofBatcher, Batcher.size, hpending]
  | cons payload payloads =>
    simp [ofBatcher, Batcher.size, hpending, start, Batcher.clear, Batcher.message]

theorem clear_eq (batcher : Batcher) : (ofBatcher batcher).clear = ofBatcher batcher.clear := by
  simp [clear, ofBatcher, Batcher.clear, Batcher.message, Batcher.size]

/-- The counter has room if it has when the operation is done. -/
theorem perform_eq {operation : Batcher.Operation} (hroom : (batcher.perform operation).2.size < 2 ^ (32 : Nat)) :
    (ofBatcher batcher).perform operation =
      some ((batcher.perform operation).1, ofBatcher (batcher.perform operation).2) := by
  cases operation with
  | add payload =>
    have hadd : payload.length < Varint.bound → batcher.isFull = false → batcher.size + 1 < 2 ^ (32 : Nat) := by
      intro hlt hfull
      rw [Batcher.perform, Batcher.add, if_neg (Nat.not_le.2 hlt), if_neg (by simp [hfull])] at hroom
      simpa [Batcher.size] using hroom
    rw [perform, add_eq payload hadd, Batcher.perform]
    cases batcher.add payload <;> rfl
  | flush =>
    rw [perform, flush_eq]
    rfl
  | clear =>
    rw [perform, clear_eq]
    rfl

/-- The buffer gives the same messages, as long as the counter has room at every moment. -/
theorem run_eq {operations : List Batcher.Operation}
    (hroom : ∀ front, front <+: operations → (batcher.run front).2.size < 2 ^ (32 : Nat)) :
    (ofBatcher batcher).run operations =
      some ((batcher.run operations).1, ofBatcher (batcher.run operations).2) := by
  induction operations generalizing batcher with
  | nil => rfl
  | cons operation operations ih =>
    have hfirst : (batcher.perform operation).2.size < 2 ^ (32 : Nat) := hroom [operation] (by simp)
    have hrest := @ih (batcher.perform operation).2 fun front hfront => by
      simpa [Batcher.run] using hroom (operation :: front) (by simpa using hfront)
    rw [run, perform_eq hfirst]
    show ((ofBatcher (batcher.perform operation).2).run operations >>= fun read => _) = _
    rw [hrest]
    rfl

end Accumulator

end Machine

namespace Batcher

/-- Whatever is done with a batcher, every operation answers as its history says: what is flushed is what was left
waiting since the last flush or clear, and a payload goes by itself when as many wait as may. The buffer holds the
message of what waits and never more than may wait, and its counter does not overflow. -/
theorem run_messages (key : UInt8) (maxBatch : UInt32) (operations : List Operation)
    (hfew : maxBatch = 0 → ∀ past, past <+: (run ⟨key, maxBatch, []⟩ operations).1 →
      (gathered past).length < 2 ^ (32 : Nat)) :
    ∃ history, run ⟨key, maxBatch, []⟩ operations = (history, ⟨key, maxBatch, gathered history⟩) ∧
      Machine.Accumulator.run (.start key maxBatch) operations =
        some (history, ⟨key, maxBatch, message key (gathered history), (gathered history).length⟩) ∧
      history.map Prod.fst = operations ∧
      (∀ past operation answer later, history = past ++ (operation, answer) :: later →
        Answers key maxBatch past operation answer) ∧
      (0 < maxBatch → ∀ past, past <+: history → (gathered past).length ≤ maxBatch.toNat) := by
  obtain ⟨history, hrun, hoperations, hall, hsound⟩ := run_empty key maxBatch operations
  refine ⟨history, hrun, ?_, hoperations, hall, fun hpos past hpast => (hsound past hpast).room hpos⟩
  have hroom : ∀ front, front <+: operations → ((mk key maxBatch []).run front).2.size < 2 ^ (32 : Nat) := by
    rintro front ⟨back, rfl⟩
    obtain ⟨past, hfront, -⟩ := run_empty key maxBatch front
    have hpast : past <+: (run ⟨key, maxBatch, []⟩ (front ++ back)).1 := by
      rw [run_append, hfront]
      exact List.prefix_append _ _
    rw [hfront]
    show (gathered past).length < 2 ^ (32 : Nat)
    by_cases hzero : maxBatch = 0
    · exact hfew hzero past hpast
    · rw [hrun] at hpast
      refine Nat.lt_of_le_of_lt ((hsound past hpast).room ?_) maxBatch.toNat_lt
      exact UInt32.pos_iff_ne_zero.2 hzero
  have hbuffer := Machine.Accumulator.run_eq hroom
  rw [hrun] at hbuffer
  exact hbuffer

/-- Three payloads, one of them empty, then a flush, and one more payload that is dropped. -/
def mixed : List Operation := [.add [97], .add [], .add [98, 99], .flush, .add [100], .clear, .flush]

/-- Without a limit all three go in one message; with a limit of two the third goes by itself. -/
theorem run_messages_mixed :
    ((0 : UInt32) = 0 → ∀ past, past <+: (run ⟨4, 0, []⟩ mixed).1 → (gathered past).length < 2 ^ (32 : Nat)) ∧
      (run ⟨4, 0, []⟩ mixed).1 = mixed.zip
        [.ok none, .ok none, .ok none, .ok (some [4, 1, 97, 0, 2, 98, 99]), .ok none, .ok none, .ok none] ∧
      (run ⟨4, 2, []⟩ mixed).1 = mixed.zip
        [.ok none, .ok none, .ok (some [4, 2, 98, 99]), .ok (some [4, 1, 97, 0]), .ok none, .ok none, .ok none] ∧
      ∃ history, run ⟨4, 0, []⟩ mixed = (history, ⟨4, 0, gathered history⟩) ∧
        Machine.Accumulator.run (.start 4 0) mixed =
          some (history, ⟨4, 0, message 4 (gathered history), (gathered history).length⟩) ∧
        history.map Prod.fst = mixed ∧
        (∀ past operation answer later, history = past ++ (operation, answer) :: later →
          Answers 4 0 past operation answer) ∧
        (0 < (0 : UInt32) → ∀ past, past <+: history → (gathered past).length ≤ (0 : UInt32).toNat) := by
  have hlength : (run ⟨4, 0, []⟩ mixed).1.length < 2 ^ (32 : Nat) := by decide
  have hfew : (0 : UInt32) = 0 →
      ∀ past, past <+: (run ⟨4, 0, []⟩ mixed).1 → (gathered past).length < 2 ^ (32 : Nat) := by
    intro _ past hpast
    exact Nat.lt_of_le_of_lt (Nat.le_trans (length_gathered_le past) hpast.length_le) hlength
  refine ⟨hfew, ?_, ?_, run_messages 4 0 mixed hfew⟩
  all_goals simp [mixed, run, perform, add, flush, clear, isFull, size, message, fragment, Varint.bound,
    Varint.groups_small]

end Batcher

end PacketProtocol
