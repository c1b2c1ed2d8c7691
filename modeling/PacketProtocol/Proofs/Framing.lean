import PacketProtocol.Drive
import PacketProtocol.Proofs.Record
/-!
# Frames on a stream

What a drive puts on its stream is the frames of what it took from its outbox, one after the other, up to the
first that it could not write. However the octets of a stream of frames arrive, a reader takes the messages of
those frames that have arrived whole, in their order, and holds the octets behind them.
-/

namespace PacketProtocol

/-- A message behind its length. -/
def frame (message : Bytes) : Bytes := Bytes.bigEndian 4 message.length ++ message

/-- The octets of messages on a stream. -/
def frames (messages : List Bytes) : Bytes := messages.flatMap frame

@[simp]
theorem frames_append (front back : List Bytes) : frames (front ++ back) = frames front ++ frames back :=
  List.flatMap_append

@[simp]
theorem frames_cons (message : Bytes) (messages : List Bytes) :
    frames (message :: messages) = frame message ++ frames messages :=
  List.flatMap_cons

theorem length_frame (message : Bytes) : (frame message).length = 4 + message.length := by
  rw [frame, List.length_append, Bytes.length_bigEndian]

/-- What is written of something that was taken from an outbox. -/
def Outgoing.body : Outgoing → Bytes
  | .message bytes => bytes
  | .close code reason => CloseNotice.encode ⟨code, reason⟩

/-! ## Writing -/

namespace FrameWriter

variable {w w' : FrameWriter} {result : Result Unit}

/-- All that was put on the stream, written out or not. -/
def stream (w : FrameWriter) : Bytes := w.written ++ w.buffer

theorem stream_flush (w : FrameWriter) : w.flush.2.stream = w.stream := by
  unfold flush
  split
  · rfl
  · split
    · rfl
    · exact List.append_nil _

/-- To put a message on the stream is to append its frame, or to fail and leave the stream as it is. -/
theorem stream_append {message : Bytes} (h : w.append message = (result, w')) :
    (result = .ok () ∧ message.length ≤ maxFrameLength ∧ w'.stream = w.stream ++ frame message) ∨
      (∃ error, result = .error error) ∧ w'.stream = w.stream := by
  unfold append at h
  split at h
  · cases h
    exact .inr ⟨⟨_, rfl⟩, rfl⟩
  · rename_i hfits
    cases h
    exact .inl ⟨rfl, Nat.not_lt.1 hfits, (List.append_assoc _ _ _).symm⟩

theorem stream_push {message : Bytes} (h : w.push message = (result, w')) :
    (result = .ok () ∧ message.length ≤ maxFrameLength ∧ w'.stream = w.stream ++ frame message) ∨
      (∃ error, result = .error error) ∧ w'.stream = w.stream := by
  have hflushed := w.stream_flush
  unfold push at h
  split at h
  · exact stream_append h
  · split at h
    · rename_i hflush
      rw [hflush] at hflushed
      rw [← hflushed]
      exact stream_append h
    · rename_i hflush
      rw [hflush] at hflushed
      cases h
      exact .inr ⟨⟨_, rfl⟩, hflushed⟩

end FrameWriter

/-- All of the outbox is put on the stream, or what comes before a close or a failure. -/
theorem Drive.stream_writeAll {w w' : FrameWriter} {outs : List Outgoing} {result : Result (Option CloseCode)}
    (h : writeAll w outs = (result, w')) :
    ∃ fed, fed <+: outs ∧ (∀ out ∈ fed, out.body.length ≤ maxFrameLength) ∧
      w'.stream = w.stream ++ frames (fed.map Outgoing.body) ∧ (result = .ok none → fed = outs) := by
  induction outs generalizing w with
  | nil =>
    have hflushed := w.stream_flush
    cases hflush : w.flush with
    | mk flushed w₁ =>
      simp only [writeAll, hflush, Prod.mk.injEq] at h
      obtain ⟨-, rfl⟩ := h
      rw [hflush] at hflushed
      exact ⟨[], List.prefix_rfl, nofun, by rw [hflushed]; exact (List.append_nil _).symm, fun _ => rfl⟩
  | cons out outs ih =>
    cases hpush : w.push out.body with
    | mk pushed w₁ =>
      obtain ⟨rfl, hfits, hstream⟩ | ⟨⟨error, rfl⟩, hstream⟩ := FrameWriter.stream_push hpush
      · cases out with
        | message message =>
          simp only [Outgoing.body] at hpush
          simp only [writeAll, hpush] at h
          obtain ⟨fed, hprefix, hfed, hrest, hall⟩ := ih h
          refine ⟨.message message :: fed, List.cons_prefix_cons.2 ⟨rfl, hprefix⟩,
            List.forall_mem_cons.2 ⟨hfits, hfed⟩, ?_, fun hnone => by rw [hall hnone]⟩
          rw [hrest, hstream, List.append_assoc]
          rfl
        | close code reason =>
          have hflushed := w₁.stream_flush
          simp only [Outgoing.body] at hpush
          cases hflush : w₁.flush with
          | mk flushed w₂ =>
            simp only [writeAll, hpush, hflush, Prod.mk.injEq] at h
            obtain ⟨rfl, rfl⟩ := h
            rw [hflush] at hflushed
            refine ⟨[.close code reason], ⟨outs, rfl⟩, by simpa using hfits, ?_, fun hnone => ?_⟩
            · rw [hflushed, hstream]
              simp [frames]
            · cases flushed <;> cases hnone
      · have hfailed : result = .error error ∧ w' = w₁ := by
          cases out with
          | message message =>
            simp only [Outgoing.body] at hpush
            simpa [writeAll, hpush, eq_comm] using h
          | close code reason =>
            simp only [Outgoing.body] at hpush
            simpa [writeAll, hpush, eq_comm] using h
        obtain ⟨rfl, rfl⟩ := hfailed
        exact ⟨[], List.nil_prefix, nofun, by rw [hstream]; exact (List.append_nil _).symm, nofun⟩

/-! ## Reading -/

namespace FrameReader

variable {r : FrameReader}

/-- The octets that a reader was given and did not hand on. -/
def held (r : FrameReader) : Bytes :=
  match r.expected with
  | none => r.buffer
  | some length => Bytes.bigEndian 4 length ++ r.buffer

/-- A length that was read is one that a frame may have. -/
def Proper (r : FrameReader) : Prop := ∀ length ∈ r.expected, length ≤ maxFrameLength

theorem held_push (r : FrameReader) (bytes : Bytes) : (r.push bytes).held = r.held ++ bytes := by
  unfold held push
  dsimp only
  split
  · rfl
  · exact (List.append_assoc _ _ _).symm

theorem Proper.push (h : r.Proper) (bytes : Bytes) : (r.push bytes).Proper := h

theorem toNat_length {length : Nat} (h : length ≤ maxFrameLength) : Bytes.toNat (Bytes.bigEndian 4 length) = length :=
  Bytes.toNat_bigEndian (Nat.lt_of_le_of_lt h (by decide))

/-- What is read next depends on the octets that are held alone. -/
theorem next_eq (h : r.Proper) :
    r.next =
      if r.held.length < 4 then .ok (none, r)
      else if maxFrameLength < Bytes.toNat (r.held.take 4) then .error frameTooBig
      else .ok (takeMessage (Bytes.toNat (r.held.take 4)) (r.held.drop 4)) := by
  obtain ⟨buffer, expected⟩ := r
  cases expected with
  | none => rfl
  | some length =>
    have hlength : length ≤ maxFrameLength := h length rfl
    have htake : (Bytes.bigEndian 4 length ++ buffer).take 4 = Bytes.bigEndian 4 length :=
      List.take_left' (Bytes.length_bigEndian 4 length)
    have hdrop : (Bytes.bigEndian 4 length ++ buffer).drop 4 = buffer :=
      List.drop_left' (Bytes.length_bigEndian 4 length)
    simp only [next, held, htake, hdrop, toNat_length hlength, List.length_append, Bytes.length_bigEndian]
    rw [if_neg (by omega), if_neg (by omega)]

/-- A frame that is there is taken. -/
theorem next_frame (h : r.Proper) {message rest : Bytes} (hfits : message.length ≤ maxFrameLength)
    (hheld : r.held = frame message ++ rest) : r.next = .ok (some message, ⟨rest, none⟩) := by
  have htake : r.held.take 4 = Bytes.bigEndian 4 message.length := by
    rw [hheld, frame, List.append_assoc]
    exact List.take_left' (Bytes.length_bigEndian 4 _)
  have hdrop : r.held.drop 4 = message ++ rest := by
    rw [hheld, frame, List.append_assoc]
    exact List.drop_left' (Bytes.length_bigEndian 4 _)
  have hlength : r.held.length = 4 + message.length + rest.length := by
    rw [hheld, List.length_append, length_frame]
  rw [next_eq h, htake, hdrop, toNat_length hfits, if_neg (by omega), if_neg (by omega), takeMessage,
    if_neg (by simp), List.take_left, List.drop_left]

/-- The beginning of a frame is kept. -/
theorem next_partial (h : r.Proper) {message : Bytes} (hfits : message.length ≤ maxFrameLength)
    (hheld : r.held <+: frame message) (hshort : r.held.length < (frame message).length) :
    ∃ r', r.next = .ok (none, r') ∧ r'.held = r.held ∧ r'.Proper := by
  rw [next_eq h]
  by_cases hfew : r.held.length < 4
  · rw [if_pos hfew]
    exact ⟨r, rfl, rfl, h⟩
  · have hfour : (Bytes.bigEndian 4 message.length).length = 4 := Bytes.length_bigEndian 4 _
    have htake : r.held.take 4 = Bytes.bigEndian 4 message.length := by
      rw [List.prefix_iff_eq_take.1 hheld, List.take_take, Nat.min_eq_left (by omega), frame]
      exact List.take_left' hfour
    rw [length_frame] at hshort
    rw [if_neg hfew, htake, toNat_length hfits, if_neg (by omega), takeMessage,
      if_pos (by rw [List.length_drop]; omega)]
    refine ⟨_, rfl, ?_, ?_⟩
    · show Bytes.bigEndian 4 message.length ++ r.held.drop 4 = r.held
      rw [← htake, List.take_append_drop]
    · intro length hlength
      obtain rfl := Option.some.inj hlength
      exact hfits

theorem messages_of_none {rest : FrameReader} (h : r.next = .ok (none, rest)) : r.messages = ([], .ok rest) := by
  rw [messages]
  split
  · rename_i hnext
    cases h.symm.trans hnext
  · rename_i hnext
    cases h.symm.trans hnext
    rfl
  · rename_i hnext
    cases h.symm.trans hnext

theorem messages_of_some {message : Bytes} {rest : FrameReader} (h : r.next = .ok (some message, rest)) :
    r.messages = (message :: rest.messages.1, rest.messages.2) := by
  rw [messages]
  split
  · rename_i hnext
    cases h.symm.trans hnext
  · rename_i hnext
    cases h.symm.trans hnext
  · rename_i hnext
    cases h.symm.trans hnext
    rfl

/-- Messages whose frames are to come, and of the first of them the reader does not hold all. -/
structure Awaits (r : FrameReader) (messages : List Bytes) : Prop where
  proper : r.Proper
  held : r.held <+: frames messages
  short : ∀ message ∈ messages.head?, r.held.length < (frame message).length

theorem awaits_new (messages : List Bytes) : Awaits {} messages :=
  ⟨nofun, List.nil_prefix, fun message _ => by
    rw [length_frame]
    exact Nat.add_pos_left (by decide) _⟩

/-- No frame that is to come is there. -/
theorem Awaits.eq_nil {messages : List Bytes} (h : r.Awaits messages) {front : List Bytes}
    (hfront : front <+: messages ∨ messages <+: front) (hwhole : frames front <+: r.held) : front = [] := by
  cases front with
  | nil => rfl
  | cons next front =>
    rw [frames_cons] at hwhole
    have hlong := ((List.prefix_append _ _).trans hwhole).length_le
    cases messages with
    | nil =>
      have hnone : r.held = [] := List.prefix_nil.1 h.held
      rw [hnone, length_frame, List.length_nil] at hlong
      omega
    | cons first messages =>
      have hsame : next = first :=
        hfront.elim (fun h => (List.cons_prefix_cons.1 h).1) fun h => (List.cons_prefix_cons.1 h).1.symm
      have hshort := h.short first rfl
      rw [hsame] at hlong
      omega

/-- The messages whose frames are there are taken. -/
theorem messages_eq (h : r.Proper) {messages : List Bytes}
    (hfits : ∀ message ∈ messages, message.length ≤ maxFrameLength) (hheld : r.held <+: frames messages) :
    ∃ taken rest last, messages = taken ++ rest ∧ r.messages = (taken, .ok last) ∧
      r.held = frames taken ++ last.held ∧ last.Awaits rest := by
  induction messages generalizing r with
  | nil =>
    have hnil : r.held = [] := List.prefix_nil.1 hheld
    have hnext : r.next = .ok (none, r) := by rw [next_eq h, hnil, if_pos (by decide)]
    exact ⟨[], [], r, rfl, messages_of_none hnext, rfl, h, hheld, nofun⟩
  | cons message messages ih =>
    obtain ⟨hfits, hrest⟩ := List.forall_mem_cons.1 hfits
    rw [frames_cons] at hheld
    by_cases hshort : r.held.length < (frame message).length
    · have hbegun := List.prefix_of_prefix_length_le hheld (List.prefix_append _ _) (Nat.le_of_lt hshort)
      obtain ⟨last, hnext, hsame, hproper⟩ := next_partial h hfits hbegun hshort
      refine ⟨[], message :: messages, last, rfl, messages_of_none hnext, hsame.symm, hproper, ?_, ?_⟩
      · rw [hsame, frames_cons]
        exact hheld
      · intro first hfirst
        obtain rfl := Option.some.inj hfirst
        exact hsame ▸ hshort
    · obtain ⟨after, hafter⟩ :=
        List.prefix_of_prefix_length_le (List.prefix_append _ _) hheld (Nat.not_lt.1 hshort)
      have hnext := next_frame h hfits hafter.symm
      rw [← hafter] at hheld
      have hlater : held ⟨after, none⟩ <+: frames messages := (List.prefix_append_right_inj _).1 hheld
      obtain ⟨taken, rest, last, rfl, hmessages, hsplit, hawaits⟩ := ih (r := ⟨after, none⟩) nofun hrest hlater
      refine ⟨message :: taken, rest, last, rfl, ?_, ?_, hawaits⟩
      · rw [messages_of_some hnext, hmessages]
      · have hsplit : after = frames taken ++ last.held := hsplit
        rw [← hafter, hsplit, frames_cons, List.append_assoc]

/-- Messages taken from octets that arrive piece by piece, up to a frame that is refused. -/
def receive (r : FrameReader) : List Bytes → List Bytes × Except String FrameReader
  | [] => ([], .ok r)
  | piece :: pieces =>
    match (r.push piece).messages with
    | (messages, .error text) => (messages, .error text)
    | (messages, .ok rest) =>
      let (others, last) := rest.receive pieces
      (messages ++ others, last)

/-- However the octets arrive, the messages whose frames have arrived are taken. -/
theorem receive_eq {messages : List Bytes} (h : r.Awaits messages)
    (hfits : ∀ message ∈ messages, message.length ≤ maxFrameLength) {pieces : List Bytes}
    (hpieces : r.held ++ pieces.flatten <+: frames messages) :
    ∃ taken rest last, messages = taken ++ rest ∧ r.receive pieces = (taken, .ok last) ∧
      r.held ++ pieces.flatten = frames taken ++ last.held ∧ last.Awaits rest := by
  induction pieces generalizing r messages with
  | nil => exact ⟨[], messages, r, rfl, rfl, List.append_nil _, h⟩
  | cons piece pieces ih =>
    rw [List.flatten_cons, ← List.append_assoc, ← held_push] at hpieces ⊢
    have hheld : (r.push piece).held <+: frames messages := (List.prefix_append _ _).trans hpieces
    obtain ⟨taken, rest, last, rfl, hmessages, hsplit, hawaits⟩ := messages_eq (h.proper.push piece) hfits hheld
    rw [hsplit, frames_append, List.append_assoc, List.prefix_append_right_inj] at hpieces
    obtain ⟨taken', rest', last', rfl, hreceive, hsplit', hawaits'⟩ :=
      ih hawaits (fun message hmem => hfits message (List.mem_append_right _ hmem)) hpieces
    refine ⟨taken ++ taken', rest', last', (List.append_assoc _ _ _).symm, ?_, ?_, hawaits'⟩
    · simp only [receive, hmessages, hreceive]
    · rw [hsplit, List.append_assoc, hsplit', frames_append, List.append_assoc]

/-- One more piece is read by what is left after those before. -/
theorem receive_concat {pieces : List Bytes} {piece : Bytes} {messages : List Bytes} {last : FrameReader}
    (h : r.receive pieces = (messages, .ok last)) :
    r.receive (pieces ++ [piece]) = (messages ++ (last.push piece).messages.1, (last.push piece).messages.2) := by
  induction pieces generalizing r messages with
  | nil =>
    cases h
    cases hmessages : (last.push piece).messages with
    | mk first rest => cases rest <;> simp [receive, hmessages]
  | cons first pieces ih =>
    cases hfirst : (r.push first).messages with
    | mk taken rest =>
      simp only [receive, hfirst] at h
      cases rest with
      | error text => cases h
      | ok rest =>
        cases hrest : rest.receive pieces with
        | mk others last' =>
          simp only [hrest, Prod.mk.injEq] at h
          obtain ⟨rfl, rfl⟩ := h
          simp only [List.cons_append, receive, hfirst, ih hrest, List.append_assoc]

end FrameReader

end PacketProtocol
