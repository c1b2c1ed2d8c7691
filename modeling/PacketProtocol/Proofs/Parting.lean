import PacketProtocol.Proofs.Driving
import PacketProtocol.Proofs.Framing
import PacketProtocol.Proofs.Lossless
import PacketProtocol.Proofs.Marking
/-!
# Close notices are told apart

A drive writes messages and close notices to one stream, and the peer's drive tells them apart by the first octet.
No session writes a message that begins like a notice, so the peer takes for a notice exactly what was written as
one, and reads its code and its reason.
-/

namespace PacketProtocol

/-! ## What is read of what was written -/

theorem Ordinary.decode?_eq_none {message : Bytes} (h : Ordinary message) : CloseNotice.decode? message = none := by
  obtain ⟨first, body, rfl, hfirst⟩ := h
  exact if_neg hfirst

/-- What was written is a notice iff it was a close. -/
theorem Unmarked.decode?_body {outs : List Outgoing} (h : Unmarked outs) {out : Outgoing} (hout : out ∈ outs)
    (notice : CloseNotice) :
    CloseNotice.decode? out.body = some notice ↔ out = .close notice.code notice.reason := by
  cases out with
  | message message =>
    rw [Outgoing.body, (h message hout).decode?_eq_none]
    simp
  | close code reason =>
    obtain ⟨code', reason'⟩ := notice
    rw [Outgoing.body, CloseNotice.decode?_encode]
    simp

theorem Endpoint.New.keyed {S : Type} [Scheduler S] {e : Endpoint Outbox S} (h : e.New {}) :
    e.session.Keyed fun outbox => Unmarked outbox.waiting := by
  cases h with
  | client scheduler config => exact ⟨nofun, nofun, nofun⟩
  | server scheduler hbuilt hserving =>
    have haccept := ServerConnection.keyed_accept Outbox.keeps hbuilt (nofun : Unmarked ({} : Outbox).waiting) scheduler
    rwa [hserving] at haccept

namespace Drive

variable {d d' : Drive} {outs : List Outgoing}

/-! ## The course of a drive -/

/-- Drives of an endpoint, with what was taken from its outbox so far. -/
inductive Course (e : Endpoint Outbox Clock) : Drive → List Outgoing → Prop
  | begins : Course e { endpoint := e } []
  | call {d : Drive} {outs : List Outgoing} (call : Call) : Course e d outs → d.isFinished = false → call.Prepared →
      Course e { d with endpoint := d.endpoint.call call } outs
  | settle {d : Drive} {outs : List Outgoing} : Course e d outs → d.isFinished = false →
      Course e d.settle (outs ++ d.endpoint.session.transport.waiting)
  | lose {d : Drive} {outs : List Outgoing} (code : CloseCode) (reason : String) (outcome : Result CloseCode) :
      Course e d outs → d.isFinished = false → Course e (d.lose code reason outcome) outs
  /-- Octets arrived, or the peer went. -/
  | around {d : Drive} {outs : List Outgoing} (reader : FrameReader) (peerEnded peerGone : Bool) : Course e d outs →
      Course e { d with reader, peerEnded, writer := { d.writer with peerGone } } outs
  | passes {d : Drive} {outs : List Outgoing} (scheduler : Clock) : Course e d outs →
      Course e { d with endpoint := d.endpoint.withSession { d.endpoint.session with scheduler } } outs

variable {e : Endpoint Outbox Clock}

theorem Course.handle (h : Course e d outs) (arrival : Arrival) : ∃ outs', Course e (d.handle arrival) outs' := by
  cases hfinished : d.isFinished with
  | true => exact ⟨outs, (handle_of_finished hfinished arrival).symm ▸ h⟩
  | false =>
    have hcall : ∀ call : Call, call.Prepared →
        ∃ outs', Course e (Drive.settle { d with endpoint := d.endpoint.call call }) outs' := fun call hcall =>
      ⟨_, (h.call call hfinished hcall).settle hfinished⟩
    have hlose : ∀ code reason outcome, ∃ outs', Course e (d.lose code reason outcome) outs' :=
      fun code reason outcome => ⟨outs, h.lose code reason outcome hfinished⟩
    simp only [Drive.handle, hfinished, Bool.false_eq_true, if_false]
    cases arrival with
    | message bytes =>
      simp only [takeMessage]
      split
      · exact hlose _ _ _
      · exact hcall (.message bytes) trivial
    | broken text => exact hlose _ _ _
    | ended => exact hlose _ _ _
    | timer kind => exact hcall (.timer kind) trivial
    | send tag values => exact hcall (.send tag values) trivial
    | post tag values =>
      have hsent := h.call (.send tag values) hfinished trivial
      simp only [postNow]
      split
      · rename_i hsend
        rw [Endpoint.call, hsend] at hsent
        exact ⟨_, hsent.settle hfinished⟩
      · rename_i error endpoint hsend
        rw [Endpoint.call, hsend] at hsent
        exact ⟨_, (hsent.call (.report error) hfinished trivial).settle hfinished⟩
    | close code reason => exact hcall (.close code reason) trivial

theorem Course.foldl {α : Type} {step : Drive → α → Drive}
    (hstep : ∀ d outs a, Course e d outs → ∃ outs', Course e (step d a) outs') (h : Course e d outs) (items : List α) :
    ∃ outs', Course e (items.foldl step d) outs' := by
  induction items generalizing d outs with
  | nil => exact ⟨outs, h⟩
  | cons item items ih =>
    obtain ⟨outs', hnext⟩ := hstep d outs item h
    exact ih hnext

theorem Course.handleWithPosts (h : Course e d outs) (arrival : Arrival) :
    ∃ outs', Course e (d.handleWithPosts arrival) outs' := by
  obtain ⟨outs', hhandled⟩ := h.handle arrival
  exact hhandled.foldl (fun _ _ _ h => h.handle _) _

theorem Course.peerEnds (h : Course e d outs) : ∃ outs', Course e d.peerEnds outs' := by
  unfold Drive.peerEnds
  split
  · exact ⟨outs, h⟩
  · have hended : Course e { d with peerEnded := true } outs := h.around d.reader true d.writer.peerGone
    split
    · exact hended.handle .ended
    · exact hended.handle (.broken _)

theorem Course.advance (h : Course e d outs) (ms : Nat) : ∃ outs', Course e (d.advance ms) outs' := by
  unfold Drive.advance
  exact (h.passes _).foldl (fun _ _ kind h => h.handle (.timer kind)) _

theorem Course.event (h : Course e d outs) (event : Event) : ∃ outs', Course e (d.event event) outs' := by
  cases event with
  | arrival arrival => exact h.handle arrival
  | gone => exact ⟨outs, h.around d.reader d.peerEnded true⟩
  | writes bytes =>
    simp only [Drive.event, peerWrites]
    split
    · exact ⟨outs, h⟩
    · split
      · exact ⟨outs, h⟩
      · obtain ⟨outs', hread⟩ := h.foldl (fun _ _ message h => h.handleWithPosts (.message message))
          (d.reader.push bytes).messages.1
        split
        · exact ⟨outs', hread.around _ _ _⟩
        · exact hread.handle (.broken _)
  | ends => exact h.peerEnds
  | leaves => exact (h.around d.reader d.peerEnded true).peerEnds
  | passes ms => exact h.advance ms

/-- Whatever happens to a drive is a course of its endpoint. -/
theorem Course.run (e : Endpoint Outbox Clock) (events : List Event) :
    ∃ outs, Course e ((Drive.start e).run events) outs := by
  obtain ⟨outs, hstart⟩ := (Course.begins.settle rfl).advance (e := e) 0
  exact hstart.foldl (fun _ _ event h => h.event event) events

/-! ## What is on the stream -/

/-- The stream carries what was taken from the outbox, but for what came behind the end of the drive. -/
structure Streams (outs : List Outgoing) (d : Drive) : Prop where
  keyed : d.endpoint.session.Keyed fun outbox => Unmarked outbox.waiting
  unmarked : Unmarked outs
  stream : ∃ fed, fed <+: outs ∧ (∀ out ∈ fed, out.body.length ≤ maxFrameLength) ∧
    d.writer.stream = frames (fed.map Outgoing.body) ∧ (d.isFinished = false → fed = outs)

theorem Course.streams (he : e.session.Keyed fun outbox => Unmarked outbox.waiting) (h : Course e d outs) :
    d.Streams outs := by
  induction h with
  | begins =>
    exact ⟨he, fun _ h => (by cases h), [], List.prefix_rfl, List.forall_mem_nil _, rfl, fun _ => rfl⟩
  | call call _ hfinished hcall ih =>
    exact ⟨Endpoint.keyed_call Outbox.keeps ih.keyed hcall, ih.unmarked, ih.stream⟩
  | @settle d outs _ hfinished ih =>
    obtain ⟨fed, -, hfits, hstream, hall⟩ := ih.stream
    obtain rfl := hall hfinished
    cases hwrite : writeAll d.writer d.endpoint.session.transport.waiting with
    | mk result writer =>
      obtain ⟨fed', hprefix, hfits', hstream', hall'⟩ := stream_writeAll hwrite
      refine ⟨?_, ?_, fed ++ fed', (List.prefix_append_right_inj fed).2 hprefix, ?_, ?_, fun hrunning => ?_⟩
      · rw [settle_session]
        exact ⟨ih.keyed.batchers, ih.keyed.queues, fun _ h => by cases h⟩
      · intro message hmessage
        exact (List.mem_append.1 hmessage).elim (ih.unmarked message) (ih.keyed.transport message)
      · intro out hout
        exact (List.mem_append.1 hout).elim (hfits out) (hfits' out)
      · rw [settle_eq, hwrite]
        exact hstream'.trans (by rw [hstream, List.map_append, frames_append])
      · have hnone : result = .ok none := by
          simp only [settle_eq, isFinished, settled, hwrite] at hrunning
          rcases result with error | _ | code
          · cases hrunning
          · rfl
          · cases hrunning
        rw [hall' hnone]
  | @lose d outs code reason outcome _ hfinished ih =>
    obtain ⟨fed, hprefix, hfits, hstream, -⟩ := ih.stream
    refine ⟨?_, ih.unmarked, fed, hprefix, hfits, hstream, fun hrunning => by cases hrunning⟩
    have hsession : (d.lose code reason outcome).endpoint.session = d.endpoint.session.closedByPeer code reason :=
      Endpoint.session_withSession _ _
    rw [hsession]
    exact ih.keyed.closedByPeer code reason
  | around reader peerEnded peerGone _ ih => exact ⟨ih.keyed, ih.unmarked, ih.stream⟩
  | passes scheduler _ ih =>
    refine ⟨?_, ih.unmarked, ih.stream⟩
    rw [Endpoint.session_withSession]
    exact ⟨ih.keyed.batchers, ih.keyed.queues, ih.keyed.transport⟩

/-! ## What the peer hears -/

/-- What a drive does when something arrives that the peer took from its outbox. -/
def hear (d : Drive) : Outgoing → Drive
  | .message bytes => settle { d with endpoint := d.endpoint.onMessage bytes }
  | .close code reason => d.lose code reason (.ok code)

theorem handle_body {out : Outgoing} (hmarked : Unmarked outs) (hout : out ∈ outs) (hfinished : d.isFinished = false) :
    d.handle (.message out.body) = d.hear out := by
  simp only [handle, hfinished, Bool.false_eq_true, if_false, takeMessage]
  cases out with
  | message bytes =>
    rw [Outgoing.body, (hmarked bytes hout).decode?_eq_none]
    rfl
  | close code reason =>
    rw [Outgoing.body, CloseNotice.decode?_encode]
    rfl

/-- What is handled does not depend on what was read and what may be read still. -/
theorem handle_beside (d : Drive) (reader : FrameReader) (peerEnded : Bool) (arrival : Arrival) :
    handle { d with reader, peerEnded } arrival = { d.handle arrival with reader, peerEnded } := by
  have hsettle : ∀ endpoint, settle { d with endpoint, reader, peerEnded } =
      { settle { d with endpoint } with reader, peerEnded } := by
    intro endpoint
    rw [settle_eq, settle_eq]
    rfl
  cases hfinished : d.isFinished with
  | true =>
    have hfinished' : isFinished { d with reader, peerEnded } = true := hfinished
    rw [handle_of_finished hfinished, handle_of_finished hfinished']
  | false =>
    have hfinished' : isFinished { d with reader, peerEnded } = false := hfinished
    simp only [handle, hfinished, hfinished', Bool.false_eq_true, if_false]
    cases arrival with
    | message bytes =>
      simp only [takeMessage]
      split
      · rfl
      · exact hsettle (d.endpoint.onMessage bytes)
    | broken text => rfl
    | ended => rfl
    | timer kind => exact hsettle (d.endpoint.onTimer kind)
    | send tag values => exact hsettle (d.endpoint.send tag values).2
    | post tag values =>
      simp only [postNow]
      split
      · rename_i endpoint _
        exact hsettle endpoint
      · rename_i error endpoint _
        exact hsettle (endpoint.report error)
    | close code reason => exact hsettle (d.endpoint.close code reason)

theorem foldl_beside {α : Type} {step : Drive → α → Drive}
    (hstep : ∀ d reader peerEnded a, step { d with reader, peerEnded } a = { step d a with reader, peerEnded })
    (d : Drive) (reader : FrameReader) (peerEnded : Bool) (items : List α) :
    items.foldl step { d with reader, peerEnded } = { items.foldl step d with reader, peerEnded } := by
  induction items generalizing d with
  | nil => rfl
  | cons item items ih =>
    rw [List.foldl_cons, hstep, ih]
    rfl

/-- A drive takes in messages one after the other, with what listeners post because of each. -/
def takeAll (d : Drive) (messages : List Bytes) : Drive :=
  messages.foldl (fun d message => d.handleWithPosts (.message message)) d

theorem takeAll_beside (d : Drive) (reader : FrameReader) (peerEnded : Bool) (messages : List Bytes) :
    takeAll { d with reader, peerEnded } messages = { d.takeAll messages with reader, peerEnded } := by
  refine foldl_beside (fun d reader peerEnded message => ?_) d reader peerEnded messages
  simp only [handleWithPosts, handle_beside]
  exact foldl_beside (fun d reader peerEnded post => handle_beside d reader peerEnded (.post post.1 post.2))
    (d.handle (.message message)) reader peerEnded _

theorem takeAll_peerEnded (d : Drive) (messages : List Bytes) : (d.takeAll messages).peerEnded = d.peerEnded := by
  have hbeside : d.takeAll messages = { d.takeAll messages with reader := d.reader, peerEnded := d.peerEnded } :=
    takeAll_beside d d.reader d.peerEnded messages
  rw [hbeside]

/-! ## What was read -/

/-- The octets that an event brings to the reader. -/
def Event.octets? : Event → Option Bytes
  | .writes bytes => if bytes.isEmpty then none else some bytes
  | _ => none

theorem handle_keeps (d : Drive) (arrival : Arrival) :
    (d.handle arrival).reader = d.reader ∧ (d.handle arrival).peerEnded = d.peerEnded := by
  have hbeside : d.handle arrival = { d.handle arrival with reader := d.reader, peerEnded := d.peerEnded } :=
    d.handle_beside d.reader d.peerEnded arrival
  rw [hbeside]
  exact ⟨rfl, rfl⟩

/-- A drive is over for good. -/
theorem isFinished_handle (h : d.isFinished = true) (arrival : Arrival) : (d.handle arrival).isFinished = true := by
  rw [handle_of_finished h]
  exact h

theorem isFinished_handle_lost (d : Drive) {arrival : Arrival} (h : arrival = .ended ∨ ∃ text, arrival = .broken text) :
    (d.handle arrival).isFinished = true := by
  cases hfinished : d.isFinished with
  | true => exact isFinished_handle hfinished arrival
  | false =>
    simp only [handle, hfinished, Bool.false_eq_true, if_false]
    obtain rfl | ⟨text, rfl⟩ := h
    · rfl
    · rfl

theorem isFinished_peerEnds (h : d.peerEnded = true → d.isFinished = true) : d.peerEnds.isFinished = true := by
  unfold Drive.peerEnds
  split
  · exact h ‹_›
  · split
    · exact isFinished_handle_lost _ (.inl rfl)
    · exact isFinished_handle_lost _ (.inr ⟨_, rfl⟩)

theorem foldl_timers {motive : Drive → Prop} (hstep : ∀ d kind, motive d → motive (d.handle (.timer kind)))
    (ms : Nat) (h : ∀ scheduler, motive { d with
      endpoint := d.endpoint.withSession { d.endpoint.session with scheduler } }) : motive (d.advance ms) := by
  unfold Drive.advance
  exact List.foldlRecOn _ _ (h _) fun d h kind _ => hstep d kind h

theorem isFinished_event (h : d.isFinished = true) (event : Event) : (d.event event).isFinished = true := by
  cases event with
  | arrival arrival => exact isFinished_handle h arrival
  | gone => exact h
  | writes bytes =>
    simp only [Drive.event, peerWrites]
    split
    · exact h
    · rw [h, Bool.true_or, if_pos rfl]
      exact h
  | ends => exact isFinished_peerEnds fun _ => h
  | leaves => exact isFinished_peerEnds fun _ => h
  | passes ms =>
    exact foldl_timers (motive := fun d => d.isFinished = true) (fun d kind h => isFinished_handle h (.timer kind)) ms
      fun _ => h

/-- What a running drive does with octets that arrive. -/
theorem event_writes (hfinished : d.isFinished = false) (hends : d.peerEnded = false) {bytes : Bytes}
    (hbytes : bytes ≠ []) :
    d.event (.writes bytes) =
      match (d.reader.push bytes).messages.2 with
      | .ok reader => { d.takeAll (d.reader.push bytes).messages.1 with reader }
      | .error text => (d.takeAll (d.reader.push bytes).messages.1).handle (.broken text) := by
  have hsome : bytes.isEmpty = false := by simpa using hbytes
  simp only [Drive.event, peerWrites, hsome, hfinished, hends, Bool.or_self, Bool.false_eq_true, if_false]
  cases (d.reader.push bytes).messages.2 <;> rfl

/-- A drive that is not over has read all that its peer has written. -/
theorem reader_run (hends : d.peerEnded = false) {events : List Event} (h : (d.run events).isFinished = false) :
    (d.run events).peerEnded = false ∧
      ∃ messages, d.reader.receive (events.filterMap Event.octets?) = (messages, .ok (d.run events).reader) := by
  induction events using List.reverseRecOn with
  | nil => exact ⟨hends, [], rfl⟩
  | append_singleton events event ih =>
    have hrun : d.run (events ++ [event]) = (d.run events).event event := List.foldl_concat _ _ _ _
    rw [hrun] at h ⊢
    have hbefore : (d.run events).isFinished = false := by
      by_contra hover
      rw [isFinished_event (by simpa using hover) event] at h
      cases h
    obtain ⟨hends', messages, hmessages⟩ := ih hbefore
    rw [List.filterMap_append]
    have hkept : ∀ d' : Drive, [event].filterMap Event.octets? = [] → d'.reader = (d.run events).reader →
        d'.peerEnded = (d.run events).peerEnded → d'.peerEnded = false ∧ ∃ messages,
          d.reader.receive (events.filterMap Event.octets? ++ [event].filterMap Event.octets?) =
            (messages, .ok d'.reader) := by
      intro d' hnone hreader hpeer
      rw [hnone, List.append_nil, hreader, hpeer]
      exact ⟨hends', messages, hmessages⟩
    cases event with
    | arrival arrival => exact hkept _ rfl (handle_keeps _ _).1 (handle_keeps _ _).2
    | gone => exact hkept _ rfl rfl rfl
    | ends =>
      have hover : ((d.run events).event .ends).isFinished = true := isFinished_peerEnds (by simp [hends'])
      rw [hover] at h
      cases h
    | leaves =>
      have hover : ((d.run events).event .leaves).isFinished = true := isFinished_peerEnds (by simp [hends'])
      rw [hover] at h
      cases h
    | passes ms =>
      have hpassed : ((d.run events).advance ms).reader = (d.run events).reader ∧
          ((d.run events).advance ms).peerEnded = (d.run events).peerEnded :=
        foldl_timers (motive := fun d' => d'.reader = (d.run events).reader ∧ d'.peerEnded = (d.run events).peerEnded)
          (fun d kind h => ⟨(handle_keeps d _).1.trans h.1, (handle_keeps d _).2.trans h.2⟩) ms fun _ => ⟨rfl, rfl⟩
      exact hkept _ rfl hpassed.1 hpassed.2
    | writes bytes =>
      by_cases hbytes : bytes = []
      · subst hbytes
        exact hkept _ rfl rfl rfl
      · have hsome : [Event.writes bytes].filterMap Event.octets? = [bytes] := by simp [Event.octets?, hbytes]
        rw [event_writes hbefore hends' hbytes] at h ⊢
        rw [hsome, FrameReader.receive_concat hmessages]
        cases hread : ((d.run events).reader.push bytes).messages.2 with
        | ok reader =>
          refine ⟨?_, _, rfl⟩
          exact ((d.run events).takeAll_peerEnded _).trans hends'
        | error text =>
          rw [hread, isFinished_handle_lost _ (.inr ⟨text, rfl⟩)] at h
          cases h

end Drive

/-! ## What has arrived -/

/-- The beginning of what was taken from an outbox whose frames are among these octets. -/
structure Arrived (octets : Bytes) (outs taken : List Outgoing) : Prop where
  begins : taken <+: outs
  whole : ∀ front, front <+: outs → (front <+: taken ↔ frames (front.map Outgoing.body) <+: octets)

/-- Of a part of the stream the reader takes the messages of the frames that are in it. -/
theorem Drive.Streams.arrived {d : Drive} {outs : List Outgoing} (h : d.Streams outs) {pieces : List Bytes}
    (hpieces : pieces.flatten <+: d.writer.written) :
    ∃ taken last, Arrived pieces.flatten outs taken ∧
      FrameReader.receive {} pieces = (taken.map Outgoing.body, .ok last) := by
  obtain ⟨fed, hfed, hfits, hstream, -⟩ := h.stream
  have hfits : ∀ message ∈ fed.map Outgoing.body, message.length ≤ maxFrameLength := by
    intro message hmessage
    obtain ⟨out, hout, rfl⟩ := List.mem_map.1 hmessage
    exact hfits out hout
  have hsent : pieces.flatten <+: frames (fed.map Outgoing.body) :=
    hstream ▸ hpieces.trans (List.prefix_append _ _)
  obtain ⟨messages, rest, last, hsplit, hreceive, hheld, hawaits⟩ :=
    FrameReader.receive_eq (FrameReader.awaits_new (fed.map Outgoing.body)) hfits hsent
  obtain ⟨taken, later, rfl, rfl, rfl⟩ := List.map_eq_append_iff.1 hsplit
  have hheld : pieces.flatten = frames (taken.map Outgoing.body) ++ last.held := hheld
  have htaken : taken <+: outs := (List.prefix_append _ _).trans hfed
  refine ⟨taken, last, ⟨htaken, fun front hfront => ⟨fun hbegins => ?_, fun hwhole => ?_⟩⟩, hreceive⟩
  · obtain ⟨back, rfl⟩ := hbegins
    rw [hheld, List.map_append, frames_append, List.append_assoc]
    exact List.prefix_append _ _
  · obtain hbegins | ⟨more, rfl⟩ := List.prefix_or_prefix_of_prefix hfront htaken
    · exact hbegins
    · -- what follows those that were taken is still awaited
      have hcompare := (List.prefix_or_prefix_of_prefix hfront hfed).imp
        (List.prefix_append_right_inj taken).1 (List.prefix_append_right_inj taken).1
      rw [hheld, List.map_append, frames_append, List.prefix_append_right_inj] at hwhole
      have hnone := hawaits.eq_nil (hcompare.imp (·.map Outgoing.body) (·.map Outgoing.body)) hwhole
      rw [List.map_eq_nil_iff.1 hnone, List.append_nil]

/-- Octets that arrive at a peer bring it what was taken next from the outbox at the other end. -/
theorem Drive.Streams.heard {d : Drive} {outs : List Outgoing} (h : d.Streams outs) {peer : Drive}
    (hreader : peer.reader = {}) (hends : peer.peerEnded = false) {events : List Drive.Event}
    (hfinished : (peer.run events).isFinished = false) {bytes : Bytes} (hbytes : bytes ≠ [])
    (hstream : (events.filterMap Drive.Event.octets?).flatten ++ bytes <+: d.writer.written) :
    ∃ taken new reader, Arrived (events.filterMap Drive.Event.octets?).flatten outs taken ∧
      Arrived ((events.filterMap Drive.Event.octets?).flatten ++ bytes) outs (taken ++ new) ∧
      (peer.run events).event (.writes bytes) =
        { (peer.run events).takeAll (new.map Outgoing.body) with reader } := by
  have hflatten : (events.filterMap Drive.Event.octets? ++ [bytes]).flatten =
      (events.filterMap Drive.Event.octets?).flatten ++ bytes := by simp
  obtain ⟨hends', messages, hmessages⟩ := Drive.reader_run hends hfinished
  rw [hreader] at hmessages
  obtain ⟨taken, last, harrived, hreceive⟩ := h.arrived ((List.prefix_append _ _).trans hstream)
  obtain ⟨all, last', harrived', hreceive'⟩ := h.arrived (hflatten ▸ hstream)
  rw [hflatten] at harrived'
  obtain ⟨rfl, hlast⟩ := Prod.mk.inj (hmessages.symm.trans hreceive)
  rw [FrameReader.receive_concat hmessages] at hreceive'
  obtain ⟨hall, hread⟩ := Prod.mk.inj hreceive'
  have hprefix : taken <+: all := by
    refine List.prefix_of_prefix_length_le harrived.begins harrived'.begins ?_
    have hlength := congrArg List.length hall
    rw [List.length_append, List.length_map, List.length_map] at hlength
    omega
  obtain ⟨new, rfl⟩ := hprefix
  rw [List.map_append, List.append_cancel_left_eq] at hall
  refine ⟨taken, new, last', harrived, harrived', ?_⟩
  rw [Drive.event_writes hfinished hends' hbytes, hread, hall]

/-- No message that a session writes begins like a close notice: of a client or a server, alone or in a hub, whose
handshake could be written or not. A notice begins with zero, and is read back with its code and its reason. So what
a drive took from its outbox to write reaches the peer's drive in the same order, as far as it has arrived: each
message as a message, and each close, and nothing else, as a close. -/
theorem CloseNotice.told_apart :
    (∀ (T S : Type) [Transport T] [Scheduler S],
      (∀ e : Endpoint (Recorded T) S, e.Arises → ∀ message, .message message ∈ e.session.transport.log →
        ∃ first body, message = first :: body ∧ first ≠ 0) ∧
      ∀ (definition : Definition) (events : List (ServerHub.Event (Recorded T) S)), definition.Built →
        (∀ event ∈ events, event.Remembers) →
        ∀ entry ∈ ((ServerHub.empty definition).after events).connections, (Endpoint.server entry.2).Arises) ∧
    (∀ notice : CloseNotice, (∃ body, notice.encode = 0 :: body) ∧ decode? notice.encode = some notice) ∧
    ∀ (e : Endpoint Outbox Clock) (calls : List Call) (events : List Drive.Event), e.New {} →
      (∀ call ∈ calls, call.Prepared) →
      let d := (Drive.start (e.run calls)).run events
      ∃ outs, Drive.Course (e.run calls) d outs ∧ d.Streams outs ∧
        (∀ out ∈ outs, (∀ notice, decode? out.body = some notice ↔ out = .close notice.code notice.reason) ∧
          ∀ peer : Drive, peer.isFinished = false → peer.handle (.message out.body) = peer.hear out) ∧
        ∀ (peer : Drive) (events' : List Drive.Event) (bytes : Bytes), peer.reader = {} → peer.peerEnded = false →
          (peer.run events').isFinished = false → bytes ≠ [] →
          (events'.filterMap Drive.Event.octets?).flatten ++ bytes <+: d.writer.written →
          ∃ taken new reader, Arrived (events'.filterMap Drive.Event.octets?).flatten outs taken ∧
            Arrived ((events'.filterMap Drive.Event.octets?).flatten ++ bytes) outs (taken ++ new) ∧
            (peer.run events').event (.writes bytes) =
              { (peer.run events').takeAll (new.map Outgoing.body) with reader } := by
  refine ⟨fun T S _ _ => ⟨fun e he => he.keyed.transport, fun definition events hbuilt hremember => ?_⟩,
    fun notice => ⟨⟨_, rfl⟩, decode?_encode notice⟩, fun e calls events hnew hcalls => ?_⟩
  · have hempty : (ServerHub.empty definition : ServerHub (Recorded T) S).Arisen := ⟨hbuilt, nofun⟩
    exact (hempty.after hremember).arises
  · obtain ⟨outs, hcourse⟩ := Drive.Course.run (e.run calls) events
    have hstreams := hcourse.streams (Endpoint.keyed_run Outbox.keeps hnew.keyed hcalls)
    refine ⟨outs, hcourse, hstreams, fun out hout => ⟨hstreams.unmarked.decode?_body hout, fun peer hrunning => ?_⟩,
      fun peer events' bytes hreader hends hrunning hbytes hprefix => ?_⟩
    · exact Drive.handle_body hstreams.unmarked hout hrunning
    · exact hstreams.heard hreader hends hrunning hbytes hprefix

namespace Farewell

/-- One of two connections loses its transport, and the other hears the news. -/
def hub : List (ServerHub.Event (Recorded Outbox) Clock) :=
  [.operation (.accept ⟨{}, []⟩ {}), .operation (.accept ⟨{}, []⟩ {}),
    .operation (.own 2 (.transportClosed .normal "gone")),
    .operation (.broadcast (fun _ _ => true) "news" [.string "rain"])]

def server : Result (Endpoint Outbox Clock) := Endpoint.serve [] [ServerHub.Bulletin.news] {} {} Drive.clock

/-- There is news, and then the server closes. -/
def events : List Drive.Event := [.arrival (.send "news" [.string "rain"]), .arrival (.close .normal "bye")]

/-- The frame of the handshake, and the beginning of that of the news. -/
def early : Bytes :=
  [0, 0, 0, 20, 0x54, 0x57, 0x49, 0x52, 1, 0, 0x89, 1, 2, 2, 0, 0, 0, 4, 110, 101, 119, 115, 0, 1, 0, 0, 0, 6, 1, 4]

def late : Bytes := [114, 97, 105, 110, 0, 0, 0, 6, 0, 3, 0xE8, 98, 121, 101]

def client : Drive := Drive.start (Drive.Hangup.client.run Drive.Hangup.calls)

end Farewell

/-- The client takes the second message for what it is, and its close callback is told why the server left. -/
theorem CloseNotice.told_apart_farewell :
    ∃ definition e, ServerHub.Bulletin.made = .ok definition ∧ definition.Built ∧ Farewell.server = .ok e ∧ e.New {} ∧
      (∀ entry ∈ ((ServerHub.empty definition).after Farewell.hub).connections,
        ∀ message, .message message ∈ entry.2.session.transport.log →
          ∃ first body, message = first :: body ∧ first ≠ 0) ∧
      let d := (Drive.start e).run Farewell.events
      d.writer.written = Farewell.early ++ Farewell.late ∧
        (∃ outs taken new reader, d.Streams outs ∧ Arrived Farewell.early outs taken ∧
          Arrived (Farewell.early ++ Farewell.late) outs (taken ++ new) ∧
          Farewell.client.run [.writes Farewell.early, .writes Farewell.late] =
            { (Farewell.client.run [.writes Farewell.early]).takeAll (new.map Outgoing.body) with reader }) ∧
        Journal.closings (Farewell.client.run [.writes Farewell.early, .writes Farewell.late]).journal =
          [("log", .normal, "bye")] := by
  have hmade : ∃ definition, ServerHub.Bulletin.made = .ok definition := ⟨_, by rfl⟩
  obtain ⟨definition, hmade⟩ := hmade
  have hbuilt : definition.Built := .make (by simp) ServerHub.Bulletin.declared hmade
  have hrun : (fun e => ((Drive.start e).run Farewell.events).writer.written) <$> Farewell.server =
      .ok (Farewell.early ++ Farewell.late) := by cbv
  obtain ⟨e, hserve, hwritten⟩ := Outcome.map_eq_ok.1 hrun
  have hnew : e.New {} := .serve (by simp) ServerHub.Bulletin.declared hserve
  have hopen : (Farewell.client.run [.writes Farewell.early]).isFinished = false := by cbv
  have hclosings : Journal.closings (Farewell.client.run [.writes Farewell.early, .writes Farewell.late]).journal =
      [("log", .normal, "bye")] := by cbv
  have hremember : ∀ event ∈ Farewell.hub, event.Remembers := by
    simp [Farewell.hub, ServerHub.Event.Remembers]
  have hreader : Farewell.client.reader = {} := by cbv
  have hends : Farewell.client.peerEnded = false := by cbv
  obtain ⟨hsessions, -, hdrives⟩ := told_apart
  obtain ⟨hordinary, hhubs⟩ := hsessions Outbox Clock
  obtain ⟨outs, -, hstreams, -, hheard⟩ := hdrives e [] Farewell.events hnew (List.forall_mem_nil _)
  obtain ⟨taken, new, reader, harrived, harrived', hevent⟩ :=
    hheard Farewell.client [.writes Farewell.early] Farewell.late hreader hends hopen (List.cons_ne_nil _ _)
      (hwritten ▸ List.prefix_rfl)
  refine ⟨definition, e, hmade, hbuilt, hserve, hnew, fun entry hentry => ?_, hwritten,
    ⟨outs, taken, new, reader, hstreams, harrived, harrived', hevent⟩, hclosings⟩
  exact hordinary _ (hhubs definition Farewell.hub hbuilt hremember entry hentry)

end PacketProtocol
