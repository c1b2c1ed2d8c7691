import PacketProtocol.CloseNotice
import PacketProtocol.Proofs.Broadcasting
import PacketProtocol.Proofs.Counting
/-!
# No message begins like a close notice

A message is a handshake, which begins with the mark of the protocol, or it begins with the key of a packet,
which is never zero: neither when a registry gives it out, nor in what waits in a batch or is held back, nor
in what a hub broadcasts.
-/

namespace PacketProtocol

/-- A message that begins with another octet than a close notice. -/
def Ordinary (message : Bytes) : Prop := ∃ first body, message = first :: body ∧ first ≠ CloseNotice.marker

/-- Only ordinary messages among these. -/
def Unmarked (outs : List Outgoing) : Prop := ∀ message, .message message ∈ outs → Ordinary message

theorem Unmarked.concat {outs : List Outgoing} {out : Outgoing} (h : Unmarked outs)
    (hout : ∀ message, out = .message message → Ordinary message) : Unmarked (outs ++ [out]) := by
  intro message hmessage
  obtain hmessage | hmessage := List.mem_append.1 hmessage
  · exact h message hmessage
  · exact hout message (List.mem_singleton.1 hmessage).symm

/-! ## Keys -/

theorem Registry.ne_marker_of_byKey {registry : Registry} {key : UInt8} {packet : Packet}
    (h : registry.byKey key = .ok packet) : key ≠ CloseNotice.marker :=
  (byKey_eq_ok.1 h).1

theorem Registry.Numbered.ne_marker_of_batcher {registry : Registry} (h : registry.Numbered) {batcher : Batcher}
    (hbatcher : batcher ∈ registry.entries.filterMap fun entry => entry.2.batcher? entry.1) :
    batcher.key ≠ CloseNotice.marker := by
  obtain ⟨key, packet, hkey, -, rfl⟩ := (Registry.mem_batchers h).1 hbatcher
  exact ne_marker_of_byKey hkey

theorem Definition.Built.handshake_ordinary {definition : Definition} (h : definition.Built) :
    Ordinary definition.handshake := by
  induction h with
  | make _ _ hmake =>
    obtain ⟨client, -, hencode⟩ := Outcome.bind_eq_ok.1 (made hmake).handshake
    obtain ⟨server, -, hencode⟩ := Outcome.bind_eq_ok.1 hencode
    rw [← Outcome.pure_eq_ok.1 hencode]
    exact ⟨0x54, _, rfl, by decide⟩
  | setClientEnabled _ _ _ ih => exact ih
  | setServerEnabled _ _ _ ih => exact ih

/-! ## Sessions -/

/-- A property of transports that outlasts ordinary messages and closes. -/
structure Transport.Keeps {T : Type} [Transport T] (outlook : T → Prop) : Prop where
  send : ∀ transport message, Ordinary message → outlook transport → outlook (Transport.send transport message).2
  close : ∀ transport code reason, outlook transport → outlook (Transport.close transport code reason)

theorem Transport.Keeps.of_concat {T : Type} [Transport T] {asked : T → List Outgoing}
    (hsend : ∀ transport message, asked (Transport.send transport message).2 = asked transport ++ [.message message])
    (hclose : ∀ transport code reason,
      asked (Transport.close transport code reason) = asked transport ++ [.close code reason]) :
    Transport.Keeps fun transport => Unmarked (asked transport) := by
  refine ⟨fun transport message hmessage h => ?_, fun transport code reason h => ?_⟩
  · rw [hsend]
    refine h.concat fun other hother => ?_
    obtain rfl := Outgoing.message.inj hother
    exact hmessage
  · rw [hclose]
    exact h.concat nofun

theorem Recorded.keeps {T : Type} [Transport T] :
    Transport.Keeps fun transport : Recorded T => Unmarked transport.log :=
  .of_concat (fun _ _ => rfl) fun _ _ _ => rfl

theorem Outbox.keeps : Transport.Keeps fun outbox : Outbox => Unmarked outbox.waiting :=
  .of_concat (fun _ _ => rfl) fun _ _ _ => rfl

namespace Session

variable {T S : Type} [Transport T] {outlook : T → Prop} {s s' : Session T S} {key : UInt8} {payload : Bytes}

/-- Whatever waits in a session has a packet's key. -/
structure Keyed (outlook : T → Prop) (s : Session T S) : Prop where
  batchers : ∀ batcher ∈ s.batchers, batcher.key ≠ CloseNotice.marker
  queues : ∀ queue ∈ s.deferred.queues, queue.1 ≠ CloseNotice.marker
  transport : outlook s.transport

omit [Transport T] in
theorem Keyed.setBatcher (h : s.Keyed outlook) (batcher : Batcher) (hkey : batcher.key ≠ CloseNotice.marker) :
    (s.setBatcher batcher).Keyed outlook := by
  refine ⟨fun other hother => ?_, h.queues, h.transport⟩
  obtain ⟨old, hold, rfl⟩ := List.mem_map.1 hother
  split
  · exact hkey
  · exact h.batchers old hold

theorem Keyed.write (hkeeps : Transport.Keeps outlook) (h : s.Keyed outlook) {message : Bytes}
    (hmessage : Ordinary message) : (s.write message).2.Keyed outlook := by
  have hsent := hkeeps.send s.transport message hmessage h.transport
  obtain ⟨transport, hsend, hwrite⟩ | ⟨error, transport, hsend, hwrite⟩ := s.write_cases message
  · rw [hsend] at hsent
    rw [hwrite]
    exact ⟨h.batchers, h.queues, hsent⟩
  · rw [hsend] at hsent
    rw [hwrite]
    exact ⟨h.batchers, h.queues, hsent⟩

omit [Transport T] in
theorem ordinary_of_message? (hkey : key ≠ CloseNotice.marker) {message : Bytes}
    (h : s.message? key payload = some message) : Ordinary message := by
  unfold message? at h
  split at h
  · cases h
    exact ⟨key, payload, rfl, hkey⟩
  · split at h
    · cases h
      exact ⟨key, _, rfl, hkey⟩
    · cases h

theorem Keyed.emit (hkeeps : Transport.Keeps outlook) (h : s.Keyed outlook) (hkey : key ≠ CloseNotice.marker)
    (payload : Bytes) : (s.emit key payload).2.Keyed outlook := by
  have hemits := s.emit_emits key payload
  generalize (s.emit key payload).1 = result, (s.emit key payload).2 = after at hemits ⊢
  cases hemits with
  | @written message _ counts hmessage hsend _ =>
    have hsent := hkeeps.send s.transport message (ordinary_of_message? hkey hmessage) h.transport
    rw [hsend] at hsent
    exact ⟨h.batchers, h.queues, hsent⟩
  | @refused message _ error counts hmessage hsend =>
    have hsent := hkeeps.send s.transport message (ordinary_of_message? hkey hmessage) h.transport
    rw [hsend] at hsent
    exact ⟨h.batchers, h.queues, hsent⟩
  | @pending batcher counts hbatcher _ _ =>
    have hset := h.setBatcher { batcher with pending := batcher.pending ++ [payload] }
      (h.batchers batcher (List.mem_of_find?_eq_some hbatcher))
    exact ⟨hset.batchers, hset.queues, hset.transport⟩
  | long _ _ => exact ⟨h.batchers, h.queues, h.transport⟩

omit [Transport T] in
theorem Keyed.deferPayload (h : s.Keyed outlook) (hkey : key ≠ CloseNotice.marker) (payload : Bytes) :
    (s.deferPayload key payload).2.Keyed outlook := by
  unfold Session.deferPayload
  split
  · rename_i deferred hpush
    obtain ⟨-, rfl⟩ := DeferredQueue.push?_eq_some hpush
    refine ⟨h.batchers, fun queue hqueue => ?_, h.transport⟩
    obtain hsame | ⟨old, hold, hsame⟩ := DeferredQueue.keys_appendTo hqueue
    · exact hsame ▸ hkey
    · exact hsame ▸ h.queues old hold
  · split <;> exact h

theorem Keyed.sendEncoded (hkeeps : Transport.Keeps outlook) (h : s.Keyed outlook) (hkey : key ≠ CloseNotice.marker)
    (payload : Bytes) : (s.sendEncoded key payload).2.Keyed outlook := by
  have hcounting : ∀ sendLimiter, Keyed outlook { s with sendLimiter } := fun _ =>
    ⟨h.batchers, h.queues, h.transport⟩
  unfold Session.sendEncoded
  split
  · exact h
  · split
    · exact h.deferPayload hkey payload
    · split
      · exact (hcounting _).emit hkeeps hkey payload
      · exact (hcounting _).deferPayload hkey payload

omit [Transport T] in
theorem ne_marker_of_prepare {tag : String} {values : List Value}
    (h : s.prepare tag values = .ok (key, payload)) : key ≠ CloseNotice.marker := by
  obtain ⟨-, packet, hpacket, -, -⟩ := prepare_eq_ok h
  exact Registry.ne_marker_of_byKey hpacket

theorem Keyed.send (hkeeps : Transport.Keeps outlook) (h : s.Keyed outlook) (tag : String) (values : List Value) :
    (s.send tag values).2.Keyed outlook := by
  unfold Session.send
  split
  · exact h
  · rename_i hprepare
    exact h.sendEncoded hkeeps (ne_marker_of_prepare hprepare) _

theorem Keyed.emitAll (hkeeps : Transport.Keeps outlook) (h : s.Keyed outlook) {released : List (UInt8 × Bytes)}
    (hreleased : ∀ entry ∈ released, entry.1 ≠ CloseNotice.marker) : (s.emitAll released).2.Keyed outlook := by
  induction released generalizing s with
  | nil => exact h
  | cons entry released ih =>
    obtain ⟨hkey, hrest⟩ := List.forall_mem_cons.1 hreleased
    have hemit := h.emit hkeeps hkey entry.2
    rw [Session.emitAll]
    split
    · rename_i hresult
      rw [hresult] at hemit
      exact ih hemit hrest
    · rename_i hresult
      rw [hresult] at hemit
      exact hemit

theorem Keyed.resetWindow (hkeeps : Transport.Keeps outlook) (h : s.Keyed outlook) :
    s.resetWindow.2.Keyed outlook := by
  have hstart : s.windowStart.Keyed outlook := by
    refine ⟨h.batchers, fun queue hqueue => ?_, h.transport⟩
    have hmem := (DeferredQueue.keys_admitAll s.deferred.queues s.sendLimiter.reset).subset
      (List.mem_map.2 ⟨queue, hqueue, rfl⟩)
    obtain ⟨old, hold, hsame⟩ := List.mem_map.1 hmem
    exact hsame ▸ h.queues old hold
  rw [resetWindow_eq]
  refine hstart.emitAll hkeeps fun entry hentry => ?_
  obtain ⟨old, hold, hsame⟩ := DeferredQueue.keys_released s.deferred.queues s.sendLimiter.reset hentry
  exact hsame ▸ h.queues old hold

theorem Keyed.flushBatch (hkeeps : Transport.Keeps outlook) (h : s.Keyed outlook) (key : UInt8) :
    (s.flushBatch key).2.Keyed outlook := by
  unfold Session.flushBatch
  split
  · exact h
  · rename_i batcher hbatcher
    have hkey : batcher.key ≠ CloseNotice.marker := h.batchers batcher (List.mem_of_find?_eq_some hbatcher)
    unfold Batcher.flush
    by_cases hempty : batcher.pending.isEmpty = true
    · rw [if_pos hempty]
      exact h
    · have hset := h.setBatcher batcher.clear hkey
      have hcounted : ((s.setBatcher batcher.clear).count .batchFlushed).Keyed outlook :=
        ⟨hset.batchers, hset.queues, hset.transport⟩
      rw [if_neg hempty]
      exact hcounted.write hkeeps ⟨batcher.key, _, rfl, hkey⟩

omit [Transport T] in
theorem Keyed.report (h : s.Keyed outlook) (error : ProtocolError) : (s.report error).Keyed outlook :=
  ⟨h.batchers, h.queues, h.transport⟩

theorem Keyed.onTimer (hkeeps : Transport.Keeps outlook) (h : s.Keyed outlook) (kind : TimerKind) :
    (s.onTimer kind).Keyed outlook := by
  unfold Session.onTimer
  split
  · exact h
  · cases kind with
    | rateReset =>
      dsimp only
      split
      · exact h.resetWindow hkeeps
      · exact (h.resetWindow hkeeps).report _
    | batchFlush key =>
      dsimp only
      split
      · exact h.flushBatch hkeeps key
      · exact (h.flushBatch hkeeps key).report _
    | handshakeExpiry => exact h

omit [Transport T] in
theorem Keyed.aside (h : s.Keyed outlook) (haside : s.Aside s') : s'.Keyed outlook :=
  ⟨haside.batchers ▸ h.batchers, haside.deferred ▸ h.queues, haside.transport ▸ h.transport⟩

omit [Transport T] in
/-- The batchers that a registry asks for are added. -/
theorem Keyed.activate [Scheduler S] (h : s.Keyed outlook) {outbound : Registry} (hnum : outbound.Numbered)
    (inbound : Registry) (window : Option Nat) : (s.activate outbound inbound window).Keyed outlook := by
  obtain ⟨_, _, hactivate⟩ := s.activate_eq outbound inbound window
  rw [hactivate]
  refine ⟨fun batcher hbatcher => ?_, h.queues, h.transport⟩
  obtain hbatcher | hbatcher := List.mem_append.1 hbatcher
  · exact h.batchers batcher hbatcher
  · exact hnum.ne_marker_of_batcher hbatcher

section Calls

variable [Scheduler S]

omit [Transport T] in
theorem Keyed.closedByPeer (h : s.Keyed outlook) (code : CloseCode) (reason : String) :
    (s.closedByPeer code reason).Keyed outlook := by
  unfold Session.closedByPeer
  split
  · exact h
  · refine ⟨fun batcher hbatcher => ?_, nofun, h.transport⟩
    obtain ⟨old, hold, rfl⟩ := List.mem_map.1 hbatcher
    exact h.batchers old hold

theorem Keyed.close (hkeeps : Transport.Keeps outlook) (h : s.Keyed outlook) (code : CloseCode) (reason : String) :
    (s.close code reason).Keyed outlook := by
  by_cases hstate : s.state = .closed
  · rw [Session.close, if_pos hstate]
    exact h
  · have hpeer := h.closedByPeer code reason
    rw [close_eq hstate]
    exact ⟨hpeer.batchers, hpeer.queues, hkeeps.close _ code reason h.transport⟩

theorem Keyed.act (hkeeps : Transport.Keeps outlook) (h : s.Keyed outlook) (hact : Act s s') : s'.Keyed outlook := by
  cases hact with
  | aside haside => exact h.aside haside
  | await _ => exact ⟨h.batchers, h.queues, h.transport⟩
  | @adopt bytes handshake _ hparse =>
    have hactive := h.activate (Handshake.parse_numbered hparse).1 handshake.server
      (rateWindowMs handshake.rateWindow)
    exact ⟨hactive.batchers, hactive.queues, hactive.transport⟩
  | tick kind => exact h.onTimer hkeeps kind
  | close code reason => exact h.close hkeeps code reason

theorem Keyed.acts (hkeeps : Transport.Keeps outlook) (h : s.Keyed outlook) (hacts : Acts s s') :
    s'.Keyed outlook := by
  induction hacts with
  | refl => exact h
  | tail _ hact ih => exact ih.act hkeeps hact

theorem Keyed.did (hkeeps : Transport.Keeps outlook) (h : s.Keyed outlook) {call : Call}
    (hkey : ∀ key payload, call = .sendEncoded key payload → key ≠ CloseNotice.marker) (hdid : s.Did call s') :
    s'.Keyed outlook := by
  cases hdid with
  | send tag values => exact h.send hkeeps tag values
  | sendEncoded key payload => exact h.sendEncoded hkeeps (hkey key payload rfl) payload
  | onClose callback => exact ⟨h.batchers, h.queues, h.transport⟩
  | close code reason => exact h.close hkeeps code reason
  | transportClosed code reason => exact h.closedByPeer code reason
  | acts _ hacts => exact h.acts hkeeps hacts

end Calls

end Session

/-! ## Connections -/

/-- Whatever is sent encoded was encoded by a hub. -/
def Call.Prepared : Call → Prop
  | .sendEncoded key payload =>
    ∃ definition tag values, (ServerHub.empty definition : ServerHub Unit Unit).prepare tag values = .ok (key, payload)
  | _ => True

theorem ServerHub.ne_marker_of_prepare {T S : Type} {hub : ServerHub T S} {tag : String} {values : List Value}
    {key : UInt8} {payload : Bytes} (h : hub.prepare tag values = .ok (key, payload)) : key ≠ CloseNotice.marker := by
  rw [prepare_eq] at h
  obtain ⟨_, -, h⟩ := Outcome.bind_eq_ok.1 h
  obtain ⟨packet, hpacket, h⟩ := Outcome.bind_eq_ok.1 h
  split at h
  · obtain ⟨_, -, hsame⟩ := Outcome.map_eq_ok.1 h
    cases hsame
    exact Registry.ne_marker_of_byKey hpacket
  · cases h

/-- The session that a connection begins with, or is left with. -/
def Acceptance.session {T S : Type} : Acceptance T S → Session T S
  | .serving connection => connection.session
  | .refused _ session => session

namespace ServerConnection

variable {T S : Type} [Transport T] {outlook : T → Prop}

/-- Whether the handshake can be written or not. -/
theorem keyed_accept [Scheduler S] (hkeeps : Transport.Keeps outlook) {definition : Definition}
    (hbuilt : definition.Built) {transport : T} (htransport : outlook transport) (scheduler : S) :
    (accept definition transport scheduler).session.Keyed outlook := by
  have hstart : ((Session.start transport scheduler 0).count .handshakeAttempt).Keyed outlook :=
    ⟨nofun, nofun, htransport⟩
  have hwrite := hstart.write hkeeps hbuilt.handshake_ordinary
  simp only [accept]
  generalize ((Session.start transport scheduler 0).count .handshakeAttempt).write definition.handshake = written
    at hwrite ⊢
  obtain ⟨result, s⟩ := written
  cases result with
  | ok =>
    have hactive := hwrite.activate hbuilt.numbered.2 definition.client definition.rateWindow
    show (serve definition s).session.Keyed outlook
    unfold serve
    split
    · exact ⟨hactive.batchers, hactive.queues, hactive.transport⟩
    · exact ⟨hactive.batchers, hactive.queues, hactive.transport⟩
  | error error =>
    have hcounted : (s.count .handshakeFailed).Keyed outlook := ⟨hwrite.batchers, hwrite.queues, hwrite.transport⟩
    exact hcounted.close hkeeps _ _

end ServerConnection

namespace Endpoint

variable {T S : Type} [Transport T] [Scheduler S]

theorem keyed_call {outlook : T → Prop} (hkeeps : Transport.Keeps outlook) {e : Endpoint T S}
    (h : e.session.Keyed outlook) {call : Call} (hcall : call.Prepared) : (e.call call).session.Keyed outlook := by
  refine h.did hkeeps ?_ (e.call_did call)
  rintro key payload rfl
  obtain ⟨_, _, _, hprepare⟩ := hcall
  exact ServerHub.ne_marker_of_prepare hprepare

theorem keyed_run {outlook : T → Prop} (hkeeps : Transport.Keeps outlook) {e : Endpoint T S}
    (h : e.session.Keyed outlook) {calls : List Call} (hcalls : ∀ call ∈ calls, call.Prepared) :
    (e.run calls).session.Keyed outlook := by
  induction calls generalizing e with
  | nil => exact h
  | cons call calls ih =>
    obtain ⟨hcall, hrest⟩ := List.forall_mem_cons.1 hcalls
    exact ih (keyed_call hkeeps h hcall) hrest

/-- Connections in the course of time, alone or in a hub: clients, servers, and what is left of a server whose
handshake could not be written. Their transports remember what was asked of them, and may change otherwise. -/
inductive Arises : Endpoint (Recorded T) S → Prop
  | client (transport : T) (scheduler : S) (config : ClientConfig) :
      Arises (client (.start ⟨transport, []⟩ scheduler config))
  | served {definition : Definition} {connection : ServerConnection (Recorded T) S} (transport : T) (scheduler : S) :
      definition.Built → ServerConnection.accept definition ⟨transport, []⟩ scheduler = .serving connection →
      Arises (server connection)
  | refused {definition : Definition} {error : ProtocolError} {session : Session (Recorded T) S} (transport : T)
      (scheduler : S) : definition.Built →
      ServerConnection.accept definition ⟨transport, []⟩ scheduler = .refused error session →
      Arises (server { session, definition })
  | call {e : Endpoint (Recorded T) S} (call : Call) : Arises e → call.Prepared → Arises (e.call call)
  | outside {e : Endpoint (Recorded T) S} (transport : Recorded T) (scheduler : S) : Arises e →
      transport.log = e.session.transport.log → Arises (e.withSession { e.session with transport, scheduler })

variable {e : Endpoint (Recorded T) S}

theorem Arises.run (h : e.Arises) {calls : List Call} (hcalls : ∀ call ∈ calls, call.Prepared) :
    (e.run calls).Arises := by
  induction calls generalizing e with
  | nil => exact h
  | cons call calls ih =>
    obtain ⟨hcall, hrest⟩ := List.forall_mem_cons.1 hcalls
    exact ih (h.call call hcall) hrest

theorem Arises.keyed (h : e.Arises) : e.session.Keyed fun transport => Unmarked transport.log := by
  have hnew : ∀ transport : T, Unmarked (Recorded.mk transport []).log := fun _ => nofun
  induction h with
  | client transport scheduler config => exact ⟨nofun, nofun, nofun⟩
  | served transport scheduler hbuilt hserving =>
    have haccept := ServerConnection.keyed_accept Recorded.keeps hbuilt (hnew transport) scheduler
    rwa [hserving] at haccept
  | refused transport scheduler hbuilt hrefused =>
    have haccept := ServerConnection.keyed_accept Recorded.keeps hbuilt (hnew transport) scheduler
    rwa [hrefused] at haccept
  | call call _ hcall ih => exact keyed_call Recorded.keeps ih hcall
  | outside transport scheduler _ hlog ih =>
    rw [session_withSession]
    exact ⟨ih.batchers, ih.queues, by rw [hlog]; exact ih.transport⟩

end Endpoint

/-! ## Hubs -/

/-- What is done to a connection of a hub could be called on it. -/
theorem ServerConnection.server_deed {T S : Type} [Transport T] [Scheduler S] (c : ServerConnection T S) (deed : Deed) :
    ∃ call : Call, call.Prepared ∧ Endpoint.server (c.deed deed) = (Endpoint.server c).call call := by
  cases deed with
  | message bytes => exact ⟨.message bytes, trivial, rfl⟩
  | timer kind => exact ⟨.timer kind, trivial, rfl⟩
  | transportClosed code reason => exact ⟨.transportClosed code reason, trivial, rfl⟩
  | send tag values => exact ⟨.send tag values, trivial, rfl⟩
  | close code reason => exact ⟨.close code reason, trivial, rfl⟩
  | on tag listener =>
    refine ⟨.on tag listener, trivial, ?_⟩
    simp only [deed, Endpoint.call, Endpoint.on]
    cases c.on tag listener <;> rfl
  | onClose callback => exact ⟨.onClose callback, trivial, rfl⟩
  | onError callback => exact ⟨.onError callback, trivial, rfl⟩

/-- So is what a hub broadcasts, and the report if that fails. -/
theorem ServerConnection.server_hear {T S : Type} [Transport T] [Scheduler S] (c : ServerConnection T S)
    (definition : Definition) (select : ServerConnection T S → Bool) (tag : String) (values : List Value) :
    ∃ calls : List Call, (∀ call ∈ calls, call.Prepared) ∧
      Endpoint.server (c.hear definition select tag values) = (Endpoint.server c).run calls := by
  unfold hear
  split
  · rename_i key payload hprepare
    have hprepared : (Call.sendEncoded key payload).Prepared := ⟨definition, tag, values, hprepare⟩
    split
    · simp only [ServerHub.offer, sendEncoded]
      cases hsend : c.session.sendEncoded key payload with
      | mk result s =>
        have hcall : (Endpoint.server c).call (.sendEncoded key payload) = .server { c with session := s } := by
          simp [Endpoint.call, Endpoint.sendEncoded, Endpoint.session, Endpoint.withSession, hsend]
        cases result with
        | ok => exact ⟨[.sendEncoded key payload], by simpa using hprepared, hcall.symm⟩
        | error error =>
          refine ⟨[.sendEncoded key payload, .report error], by simpa [Call.Prepared] using hprepared, ?_⟩
          rw [Endpoint.run, List.foldl_cons, hcall]
          rfl
    · exact ⟨[], List.forall_mem_nil _, rfl⟩
  · exact ⟨[], List.forall_mem_nil _, rfl⟩

namespace ServerHub

variable {T S : Type}

/-- Transports of new connections were asked for nothing yet, and none forgets what it was asked. -/
def Event.Remembers : Event (Recorded T) S → Prop
  | .operation (.accept transport _) => transport.log = []
  | .outside transport _ => ∀ id recorded, (transport id recorded).log = recorded.log
  | _ => True

variable [Transport T] [Scheduler S] {hub : ServerHub (Recorded T) S}

/-- All connections of a hub came about, by a definition that was built. -/
structure Arisen (hub : ServerHub (Recorded T) S) : Prop where
  built : hub.definition.Built
  arises : ∀ entry ∈ hub.connections, (Endpoint.server entry.2).Arises

theorem arisen_map {definition : Definition} (hbuilt : definition.Built)
    {change : Nat × ServerConnection (Recorded T) S → ServerConnection (Recorded T) S}
    (hchange : ∀ entry ∈ hub.connections, (Endpoint.server (change entry)).Arises) :
    Arisen { hub with
      definition, connections := hub.connections.map fun entry => (entry.1, change entry) } := by
  refine ⟨hbuilt, fun entry hentry => ?_⟩
  obtain ⟨entry', hentry', rfl⟩ := List.mem_map.1 hentry
  exact hchange entry' hentry'

theorem Arisen.step (h : hub.Arisen) {operation : Operation (Recorded T) S}
    (hremembers : (Event.operation operation).Remembers) : (hub.step operation).Arisen := by
  cases operation with
  | accept transport scheduler =>
    simp only [ServerHub.step]
    split
    · rename_i id hub' haccept
      obtain ⟨c, hserving, -, rfl⟩ := accept_eq_accepted haccept
      refine ⟨h.built, fun entry hentry => ?_⟩
      obtain hentry | hentry := List.mem_append.1 hentry
      · exact h.arises entry hentry
      · obtain rfl := List.mem_singleton.1 hentry
        obtain ⟨transport, log⟩ := transport
        obtain rfl : log = [] := hremembers
        exact .served transport scheduler h.built hserving
    · exact h
    · exact h
  | own id deed =>
    refine arisen_map h.built fun entry hentry => ?_
    dsimp only
    split
    · obtain ⟨call, hcall, hdeed⟩ := entry.2.server_deed deed
      rw [hdeed]
      exact (h.arises entry hentry).call call hcall
    · exact h.arises entry hentry
  | remove id => exact ⟨h.built, fun entry hentry => h.arises entry (List.mem_of_mem_filter hentry)⟩
  | prune => exact ⟨h.built, fun entry hentry => h.arises entry (List.mem_of_mem_filter hentry)⟩
  | broadcast select tag values =>
    simp only [ServerHub.step]
    split
    · rename_i hbroadcast
      rw [broadcastTo_eq_ok hbroadcast]
      refine arisen_map h.built fun entry hentry => ?_
      obtain ⟨calls, hcalls, hhear⟩ := entry.2.server_hear hub.definition (select entry.1) tag values
      rw [hhear]
      exact (h.arises entry hentry).run hcalls
    · exact h

theorem Arisen.handle (h : hub.Arisen) {event : Event (Recorded T) S} (hremembers : event.Remembers) :
    (hub.handle event).Arisen := by
  cases event with
  | operation operation => exact h.step hremembers
  | switch switch =>
    cases switch with
    | client tag enabled =>
      exact arisen_map (.setClientEnabled tag enabled h.built) fun entry hentry =>
        .call (.setInboundEnabled tag enabled) (h.arises entry hentry) trivial
    | server tag enabled =>
      exact arisen_map (.setServerEnabled tag enabled h.built) fun entry hentry =>
        .call (.setOutboundEnabled tag enabled) (h.arises entry hentry) trivial
  | outside transport scheduler =>
    exact arisen_map h.built fun entry hentry =>
      .outside (transport entry.1 entry.2.session.transport) (scheduler entry.1 entry.2.session.scheduler)
        (h.arises entry hentry) (hremembers entry.1 entry.2.session.transport)

/-- Whatever happens to a hub, its connections came about. -/
theorem Arisen.after (h : hub.Arisen) {events : List (Event (Recorded T) S)}
    (hremember : ∀ event ∈ events, event.Remembers) : (hub.after events).Arisen := by
  induction events generalizing hub with
  | nil => exact h
  | cons event events ih =>
    obtain ⟨hevent, hrest⟩ := List.forall_mem_cons.1 hremember
    exact ih (h.handle hevent) hrest

end ServerHub

end PacketProtocol
