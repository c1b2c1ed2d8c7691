import PacketProtocol.Proofs.FirstPacket
/-!
# Packets that are switched on and off

Once the registries of a connection are in place, nothing but a switch changes them. A server goes by the
bits of its definition as they stand: it refuses to send a packet that is switched off, and it closes over a
message of one.
-/

namespace PacketProtocol

/-! ## Switches -/

/-- An enabled bit that is set after a definition was made. -/
inductive Switch where
  | client (tag : String) (enabled : Bool)
  | server (tag : String) (enabled : Bool)

/-- What a call switches. A server receives the packets that clients send. -/
def Call.switch? : Call → Option Switch
  | .setInboundEnabled tag enabled => some (.client tag enabled)
  | .setOutboundEnabled tag enabled => some (.server tag enabled)
  | _ => none

namespace Definition

variable {definition : Definition}

def switch (definition : Definition) : Switch → Definition
  | .client tag enabled => definition.setClientEnabled tag enabled
  | .server tag enabled => definition.setServerEnabled tag enabled

def switched (definition : Definition) (switches : List Switch) : Definition := switches.foldl switch definition

theorem switched_append (definition : Definition) (switches switches' : List Switch) :
    definition.switched (switches ++ switches') = (definition.switched switches).switched switches' :=
  List.foldl_append

/-- `later` is `definition` but for enabled bits. -/
structure Switched (definition later : Definition) : Prop where
  client : later.client.Alike definition.client
  server : later.server.Alike definition.server
  config : later.config = definition.config
  handshake : later.handshake = definition.handshake

theorem switch_switched (definition : Definition) (switch : Switch) :
    definition.Switched (definition.switch switch) := by
  cases switch with
  | client tag enabled => exact ⟨Registry.setEnabled_alike _ tag enabled, rfl, rfl, rfl⟩
  | server tag enabled => exact ⟨rfl, Registry.setEnabled_alike _ tag enabled, rfl, rfl⟩

theorem switched_switched (switches : List Switch) (definition : Definition) :
    definition.Switched (definition.switched switches) := by
  induction switches generalizing definition with
  | nil => exact ⟨rfl, rfl, rfl, rfl⟩
  | cons switch switches ih =>
    have hfirst := definition.switch_switched switch
    have hrest := ih (definition.switch switch)
    exact ⟨Eq.trans hrest.client hfirst.client, Eq.trans hrest.server hfirst.server,
      hrest.config.trans hfirst.config, hrest.handshake.trans hfirst.handshake⟩

end Definition

/-! ## The registries of a session -/

namespace Session

variable {T S : Type} {s s' : Session T S}

/-- What a session sends and receives. -/
def registries (s : Session T S) : Registry × Registry := (s.outbound, s.inbound)

theorem registries_foldl_deliver (packet : Packet) (decoded : List (List Value)) (s : Session T S) :
    (decoded.foldl (deliver packet) s).registries = s.registries := by
  induction decoded generalizing s with
  | nil => rfl
  | cons values decoded ih => exact ih _

theorem registries_receive (s : Session T S) (bytes : Bytes) : (s.receive bytes).2.registries = s.registries := by
  simp only [receive]
  split
  · rfl
  · split
    · rfl
    · split
      · rfl
      · exact registries_foldl_deliver _ _ _

section Working

variable [Transport T]

theorem Work.registries (h : s.Work s') : s'.registries = s.registries := by
  cases h with
  | write message =>
    simp only [Session.write]
    split <;> rfl
  | _ => rfl

theorem Working.registries (h : Working s s') : s'.registries = s.registries := by
  induction h with
  | refl => rfl
  | tail _ hwork ih => exact hwork.registries.trans ih

theorem registries_onTimer (s : Session T S) (kind : TimerKind) : (s.onTimer kind).registries = s.registries := by
  by_cases hstate : s.state = .ready
  · exact (working_onTimer hstate kind).registries
  · rw [onTimer_of_not_ready hstate]

end Working

section Closing

variable [Scheduler S]

theorem registries_closedByPeer (s : Session T S) (code : CloseCode) (reason : String) :
    (s.closedByPeer code reason).registries = s.registries := by
  unfold closedByPeer
  split <;> rfl

variable [Transport T]

theorem registries_close (s : Session T S) (code : CloseCode) (reason : String) :
    (s.close code reason).registries = s.registries := by
  unfold close
  split <;> rfl

theorem registries_fail (s : Session T S) (error : ProtocolError) : (s.fail error).registries = s.registries := by
  unfold fail
  split <;> exact registries_close _ _ _

theorem registries_receiveOrFail (s : Session T S) (bytes : Bytes) :
    (s.receiveOrFail bytes).registries = s.registries := by
  have hreceive := s.registries_receive bytes
  unfold receiveOrFail
  split
  · rename_i hresult
    rw [hresult] at hreceive
    exact hreceive
  · rename_i hresult
    rw [hresult] at hreceive
    exact (registries_fail _ _).trans hreceive

end Closing

end Session

/-! ## The registries of a connection -/

namespace ServerConnection

variable {T S : Type} [Scheduler S] {c : ServerConnection T S}

theorem registries_checkFirst (c : ServerConnection T S) (bytes : Bytes) :
    (c.checkFirst bytes).2.session.registries = c.session.registries := by
  obtain ⟨_, _, _, -, hsession⟩ := c.checkFirst_eq bytes
  rw [hsession]
  rfl

variable [Transport T]

theorem registries_onMessage (c : ServerConnection T S) (bytes : Bytes) :
    (c.onMessage bytes).session.registries = c.session.registries := by
  have hcheck := c.registries_checkFirst bytes
  unfold onMessage
  split
  · split
    · rename_i hresult
      rw [hresult] at hcheck
      exact (Session.registries_receiveOrFail _ bytes).trans hcheck
    · rename_i hresult
      rw [hresult] at hcheck
      exact (Session.registries_fail _ _).trans hcheck
  · rfl

end ServerConnection

namespace Endpoint

variable {T S : Type} [Transport T] [Scheduler S] {e : Endpoint T S}

theorem registries_onMessage (hready : ConnectionState.ready.rank ≤ e.state.rank) (bytes : Bytes) :
    (e.onMessage bytes).session.registries = e.session.registries := by
  cases e with
  | client c =>
    cases hstate : c.state with
    | ready =>
      simp only [onMessage, session, ClientConnection.onMessage, hstate]
      exact c.session.registries_receiveOrFail bytes
    | closed => rw [onMessage_of_closed (e := .client c) hstate]
    | _ =>
      rw [show (client c).state = _ from hstate] at hready
      exact absurd hready (by decide)
  | server c => exact c.registries_onMessage bytes

theorem registries_onTimer (e : Endpoint T S) (kind : TimerKind) :
    (e.onTimer kind).session.registries = e.session.registries := by
  have hsession := e.session.registries_onTimer kind
  cases e with
  | client c =>
    cases kind with
    | handshakeExpiry =>
      show c.expire.session.registries = c.session.registries
      simp only [ClientConnection.expire]
      split
      · exact Session.registries_close _ _ _
      · exact Session.registries_close _ _ _
      · rfl
    | _ => exact hsession
  | server c =>
    cases kind with
    | handshakeExpiry =>
      show c.expire.session.registries = c.session.registries
      simp only [ServerConnection.expire]
      split
      · exact Session.registries_close _ _ _
      · rfl
    | _ => exact hsession

/-- From when a connection is ready only switches change its registries. -/
theorem registries_call (hready : ConnectionState.ready.rank ≤ e.state.rank) {call : Call}
    (hcall : call.switch? = none) :
    (e.call call).session.registries = e.session.registries := by
  cases call with
  | opened =>
    cases e with
    | client c =>
      show c.opened.session.registries = c.session.registries
      have hopen : c.state ≠ .connecting := by
        intro hstate
        rw [show (client c).state = _ from hstate] at hready
        exact absurd hready (by decide)
      rw [ClientConnection.opened, if_neg hopen]
    | server c => rfl
  | message bytes => exact registries_onMessage hready bytes
  | timer kind => exact e.registries_onTimer kind
  | send tag values =>
    rw [show (e.call (.send tag values)).session = (e.session.send tag values).2 from session_withSession _ _]
    exact (e.session.working_send tag values).registries
  | sendEncoded key payload =>
    rw [show (e.call (.sendEncoded key payload)).session = (e.session.sendEncoded key payload).2 from
      session_withSession _ _]
    exact (e.session.working_sendEncoded key payload).registries
  | on tag listener =>
    simp only [Endpoint.call]
    split
    · rename_i e' hon
      cases e with
      | client c =>
        obtain ⟨c', hon', rfl⟩ := Outcome.map_eq_ok.1 hon
        obtain ⟨dispatcher, rfl⟩ := ClientConnection.on_eq_ok hon'
        rfl
      | server c =>
        obtain ⟨c', hon', rfl⟩ := Outcome.map_eq_ok.1 hon
        obtain ⟨dispatcher, rfl⟩ := ServerConnection.on_eq_ok hon'
        rfl
    · rfl
  | onReady callback =>
    cases e with
    | client c =>
      show (c.onReady callback).session.registries = c.session.registries
      unfold ClientConnection.onReady
      split <;> rfl
    | server c => rfl
  | onClose callback => cases e <;> rfl
  | onError callback => cases e <;> rfl
  | report error => cases e <;> rfl
  | setOutboundEnabled tag enabled => cases hcall
  | setInboundEnabled tag enabled => cases hcall
  | close code reason =>
    rw [show (e.call (.close code reason)).session = e.session.close code reason from session_withSession _ _]
    exact e.session.registries_close code reason
  | transportClosed code reason =>
    rw [show (e.call (.transportClosed code reason)).session = e.session.closedByPeer code reason from
      session_withSession _ _]
    exact e.session.registries_closedByPeer code reason

theorem registries_run (hready : ConnectionState.ready.rank ≤ e.state.rank) {calls : List Call}
    (hcalls : ∀ call ∈ calls, call.switch? = none) : (e.run calls).session.registries = e.session.registries := by
  induction calls generalizing e with
  | nil => rfl
  | cons call calls ih =>
    obtain ⟨hcall, hcalls⟩ := List.forall_mem_cons.1 hcalls
    exact (ih (hready.trans (e.call_did call).rank_le) hcalls).trans (registries_call hready hcall)

end Endpoint

/-! ## Servers that go by a definition -/

namespace ServerConnection

variable {T S : Type} {c : ServerConnection T S} {definition : Definition}

/-- The server has the registries of the definition, with their bits. -/
structure GoesBy (definition : Definition) (c : ServerConnection T S) : Prop where
  definition_eq : c.definition = definition
  registries : c.session.registries = (definition.server, definition.client)

theorem GoesBy.outbound (h : c.GoesBy definition) : c.session.outbound = definition.server :=
  congrArg Prod.fst h.registries

theorem GoesBy.inbound (h : c.GoesBy definition) : c.session.inbound = definition.client :=
  congrArg Prod.snd h.registries

variable [Transport T] [Scheduler S]

theorem goesBy_accept {transport : T} {scheduler : S} (haccept : accept definition transport scheduler = .serving c) :
    c.GoesBy definition := by
  obtain ⟨_, _, _, _, rfl⟩ := serving_eq haccept
  exact ⟨rfl, rfl⟩

/-- A server keeps its definition but for switches. -/
theorem call_definition (c : ServerConnection T S) (call : Call) :
    (c.call call).definition = c.definition.switched call.switch?.toList := by
  cases call with
  | message bytes =>
    show (c.onMessage bytes).definition = c.definition
    by_cases hready : c.session.state = .ready
    · rw [onMessage_eq hready]
      exact (c.checkFirst_keeps bytes).1
    · rw [onMessage_of_not_ready hready]
  | timer kind =>
    cases kind with
    | handshakeExpiry =>
      show c.expire.definition = c.definition
      unfold expire
      dsimp only
      split <;> rfl
    | _ => rfl
  | on tag listener =>
    simp only [ServerConnection.call, Endpoint.call, Endpoint.on]
    cases hlistener : c.on tag listener with
    | error error => rfl
    | ok c' =>
      obtain ⟨dispatcher, rfl⟩ := on_eq_ok hlistener
      rfl
  | _ => rfl

theorem GoesBy.call (h : c.GoesBy definition) (hready : ConnectionState.ready.rank ≤ c.session.state.rank)
    (call : Call) : (c.call call).GoesBy (definition.switched call.switch?.toList) := by
  obtain ⟨rfl, hregistries⟩ := h
  refine ⟨c.call_definition call, ?_⟩
  cases hswitch : call.switch? with
  | none =>
    have hcall := Endpoint.registries_call (e := .server c) hready hswitch
    rw [server_call] at hcall
    exact hcall.trans hregistries
  | some switch =>
    obtain ⟨houtbound, hinbound⟩ := Prod.mk.inj hregistries
    cases call with
    | setOutboundEnabled tag enabled =>
      cases hswitch
      exact Prod.ext (congrArg (·.setEnabled tag enabled) houtbound) hinbound
    | setInboundEnabled tag enabled =>
      cases hswitch
      exact Prod.ext houtbound (congrArg (·.setEnabled tag enabled) hinbound)
    | _ => cases hswitch

/-- Whatever is called on a server, it goes by the definition with the switches that were set. -/
theorem GoesBy.run (h : c.GoesBy definition) (hready : ConnectionState.ready.rank ≤ c.session.state.rank)
    (calls : List Call) : (c.run calls).GoesBy (definition.switched (calls.filterMap Call.switch?)) := by
  induction calls generalizing c definition with
  | nil => exact h
  | cons call calls ih =>
    have hforward := ((Endpoint.server c).call_did call).rank_le
    rw [server_call] at hforward
    have hrest := ih (h.call hready call) (hready.trans hforward)
    rw [← Definition.switched_append] at hrest
    show ((c.call call).run calls).GoesBy _
    cases hswitch : call.switch? <;> simpa [List.filterMap_cons, hswitch] using hrest

end ServerConnection

/-! ## Packets that are switched off -/

namespace Session

variable {T S : Type} [Transport T] {s : Session T S} {tag : String} {key : UInt8} {packet : Packet}

theorem send_disabled (hready : s.state = .ready) (hpacket : s.outbound.byTag tag = .ok packet)
    (hdisabled : packet.enabled = false) (values : List Value) :
    s.send tag values = (.error (.packetDisabled tag), s) := by
  obtain ⟨key, hkey, hpacket⟩ := Outcome.bind_eq_ok.1 hpacket
  have hensure : s.ensureReady = .ok () := by rw [ensureReady, hready]
  have hprepare : s.prepare tag values = .error (.packetDisabled tag) := by
    simp [prepare, hensure, hkey, hpacket, hdisabled, bind, Except.bind, throw, throwThe,
      MonadExceptOf.throw]
  rw [send, hprepare]

omit [Transport T] in
theorem receive_disabled (hkey : s.inbound.byKey key = .ok packet) (hdisabled : packet.enabled = false)
    (body : Bytes) : s.receive (key :: body) =
      (.error (.packetDisabled packet.tag), s.count (.messageReceived (body.length + 1))) := by
  have hopen : (s.count (.messageReceived (body.length + 1))).openMessage (key :: body) =
      .error (.packetDisabled packet.tag) := by
    have hkey' : (s.count (.messageReceived (body.length + 1))).inbound.byKey key = .ok packet := hkey
    simp [openMessage, inboundPacket, hkey', hdisabled, bind, Except.bind, throw, throwThe, MonadExceptOf.throw, pure,
      Except.pure]
  simp only [receive, List.length_cons, hopen]

/-- A session that fails over its peer closes with the error, whatever it scheduled and counted before. -/
theorem fails_tallied [Scheduler S] (hopen : s.state ≠ .closed) {entries : Journal} (hentries : Journal.Tally entries)
    {error : ProtocolError} (habuse : error.closeCode.isAbuse = true) (scheduler : S) (timers : List TimerHandle) :
    let s' := { s with scheduler, timers, journal := s.journal ++ entries }
    s.Refused [error.closeCode.number] 1 (s'.fail error) ∧
      (s'.fail error).transport = Transport.close s.transport error.closeCode error.message := by
  intro s'
  have hopen' : s'.state ≠ .closed := hopen
  exact ⟨.tallied hentries (refused_fail hopen' habuse (List.mem_singleton_self _)), fail_transport hopen' error⟩

end Session

namespace ServerConnection

variable {T S : Type} [Transport T] [Scheduler S] {c : ServerConnection T S} {tag : String} {bytes : Bytes}

/-- What a server holds against a message of a packet that is switched off: that the required first packet has yet to
come, or that this one came already, and if neither, the switch. -/
def objection (c : ServerConnection T S) (tag : String) : ProtocolError :=
  match c.definition.config.handshakePacket with
  | none => .packetDisabled tag
  | some required =>
    match c.firstCame, tag == required with
    | false, false => .handshakeRequired
    | true, true => .handshakeDuplicate
    | _, _ => .packetDisabled tag

omit [Transport T] in
theorem checkFirst_objection (htag : c.session.inboundTag bytes = .ok tag) :
    (c.checkFirst bytes).1 = .ok () ∧ c.objection tag = .packetDisabled tag ∨
      (c.checkFirst bytes).1 = .error (c.objection tag) ∧ (c.objection tag).closeCode.isAbuse = true := by
  unfold checkFirst objection
  cases c.definition.config.handshakePacket with
  | none => exact .inl ⟨rfl, rfl⟩
  | some required =>
    simp only [htag]
    cases c.firstCame <;> cases tag == required
    · exact .inr ⟨rfl, rfl⟩
    · exact .inl ⟨rfl, rfl⟩
    · exact .inl ⟨rfl, rfl⟩
    · exact .inr ⟨rfl, rfl⟩

/-- A packet that the definition has switched off is not sent, and a message of it closes the server before anything
of it is heard. -/
structure Enforces (definition : Definition) (c : ServerConnection T S) : Prop where
  send : ∀ tag packet values, definition.server.byTag tag = .ok packet → packet.enabled = false →
    c.send tag values = (.error (.packetDisabled tag), c)
  message : ∀ key packet body, definition.client.byKey key = .ok packet → packet.enabled = false →
    c.dispatched (key :: body) = [] ∧
      c.session.Refused [(c.objection packet.tag).closeCode.number] 1 (c.onMessage (key :: body)).session ∧
      (c.onMessage (key :: body)).session.transport =
        Transport.close c.session.transport (c.objection packet.tag).closeCode (c.objection packet.tag).message

theorem onMessage_disabled {key : UInt8} {packet : Packet} (hready : c.session.state = .ready)
    (hkey : c.session.inbound.byKey key = .ok packet) (hdisabled : packet.enabled = false) (body : Bytes) :
    c.dispatched (key :: body) = [] ∧
      c.session.Refused [(c.objection packet.tag).closeCode.number] 1 (c.onMessage (key :: body)).session ∧
      (c.onMessage (key :: body)).session.transport =
        Transport.close c.session.transport (c.objection packet.tag).closeCode (c.objection packet.tag).message := by
  have hisReady : c.session.isReady = true := by simp [Session.isReady, hready]
  have htag : c.session.inboundTag (key :: body) = .ok packet.tag := Session.inboundTag_of_alike rfl hkey body
  obtain ⟨scheduler, timers, entries, hentries, hsession⟩ := c.checkFirst_eq (key :: body)
  have hcheck := checkFirst_objection htag
  unfold dispatched onMessage
  rw [if_pos hisReady, if_pos hisReady]
  generalize c.checkFirst (key :: body) = checked at hsession hcheck
  obtain ⟨result, c'⟩ := checked
  have hopen : c.session.state ≠ .closed := by rw [hready]; decide
  have hsession : c'.session = _ := hsession
  obtain ⟨hok, hobjection⟩ | ⟨herror, habuse⟩ := hcheck
  · cases hok
    have hkey' : c'.session.inbound.byKey key = .ok packet := by rw [hsession]; exact hkey
    have hreceive := Session.receive_disabled hkey' hdisabled body
    have hfail : c'.session.receiveOrFail (key :: body) =
        (c'.session.count (.messageReceived (body.length + 1))).fail (.packetDisabled packet.tag) := by
      rw [Session.receiveOrFail, hreceive]
    rw [hobjection]
    refine ⟨Session.dispatched_of_error (by rw [Session.receive_disabled hkey hdisabled]), ?_⟩
    show c.session.Refused _ 1 (c'.session.receiveOrFail (key :: body)) ∧
      (c'.session.receiveOrFail (key :: body)).transport = _
    have hcounted : Journal.Tally [.counted (.messageReceived (body.length + 1))] := .cons (by simp) .nil
    have habuse : (ProtocolError.packetDisabled packet.tag).closeCode.isAbuse = true := rfl
    have hfails := Session.fails_tallied hopen (hentries.append hcounted) habuse scheduler timers
    rw [← List.append_assoc] at hfails
    rw [hfail, hsession]
    exact hfails
  · cases herror
    refine ⟨rfl, ?_⟩
    show c.session.Refused _ 1 (c'.session.fail _) ∧ (c'.session.fail _).transport = _
    rw [hsession]
    exact Session.fails_tallied hopen hentries habuse scheduler timers

theorem GoesBy.enforces {definition : Definition} (h : c.GoesBy definition) (hready : c.session.state = .ready) :
    c.Enforces definition := by
  refine ⟨fun tag packet values hpacket hdisabled => ?_, fun key packet body hkey hdisabled => ?_⟩
  · have hsend := Session.send_disabled hready (h.outbound ▸ hpacket) hdisabled values
    rw [ServerConnection.send, hsend]
  · exact onMessage_disabled hready (h.inbound ▸ hkey) hdisabled body

/-- Whatever is called on a served connection, it goes by the definition with the switches that were set, and enforces
it as long as it is ready. -/
theorem run_enforces {definition : Definition} {transport : T} {scheduler : S}
    (haccept : accept definition transport scheduler = .serving c) (calls : List Call) :
    let now := definition.switched (calls.filterMap Call.switch?)
    (c.run calls).GoesBy now ∧ ((c.run calls).session.state = .ready → (c.run calls).Enforces now) := by
  have hready : ConnectionState.ready.rank ≤ c.session.state.rank := by
    obtain ⟨_, _, _, _, rfl⟩ := serving_eq haccept
    exact Nat.le_refl _
  have hgoes := (goesBy_accept haccept).run hready calls
  exact ⟨hgoes, hgoes.enforces⟩

end ServerConnection

end PacketProtocol
