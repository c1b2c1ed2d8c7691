import PacketProtocol.Proofs.Switching
/-!
# What new connections are told

A definition writes its handshake once, when it is made, and every connection begins with that message.
Packets that are switched on or off later are switched at the server only: a new client goes by the
enabled bits of the day the definition was made, and the server by those of today.
-/

namespace PacketProtocol

/-! ## Registries as they are announced -/

namespace Registry

variable {a b : Registry}

/-- Validators are no part of a layout. -/
theorem sameLayout_announced (registry other : Registry) :
    registry.announced.sameLayout other = registry.sameLayout other := by
  have hsame : ∀ a b : Packet, a.announced.same b = a.same b := fun _ _ => rfl
  simp only [sameLayout, announced, size, List.length_map, List.zipWith_map_left, hsame]

/-- A record tells of the enabled bit, so registries that are alike are announced alike only if they are equal. -/
theorem Alike.eq_of_announced (h : a.Alike b) (hannounced : a.announced = b.announced) : a = b := by
  have hpacket : ∀ p q : Packet, p.announced = q.announced → p.setEnabled true = q.setEnabled true → p = q := by
    rintro ⟨tag, schema, validator, enabled⟩ ⟨tag', schema', validator', enabled'⟩ hp hq
    simp only [Packet.announced, Packet.setEnabled, Packet.mk.injEq] at hp hq ⊢
    exact ⟨hp.1, hp.2.1, hq.2.2.1, hp.2.2.2⟩
  have hpackets : a.packets = b.packets := by
    apply List.ext_getElem?
    intro index
    have hbits := congrArg (fun registry : Registry => registry.packets[index]?) hannounced
    have hrest := congrArg (fun packets : List Packet => packets[index]?) h
    simp only [announced, List.getElem?_map] at hbits hrest
    cases ha : a.packets[index]? with
    | none =>
      rw [ha] at hbits
      exact (Option.map_eq_none_iff.1 hbits.symm).symm
    | some packet =>
      rw [ha] at hbits hrest
      obtain ⟨packet', hb, hannounced'⟩ := Option.map_eq_some_iff.1 hbits.symm
      rw [hb, Option.map_some, Option.map_some] at hrest
      rw [hb, hpacket packet packet' hannounced'.symm (Option.some.inj hrest)]
  cases a
  cases b
  exact congrArg Registry.mk hpackets

theorem Alike.wellFormed (h : a.Alike b) (hwell : ∀ packet ∈ b.packets, packet.WellFormed) :
    ∀ packet ∈ a.packets, packet.WellFormed := by
  intro packet hpacket
  have hmem : packet.setEnabled true ∈ b.packets.map (·.setEnabled true) := h ▸ List.mem_map_of_mem hpacket
  obtain ⟨packet', hpacket', hsame⟩ := List.mem_map.1 hmem
  have htag : packet'.tag = packet.tag := congrArg (·.tag) hsame
  have hschema : packet'.schema = packet.schema := congrArg (·.schema) hsame
  have hwell' := hwell packet' hpacket'
  exact ⟨hschema ▸ hwell'.schema, htag ▸ hwell'.tag⟩

end Registry

/-! ## Handshakes as they are sent -/

/-- Two handshakes are the same message only if they announce the same. -/
theorem Handshake.announced_of_encode {client client' server server' : Registry} {window window' : UInt8}
    {message : Bytes} (hclient : client.Numbered) (hclient' : client'.Numbered) (hserver : server.Numbered)
    (hserver' : server'.Numbered) (hclients : ∀ packet ∈ client.packets, packet.WellFormed)
    (hclients' : ∀ packet ∈ client'.packets, packet.WellFormed)
    (hservers : ∀ packet ∈ server.packets, packet.WellFormed)
    (hservers' : ∀ packet ∈ server'.packets, packet.WellFormed) (h : encode client server window = .ok message)
    (h' : encode client' server' window' = .ok message) :
    client.announced = client'.announced ∧ server.announced = server'.announced := by
  have hread := parse_encode hclient hserver hclients hservers h
  have hread' := parse_encode hclient' hserver' hclients' hservers' h'
  have hsame := Outcome.ok_unique hread hread'
  exact ⟨congrArg Handshake.client hsame, congrArg Handshake.server hsame⟩

/-- The handshake that was written is the one for the packets of today only if none is switched. -/
theorem Definition.Switched.encode_iff {client server : List Packet} {enums : EnumRegistry} {config : ServerConfig}
    {built later : Definition} (hclient : ∀ packet ∈ client, packet.Declared)
    (hserver : ∀ packet ∈ server, packet.Declared) (hmake : Definition.make client server enums config = .ok built)
    (h : built.Switched later) :
    Handshake.encode later.client later.server later.config.rateWindow = .ok built.handshake ↔
      later.client = built.client ∧ later.server = built.server := by
  have hmade := Definition.made hmake
  have hclients : ∀ packet ∈ built.client.packets, packet.WellFormed :=
    fun packet hpacket => (hclient packet (by simpa [hmade.client] using hpacket)).wellFormed
  have hservers : ∀ packet ∈ built.server.packets, packet.WellFormed :=
    fun packet hpacket => (hserver packet (by simpa [hmade.server] using hpacket)).wellFormed
  constructor
  · intro hencode
    obtain ⟨hsameClient, hsameServer⟩ := Handshake.announced_of_encode (h.client.numbered hmade.clientNumbered)
      hmade.clientNumbered (h.server.numbered hmade.serverNumbered) hmade.serverNumbered (h.client.wellFormed hclients)
      hclients (h.server.wellFormed hservers) hservers hencode hmade.handshake
    exact ⟨h.client.eq_of_announced hsameClient, h.server.eq_of_announced hsameServer⟩
  · rintro ⟨hsameClient, hsameServer⟩
    rw [hsameClient, hsameServer, h.config]
    exact hmade.handshake

/-- What a ready session may send of a packet it learned of: nothing if the packet was announced as switched off. -/
theorem Session.prepare_announced {T S : Type} {s : Session T S} {registry : Registry} (hstate : s.state = .ready)
    (houtbound : s.outbound = registry.announced) {tag : String} {key : UInt8} {packet : Packet}
    (htag : registry.keyOf tag = .ok key) (hkey : registry.byKey key = .ok packet) (values : List Value) :
    s.prepare tag values =
      if packet.enabled then (key, ·) <$> packet.encode values else .error (.packetDisabled tag) := by
  have hready : s.ensureReady = .ok () := by rw [ensureReady, hstate]
  have hkeyOf : s.outbound.keyOf tag = .ok key := by rw [houtbound, Registry.keyOf_announced, htag]
  have hbyKey : s.outbound.byKey key = .ok packet.announced := by
    rw [houtbound, Registry.byKey_announced, hkey]
    rfl
  simp only [prepare, hready, hkeyOf, hbyKey, bind, Except.bind]
  cases henabled : packet.enabled with
  | false => simp [Packet.announced, henabled, throw, throwThe, MonadExceptOf.throw]
  | true =>
    have hencode : packet.announced.encode values = packet.encode values := rfl
    simp only [Packet.announced, henabled] at hencode ⊢
    cases hpayload : packet.encode values <;> simp [hencode, hpayload, Functor.map, Except.map, pure, Except.pure]

/-- The connection sends packets of this registry, but for those that are switched off in it. -/
def Endpoint.SendsBy {T S : Type} [Transport T] [Scheduler S] (registry : Registry) (e : Endpoint T S) : Prop :=
  ∀ tag key packet values, registry.keyOf tag = .ok key → registry.byKey key = .ok packet →
    e.send tag values =
      if packet.enabled then
        match packet.encode values with
        | .ok payload => e.sendEncoded key payload
        | .error error => (.error error, e)
      else (.error (.packetDisabled tag), e)

theorem Endpoint.sendsBy_announced {T S : Type} [Transport T] [Scheduler S] {e : Endpoint T S} {registry : Registry}
    (hready : e.state = .ready) (houtbound : e.session.outbound = registry.announced) : e.SendsBy registry := by
  have hsame : e.withSession e.session = e := by cases e <;> rfl
  intro tag key packet values htag hkey
  have hprepare := Session.prepare_announced hready houtbound htag hkey values
  cases henabled : packet.enabled with
  | false =>
    rw [henabled, if_neg Bool.false_ne_true] at hprepare
    simp only [Endpoint.send, Session.send, hprepare, hsame, Bool.false_eq_true, if_false]
  | true =>
    rw [henabled, if_pos rfl] at hprepare
    cases hpayload : packet.encode values with
    | ok payload =>
      rw [hpayload] at hprepare
      have hprepare : e.session.prepare tag values = .ok (key, payload) := hprepare
      simp only [Endpoint.send, Session.send, hprepare, if_true]
      rfl
    | error error =>
      rw [hpayload] at hprepare
      have hprepare : e.session.prepare tag values = .error error := hprepare
      simp only [Endpoint.send, Session.send, hprepare, hsame, if_true]

/-- Whatever is switched after a definition was made, a new connection begins with the handshake for the packets as
they were when it was made. That is the handshake for the packets as they are only if each is switched as it was
then. The client has the layouts of that day, and refuses to send the packets that were switched off that day, and no
others. The server goes by the switches: whatever is called on it, and whatever is switched then, it sends no packet
that is switched off, and closes over a message of one. -/
theorem accept_announces {client server : List Packet} {enums : EnumRegistry} {config : ServerConfig}
    {built : Definition} (hclient : ∀ packet ∈ client, packet.Declared) (hserver : ∀ packet ∈ server, packet.Declared)
    (hmake : Definition.make client server enums config = .ok built) (switches : List Switch) {T T' S S' : Type}
    [Transport T] [Transport T'] [Scheduler S] [Scheduler S'] {wire : T'} (haccepts : Transport.Accepts wire)
    (scheduler : S') {transport : T} {c : ClientConnection T S} (hfresh : c.Fresh transport) :
    let later := built.switched switches
    ∃ connection message, ServerConnection.accept later wire scheduler = .serving connection ∧
      connection.session.transport = Transport.sendAll wire [message] ∧
      Handshake.encode built.client built.server built.config.rateWindow = .ok message ∧
      (Handshake.encode later.client later.server later.config.rateWindow = .ok message ↔
        later.client = built.client ∧ later.server = built.server) ∧
      (c.onMessage message).state = .ready ∧
      (∀ registry, (c.onMessage message).session.outbound.sameLayout registry = built.client.sameLayout registry) ∧
      (∀ registry, (c.onMessage message).session.inbound.sameLayout registry = built.server.sameLayout registry) ∧
      (∀ tag key packet values, built.client.keyOf tag = .ok key → built.client.byKey key = .ok packet →
        (c.onMessage message).session.prepare tag values =
          if packet.enabled then (key, ·) <$> packet.encode values else .error (.packetDisabled tag)) ∧
      (∀ calls, (∀ call ∈ calls, call.switch? = none) →
        let e := (Endpoint.client (c.onMessage message)).run calls
        e.state = .ready → e.SendsBy built.client) ∧
      ∀ calls,
        let now := later.switched (calls.filterMap Call.switch?)
        let serving := connection.run calls
        serving.GoesBy now ∧ (serving.session.state = .ready → serving.Enforces now) := by
  intro later
  have hlater := Definition.switched_switched switches built
  obtain ⟨connection, haccept, htransport⟩ := ServerConnection.accept_accepted later haccepts scheduler
  have hadopted := ClientConnection.onMessage_handshake hfresh.waits (Definition.parse_handshake hclient hserver hmake)
  rw [hlater.handshake] at htransport
  refine ⟨connection, built.handshake, haccept, htransport, (Definition.made hmake).handshake,
    hlater.encode_iff hclient hserver hmake, hadopted.state, ?_, ?_, ?_, ?_, ?_⟩
  · intro registry
    rw [hadopted.outbound, Registry.sameLayout_announced]
  · intro registry
    rw [hadopted.inbound, Registry.sameLayout_announced]
  · intro tag key packet values htag hkey
    exact Session.prepare_announced hadopted.state hadopted.outbound htag hkey values
  · intro calls hcalls e hready
    have hrank : ConnectionState.ready.rank ≤ (Endpoint.client (c.onMessage built.handshake)).state.rank :=
      Nat.le_of_eq (congrArg _ hadopted.state).symm
    have hregistries := Endpoint.registries_run hrank hcalls
    exact Endpoint.sendsBy_announced hready ((congrArg Prod.fst hregistries).trans hadopted.outbound)
  · exact ServerConnection.run_enforces haccept

namespace Curfew

def say : Packet := { tag := "say", schema := { shape := .single ⟨.raw, 1, 100⟩ } }

def whisper : Packet := { tag := "whisper", schema := { shape := .single ⟨.raw, 1, 100⟩ }, enabled := false }

theorem declared : ∀ packet ∈ [say, whisper], packet.Declared := by
  have hsingle : Schema.Declared { shape := .single ⟨.raw, 1, 100⟩ } := @Schema.Declared.single .raw 1 100 _ trivial rfl
  intro packet hpacket
  simp only [List.mem_cons, List.not_mem_nil, or_false] at hpacket
  rcases hpacket with rfl | rfl
  · exact .make hsingle (by rfl : Packet.make "say" _ = .ok _)
  · exact .enabled false (.make hsingle (by rfl : Packet.make "whisper" _ = .ok _))

def made : Result Definition := Definition.make [say, whisper] [] .empty {}

/-- The handshake that was written for them; its sixth octet holds the enabled bit of the first. -/
def message : Bytes :=
  [0x54, 0x57, 0x49, 0x52, 1, 0x89, 1, 100, 1, 0, 0, 0, 3, 0x73, 0x61, 0x79, 0x81, 1, 100, 1, 0, 0, 0, 7, 0x77, 0x68,
    0x69, 0x73, 0x70, 0x65, 0x72, 0, 0, 1]

/-- The loud packet is switched off, and the quiet one on. -/
def night : List Switch := [.client "say" false, .client "whisper" true]

end Curfew

/-- After the switches a new client says what the server closes over, and may not whisper what it takes until that is
switched off as well. -/
theorem accept_announces_curfew :
    let c := (ClientConnection.start ({} : Wire) ({} : Clock) {}).opened
    ∃ built connection message, Curfew.made = .ok built ∧
      ServerConnection.accept (built.switched Curfew.night) ({} : Outbox) ({} : Clock) = .serving connection ∧
      connection.session.transport = Transport.sendAll ({} : Outbox) [message] ∧
      (c.onMessage message).session.prepare "say" [.string "hi"] = .ok (1, [0x68, 0x69]) ∧
      (c.onMessage message).session.prepare "whisper" [.string "hi"] = .error (.packetDisabled "whisper") ∧
      (Endpoint.client (c.onMessage message)).send "say" [.string "hi"] =
        (Endpoint.client (c.onMessage message)).sendEncoded 1 [0x68, 0x69] ∧
      (Endpoint.client (c.onMessage message)).send "whisper" [.string "hi"] =
        (.error (.packetDisabled "whisper"), .client (c.onMessage message)) ∧
      connection.dispatched [1, 0x68, 0x69] = [] ∧
      connection.session.Refused [4002] 1 (connection.onMessage [1, 0x68, 0x69]).session ∧
      connection.dispatched [2, 0x68, 0x69] = [("whisper", [.string "hi"])] ∧
      (connection.run [.setInboundEnabled "whisper" false]).dispatched [2, 0x68, 0x69] = [] := by
  intro c
  have haccepts : Transport.Accepts ({} : Outbox) := fun _ _ => rfl
  have hrun : (fun built : Definition =>
      let later := built.switched Curfew.night
      (built.client, later.client, later.config.handshakePacket, later.rateWindow)) <$> Curfew.made =
      .ok (⟨[Curfew.say, Curfew.whisper]⟩, ⟨[Curfew.say.setEnabled false, Curfew.whisper.setEnabled true]⟩, none,
        some 1000) := by
    cbv
  obtain ⟨built, hmade, hrun⟩ := Outcome.map_eq_ok.1 hrun
  obtain ⟨hclient, hrun⟩ := Prod.mk.inj hrun
  obtain ⟨hlater, hrun⟩ := Prod.mk.inj hrun
  obtain ⟨hfirst, hwindow⟩ := Prod.mk.inj hrun
  have hsayTag : built.client.keyOf "say" = .ok 1 := by rw [hclient]; rfl
  have hsayKey : built.client.byKey 1 = .ok Curfew.say := by rw [hclient]; rfl
  have hwhisperTag : built.client.keyOf "whisper" = .ok 2 := by rw [hclient]; rfl
  have hwhisperKey : built.client.byKey 2 = .ok Curfew.whisper := by rw [hclient]; rfl
  obtain ⟨connection, message, haccept, htransport, -, -, hready, -, -, hprepare, hsends, hserving⟩ :=
    accept_announces Curfew.declared (by simp) hmade Curfew.night haccepts ({} : Clock) (c := c)
      (.opened (.start _ _))
  have hstate : connection.session.state = .ready := by
    obtain ⟨_, _, _, _, rfl⟩ := ServerConnection.serving_eq haccept
    rfl
  have hobjection : connection.objection "say" = .packetDisabled "say" := by
    obtain ⟨_, _, _, _, rfl⟩ := ServerConnection.serving_eq haccept
    simp only [ServerConnection.objection, hfirst]
  have hwhispered : connection.dispatched [2, 0x68, 0x69] = [("whisper", [.string "hi"])] := by
    obtain ⟨_, _, _, _, rfl⟩ := ServerConnection.serving_eq haccept
    simp only [ServerConnection.dispatched, ServerConnection.checkFirst, hfirst, hlater, hwindow]
    cbv
  have hsend := hsends [] (List.forall_mem_nil _) hready
  obtain ⟨-, henforces⟩ := hserving []
  have hsaid : (built.switched Curfew.night).client.byKey 1 = .ok (Curfew.say.setEnabled false) := by rw [hlater]; rfl
  obtain ⟨hnone, hrefused, -⟩ := (henforces hstate).message 1 _ [0x68, 0x69] hsaid rfl
  obtain ⟨-, henforces'⟩ := hserving [.setInboundEnabled "whisper" false]
  have hwhisper : ((built.switched Curfew.night).setClientEnabled "whisper" false).client.byKey 2 =
      .ok (Curfew.whisper.setEnabled false) := by
    rw [Definition.setClientEnabled, hlater]
    rfl
  obtain ⟨hnone', -⟩ := (henforces' hstate).message 2 _ [0x68, 0x69] hwhisper rfl
  refine ⟨built, connection, message, hmade, haccept, htransport, ?_, ?_, ?_, ?_, hnone, ?_, hwhispered, hnone'⟩
  · rw [hprepare "say" 1 Curfew.say _ hsayTag hsayKey]
    rfl
  · rw [hprepare "whisper" 2 Curfew.whisper _ hwhisperTag hwhisperKey]
    rfl
  · exact hsend "say" 1 Curfew.say _ hsayTag hsayKey
  · exact hsend "whisper" 2 Curfew.whisper _ hwhisperTag hwhisperKey
  · have hclosed : connection.session.Refused [(connection.objection "say").closeCode.number] 1 _ := hrefused
    rwa [hobjection] at hclosed

/-- A packet is switched off before a connection is accepted, and the client is told that it is on. It sends the
packet, which the server has as switched off. -/
theorem announced_outdated :
    ∃ built connection message,
      let later := built.setClientEnabled "say" false
      let client := ((ClientConnection.start ({} : Wire) ({} : Clock) {}).opened).onMessage message
      Curfew.made = .ok built ∧ ServerConnection.accept later ({} : Outbox) ({} : Clock) = .serving connection ∧
        connection.session.transport = Transport.sendAll ({} : Outbox) [message] ∧
        Handshake.encode later.client later.server later.config.rateWindow ≠ .ok message ∧
        client.session.outbound.sameLayout later.client = false ∧
        (client.send "say" [.string "hi"]).2.session.transport.sent = [[1, 0x68, 0x69]] ∧
        Packet.enabled <$> later.client.byKey 1 = .ok false := by
  have hrun : (fun built : Definition =>
      let later := built.setClientEnabled "say" false
      (built.handshake, later.client, Handshake.encode later.client later.server later.config.rateWindow)) <$>
        Curfew.made =
      .ok (Curfew.message, ⟨[{ Curfew.say with enabled := false }, Curfew.whisper]⟩,
        .ok (Curfew.message.set 5 0x81)) := by
    cbv
  obtain ⟨built, hmade, hrun⟩ := Outcome.map_eq_ok.1 hrun
  obtain ⟨hmessage, hrun⟩ := Prod.mk.inj hrun
  obtain ⟨hlater, hencode⟩ := Prod.mk.inj hrun
  have haccepts : Transport.Accepts ({} : Outbox) := fun _ _ => rfl
  obtain ⟨connection, haccept, htransport⟩ :=
    ServerConnection.accept_accepted (built.setClientEnabled "say" false) haccepts ({} : Clock)
  have hsent : (built.setClientEnabled "say" false).handshake = Curfew.message := hmessage
  rw [hsent] at htransport
  refine ⟨built, connection, Curfew.message, hmade, haccept, htransport, ?_, ?_, ?_, ?_⟩
  · intro hsame
    rw [hencode] at hsame
    exact absurd (Except.ok.inj hsame) (by decide)
  · rw [hlater]
    cbv
  · cbv
  · rw [hlater]
    rfl

end PacketProtocol
