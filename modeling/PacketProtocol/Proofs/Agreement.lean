import PacketProtocol.Client
import PacketProtocol.Clock
import PacketProtocol.Proofs.Numbering
import PacketProtocol.Server
import PacketProtocol.Wire
/-!
# The client learns what the server offers

A handshake is read back as it was written, so a client that takes in the first message of a server
ends up with the server's registries and rate window. Keys, schemas and enabled bits are the same at
both ends; only validators stay behind.
-/

namespace PacketProtocol

/-! ## Handshakes -/

namespace Handshake

theorem bodyParser_reads {client server : Registry} {clientBytes serverBytes : Bytes} (version window : UInt8)
    (hclient : Registry.sectionParser.Reads (clientBytes ++ [delimiter]) client)
    (hserver : Registry.sectionParser.Reads (serverBytes ++ [delimiter]) server) :
    bodyParser version (clientBytes ++ delimiter :: serverBytes ++ [delimiter, window]) =
      .ok (⟨version, client, server, window⟩, []) := by
  have hbody : clientBytes ++ delimiter :: serverBytes ++ [delimiter, window] =
      (clientBytes ++ [delimiter]) ++ ((serverBytes ++ [delimiter]) ++ [window]) := by simp
  rw [hbody, bodyParser]
  simp only [bind, StateT.bind, Except.bind, hclient _, hserver _]
  rfl

/-- What a server announces is read as it was announced. -/
theorem parse_encode {client server : Registry} {window : UInt8} {bytes : Bytes}
    (hclient : client.Numbered) (hserver : server.Numbered)
    (hclients : ∀ packet ∈ client.packets, packet.WellFormed)
    (hservers : ∀ packet ∈ server.packets, packet.WellFormed)
    (h : encode client server window = .ok bytes) :
    parse bytes = .ok ⟨currentVersion, client.announced, server.announced, window⟩ := by
  obtain ⟨clientBytes, hcw, h⟩ := Outcome.bind_eq_ok.1 h
  obtain ⟨serverBytes, hsw, h⟩ := Outcome.bind_eq_ok.1 h
  obtain rfl := Outcome.pure_eq_ok.1 h
  have hbody := bodyParser_reads currentVersion window (Registry.sectionParser_reads hclient hclients hcw)
    (Registry.sectionParser_reads hserver hservers hsw)
  simp only [List.append_assoc, List.cons_append] at hbody
  simp only [parse, mark, List.append_assoc, List.cons_append, List.nil_append, List.take_succ_cons,
    List.take_zero, List.drop_succ_cons, List.drop_zero, ne_eq, not_true, if_false, hbody]

end Handshake

/-! ## Definitions -/

namespace Definition

/-- What is known of a definition made of some packets. -/
structure Made (client server : List Packet) (config : ServerConfig) (definition : Definition) : Prop where
  client : definition.client = ⟨client⟩
  server : definition.server = ⟨server⟩
  config : definition.config = config
  clientNumbered : definition.client.Numbered
  serverNumbered : definition.server.Numbered
  handshake : Handshake.encode definition.client definition.server definition.config.rateWindow =
    .ok definition.handshake

theorem made {client server : List Packet} {enums : EnumRegistry} {config : ServerConfig} {definition : Definition}
    (h : make client server enums config = .ok definition) : Made client server config definition := by
  simp only [make] at h
  obtain ⟨_, hclient, h⟩ := Outcome.bind_eq_ok.1 h
  obtain ⟨_, hserver, h⟩ := Outcome.bind_eq_ok.1 h
  obtain ⟨rfl, hcnum⟩ := Registry.register_eq_ok.1 hclient
  obtain ⟨rfl, hsnum⟩ := Registry.register_eq_ok.1 hserver
  -- whether a first packet is required or not, the handshake is written last
  have hlast : ∃ handshake, Handshake.encode ⟨client⟩ ⟨server⟩ config.rateWindow = .ok handshake ∧
      definition = { client := ⟨client⟩, server := ⟨server⟩, enums, config, handshake } := by
    split at h
    · split at h
      · cases h
      · obtain ⟨handshake, hencode, h⟩ := Outcome.bind_eq_ok.1 h
        exact ⟨handshake, Outcome.mapError_eq_ok.1 hencode, (Outcome.pure_eq_ok.1 h).symm⟩
    · obtain ⟨handshake, hencode, h⟩ := Outcome.bind_eq_ok.1 h
      exact ⟨handshake, Outcome.mapError_eq_ok.1 hencode, (Outcome.pure_eq_ok.1 h).symm⟩
  obtain ⟨handshake, hencode, rfl⟩ := hlast
  exact ⟨rfl, rfl, rfl, hcnum, hsnum, hencode⟩

end Definition

/-! ## Sessions -/

/-- The batcher a packet is given, if it is batched. -/
def Packet.batcher? (key : UInt8) (packet : Packet) : Option Batcher :=
  if packet.schema.isBatched then some ⟨key, packet.schema.maxBatch, []⟩ else none

namespace Session

variable {T S : Type} [Scheduler S]

theorem foldl_activateBatch (entries : List (UInt8 × Packet)) (s : Session T S) :
    ∃ scheduler timers, entries.foldl activateBatch s =
      { s with
        scheduler, timers
        batchers := s.batchers ++ entries.filterMap fun entry => entry.2.batcher? entry.1 } := by
  induction entries generalizing s with
  | nil => exact ⟨s.scheduler, s.timers, by simp⟩
  | cons entry entries ih =>
    obtain ⟨key, packet⟩ := entry
    obtain ⟨scheduler, timers, h⟩ := ih (s.activateBatch (key, packet))
    refine ⟨scheduler, timers, ?_⟩
    rw [List.foldl_cons, h]
    by_cases hbatched : packet.schema.isBatched = true
    · simp [activateBatch, Packet.batcher?, hbatched, scheduleRepeating]
    · simp [activateBatch, Packet.batcher?, hbatched]

/-- Activation touches registries, batchers, limiters and timers, and nothing else. -/
theorem activate_eq (s : Session T S) (outbound inbound : Registry) (window : Option Nat) :
    ∃ scheduler timers, s.activate outbound inbound window =
      { s with
        scheduler, timers, outbound, inbound
        sendLimiter := if window.isSome then .ofRegistry outbound else s.sendLimiter
        receiveLimiter := if window.isSome then .ofRegistry inbound else s.receiveLimiter
        batchers := s.batchers ++ outbound.entries.filterMap fun entry => entry.2.batcher? entry.1 } := by
  unfold activate
  cases window with
  | none =>
    obtain ⟨scheduler, timers, h⟩ := foldl_activateBatch outbound.entries s
    exact ⟨scheduler, timers, by simp [h]⟩
  | some window =>
    obtain ⟨scheduler, timers, h⟩ := foldl_activateBatch outbound.entries (scheduleRepeating
      { s with sendLimiter := .ofRegistry outbound, receiveLimiter := .ofRegistry inbound } .rateReset window)
    refine ⟨scheduler, timers, ?_⟩
    dsimp only
    rw [h]
    rfl

end Session

/-! ## Accepting -/

namespace ServerConnection

variable {S : Type} [Scheduler S]

/-- What serving does to a session; of its journal, that something may be counted. -/
theorem serve_eq {T : Type} (definition : Definition) (s : Session T S) :
    ∃ scheduler timers expiry, ∃ counts : List Count, serve definition s =
      { session :=
          { s with
            scheduler, timers
            journal := s.journal ++ counts.map .counted
            state := .ready
            outbound := definition.server
            inbound := definition.client
            sendLimiter := if definition.rateWindow.isSome then .ofRegistry definition.server else s.sendLimiter
            receiveLimiter := if definition.rateWindow.isSome then .ofRegistry definition.client else s.receiveLimiter
            batchers := s.batchers ++ definition.server.entries.filterMap fun entry => entry.2.batcher? entry.1 }
        definition, expiry } := by
  obtain ⟨scheduler, timers, h⟩ := s.activate_eq definition.server definition.client definition.rateWindow
  unfold serve
  rw [h]
  cases definition.config.handshakePacket with
  | none => exact ⟨scheduler, timers, none, [.handshakeSuccess], rfl⟩
  | some tag => exact ⟨_, _, _, [], by rw [List.map_nil, List.append_nil]; rfl⟩

/-- A connection over a new wire is served, and the handshake is all that is written. -/
theorem accept_eq (definition : Definition) (scheduler : S) :
    ∃ scheduler' timers expiry, ∃ counts : List Count, accept definition ({} : Wire) scheduler = .serving
      { session :=
          { state := .ready
            transport := { sent := [definition.handshake] }
            scheduler := scheduler'
            outbound := definition.server
            inbound := definition.client
            sendLimiter := if definition.rateWindow.isSome then .ofRegistry definition.server else .unlimited
            receiveLimiter := if definition.rateWindow.isSome then .ofRegistry definition.client else .unlimited
            deferred := .empty 0
            batchers := definition.server.entries.filterMap fun entry => entry.2.batcher? entry.1
            timers
            journal := counts.map .counted }
        definition, expiry } := by
  let s := (Session.start ({} : Wire) scheduler 0).count .handshakeAttempt
  obtain ⟨scheduler', timers, expiry, counts, h⟩ := serve_eq definition (s.write definition.handshake).2
  exact ⟨scheduler', timers, expiry,
    [.connectionEstablished, .handshakeAttempt, .messageSent definition.handshake.length] ++ counts,
    by rw [List.map_append]; exact congrArg Acceptance.serving h⟩

end ServerConnection

/-! ## Taking in the handshake -/

namespace ClientConnection

variable {T S : Type} [Scheduler S]

/-- Clients over a transport that have taken in no message: new ones, with callbacks set, opened or not. -/
inductive Fresh (transport : T) : ClientConnection T S → Prop
  | start (scheduler : S) (config : ClientConfig) : Fresh transport (.start transport scheduler config)
  | opened {c : ClientConnection T S} : Fresh transport c → Fresh transport c.opened
  | on {c c' : ClientConnection T S} {tag : String} {listener : Listener} :
      Fresh transport c → c.on tag listener = .ok c' → Fresh transport c'
  | onReady {c : ClientConnection T S} (callback : String) : Fresh transport c → Fresh transport (c.onReady callback)
  | onClose {c : ClientConnection T S} (callback : String) : Fresh transport c → Fresh transport (c.onClose callback)
  | onError {c : ClientConnection T S} (callback : String) : Fresh transport c → Fresh transport (c.onError callback)

/-- A fresh client waits for its transport or for the handshake. -/
theorem Fresh.waits {transport : T} {c : ClientConnection T S} (h : c.Fresh transport) :
    c.state = .connecting ∨ c.state = .awaitingSchema := by
  induction h with
  | start => exact .inl rfl
  | @opened c _ ih =>
    unfold ClientConnection.opened
    split
    · exact .inr rfl
    · exact ih
  | @on c c' tag listener _ hon ih =>
    unfold ClientConnection.on at hon
    rcases ih with hs | hs <;> rw [hs] at hon <;> cases hon
    · exact .inl hs
    · exact .inr hs
  | @onReady c callback _ ih =>
    unfold ClientConnection.onReady
    split <;> exact ih
  | onClose _ _ ih => exact ih
  | onError _ _ ih => exact ih

/-- `after` is `before` with what the handshake tells taken on. -/
structure Adopted (handshake : Handshake) (before after : ClientConnection T S) : Prop where
  state : after.state = .ready
  outbound : after.session.outbound = handshake.client
  inbound : after.session.inbound = handshake.server
  rateWindow : after.rateWindow = rateWindowMs handshake.rateWindow
  sendLimiter : after.session.sendLimiter =
    if after.rateWindow.isSome then .ofRegistry handshake.client else before.session.sendLimiter
  transport : after.session.transport = before.session.transport
  deferred : after.session.deferred = before.session.deferred
  batchers : after.session.batchers =
    before.session.batchers ++ handshake.client.entries.filterMap fun entry => entry.2.batcher? entry.1

theorem adopt_adopted (c : ClientConnection T S) (handshake : Handshake) : Adopted handshake c (c.adopt handshake) := by
  obtain ⟨_, _, h⟩ :=
    c.session.activate_eq handshake.client handshake.server (rateWindowMs handshake.rateWindow)
  simp only [adopt, h]
  exact ⟨rfl, rfl, rfl, rfl, rfl, rfl, rfl, rfl⟩

omit [Scheduler S] in
/-- Timers do not matter for it. -/
theorem Adopted.of_timers {handshake : Handshake} {c c' after : ClientConnection T S} (h : Adopted handshake c after)
    (htimers : ∃ scheduler timers expiry journal state,
      c = { c' with session := { c'.session with scheduler, timers, journal, state }, expiry }) :
    Adopted handshake c' after := by
  obtain ⟨_, _, _, _, _, rfl⟩ := htimers
  exact ⟨h.state, h.outbound, h.inbound, h.rateWindow, h.sendLimiter, h.transport, h.deferred, h.batchers⟩

theorem stopExpiry_adopt (c : ClientConnection T S) (handshake : Handshake) :
    Adopted handshake c (c.stopExpiry.adopt handshake) := by
  refine (c.stopExpiry.adopt_adopted handshake).of_timers ?_
  unfold stopExpiry
  split
  · exact ⟨_, _, _, _, _, rfl⟩
  · exact ⟨_, _, _, _, _, rfl⟩

/-- A client that waits takes on what the first message tells, if that is a handshake. -/
theorem onMessage_handshake [Transport T] {c : ClientConnection T S} {bytes : Bytes} {handshake : Handshake}
    (hwaits : c.state = .connecting ∨ c.state = .awaitingSchema) (h : Handshake.parse bytes = .ok handshake) :
    Adopted handshake c (c.onMessage bytes) := by
  unfold onMessage
  -- a client that does not wait yet begins to, and does what the other does
  rcases hwaits with hs | hs
  · simp only [hs, completeHandshake, h]
    exact (c.awaitHandshake.stopExpiry_adopt handshake).of_timers ⟨_, _, _, _, _, rfl⟩
  · simp only [hs, completeHandshake, h]
    exact c.stopExpiry_adopt handshake

end ClientConnection

/-! ## Agreement -/

/-- What one end learned of a registry of the other: the same tags under the same keys, and under
each the packet as it was announced. -/
structure Registry.Mirrors (learned own : Registry) : Prop where
  tags : learned.tags = own.tags
  keys : ∀ tag, learned.keyOf tag = own.keyOf tag
  packets : ∀ tag, learned.byTag tag = Packet.announced <$> own.byTag tag

theorem Registry.announced_mirrors (registry : Registry) : registry.announced.Mirrors registry := by
  refine ⟨registry.tags_announced, registry.keyOf_announced, fun tag => ?_⟩
  unfold byTag
  rw [keyOf_announced]
  cases registry.keyOf tag with
  | error e => rfl
  | ok key => exact registry.byKey_announced key

/-- The handshake of a definition tells of its packets. -/
theorem Definition.parse_handshake {client server : List Packet} {enums : EnumRegistry} {config : ServerConfig}
    {definition : Definition} (hclient : ∀ packet ∈ client, packet.Declared)
    (hserver : ∀ packet ∈ server, packet.Declared) (h : make client server enums config = .ok definition) :
    Handshake.parse definition.handshake = .ok ⟨Handshake.currentVersion, definition.client.announced,
      definition.server.announced, definition.config.rateWindow⟩ := by
  have hmade := made h
  exact Handshake.parse_encode hmade.clientNumbered hmade.serverNumbered
    (fun packet hp => (hclient packet (by simpa [hmade.client] using hp)).wellFormed)
    (fun packet hp => (hserver packet (by simpa [hmade.server] using hp)).wellFormed) hmade.handshake

/-- Both ends agree once a fresh client took in what the server wrote first. -/
theorem onMessage_accept {client server : List Packet} {enums : EnumRegistry} {config : ServerConfig}
    {definition : Definition} (hclient : ∀ packet ∈ client, packet.Declared)
    (hserver : ∀ packet ∈ server, packet.Declared) (h : Definition.make client server enums config = .ok definition)
    {T S S' : Type} [Transport T] [Scheduler S] [Scheduler S'] (scheduler : S') {transport : T}
    {c : ClientConnection T S} (hfresh : c.Fresh transport) :
    ∃ connection message, ServerConnection.accept definition ({} : Wire) scheduler = .serving connection ∧
      connection.session.transport.sent = [message] ∧
      (c.onMessage message).state = .ready ∧
      (c.onMessage message).session.outbound.Mirrors definition.client ∧
      (c.onMessage message).session.inbound.Mirrors definition.server ∧
      (c.onMessage message).rateWindow = definition.rateWindow := by
  have hmade := Definition.made h
  obtain ⟨_, _, _, _, haccept⟩ := ServerConnection.accept_eq definition scheduler
  have hparse := Handshake.parse_encode hmade.clientNumbered hmade.serverNumbered
    (fun packet hp => (hclient packet (by simpa [hmade.client] using hp)).wellFormed)
    (fun packet hp => (hserver packet (by simpa [hmade.server] using hp)).wellFormed) hmade.handshake
  have hadopted := ClientConnection.onMessage_handshake hfresh.waits hparse
  refine ⟨_, definition.handshake, haccept, rfl, hadopted.state, ?_, ?_, hadopted.rateWindow⟩
  · rw [hadopted.outbound]
    exact definition.client.announced_mirrors
  · rw [hadopted.inbound]
    exact definition.server.announced_mirrors

/-! ## A protocol of two packets -/

namespace Signals

def mood : EnumPackage := ⟨"mood", [.number ⟨0x7ff8000000000000⟩, .int (-5), .string "calm"]⟩

/-- Rows of a mood and a flag, batched, and switched off. -/
def moods : Packet :=
  { tag := "moods"
    schema :=
      { shape := .object [⟨.enum mood, 0, 4⟩, ⟨.booleans, 0, 300⟩], autoFlatten := true, batchInterval := 50
        maxBatch := 4 }
    enabled := false }

def say : Packet := { tag := "say", schema := { shape := .single ⟨.raw, 1, 100⟩, rateLimit := 3 } }

theorem moods_declared : moods.Declared := by
  have hobject : Schema.Declared { shape := .object [⟨.enum mood, 0, 4⟩, ⟨.booleans, 0, 300⟩] } := by
    refine @Schema.Declared.object [.enum mood, .booleans] [0, 0] [4, 300] _ ?_ rfl
    simp only [List.mem_cons, List.not_mem_nil, or_false, forall_eq_or_imp, forall_eq]
    exact ⟨⟨"mood", mood.members, rfl⟩, trivial⟩
  have hflat : Schema.Declared { shape := .object [⟨.enum mood, 0, 4⟩, ⟨.booleans, 0, 300⟩], autoFlatten := true } :=
    @Schema.Declared.autoFlatten _ _ true hobject rfl
  exact .enabled false (.make (hflat.batching 50 4) (by rfl : Packet.make "moods" _ = .ok _))

theorem say_declared : say.Declared := by
  have hsingle : Schema.Declared { shape := .single ⟨.raw, 1, 100⟩ } := @Schema.Declared.single .raw 1 100 _ trivial rfl
  exact .make (hsingle.rateLimit 3) (by rfl : Packet.make "say" _ = .ok _)

end Signals

theorem onMessage_accept_signals :
    let c := (ClientConnection.start ({} : Wire) ({} : Clock) {}).opened
    ∃ definition connection message,
      Definition.make [Signals.moods] [Signals.say] .empty {} = .ok definition ∧
      ServerConnection.accept definition ({} : Wire) ({} : Clock) = .serving connection ∧
      connection.session.transport.sent = [message] ∧
      (c.onMessage message).state = .ready ∧
      (c.onMessage message).session.outbound.Mirrors definition.client ∧
      (c.onMessage message).session.inbound.Mirrors definition.server ∧
      (c.onMessage message).rateWindow = definition.rateWindow := by
  intro c
  have hmake : ∃ definition, Definition.make [Signals.moods] [Signals.say] .empty {} = .ok definition := ⟨_, by rfl⟩
  obtain ⟨definition, hmake⟩ := hmake
  have hclient : ∀ packet ∈ [Signals.moods], packet.Declared := by simpa using Signals.moods_declared
  have hserver : ∀ packet ∈ [Signals.say], packet.Declared := by simpa using Signals.say_declared
  obtain ⟨connection, message, h⟩ :=
    onMessage_accept hclient hserver hmake ({} : Clock) (c := c) (.opened (.start _ _))
  exact ⟨definition, connection, message, hmake, h⟩

end PacketProtocol
