import PacketProtocol.Link
import PacketProtocol.Proofs.Agreement
import PacketProtocol.Proofs.Receiving
/-!
# Links with the handshake behind them

New ends, brought together over new wires, are ready to send and to receive. Without a rate window
and without validators the client sends exactly the packets the server takes in.
-/

namespace PacketProtocol

namespace ServerConnection

variable {S : Type} {definition : Definition} {c c' : ServerConnection Wire S}

/-- A server that waits for messages, and no listener of which has run. -/
structure Waiting (definition : Definition) (c : ServerConnection Wire S) : Prop where
  session : c.session.Receiving definition.client
  definition_eq : c.definition = definition
  heard : Journal.heard c.session.journal = []

/-- Registering a listener changes the dispatcher and nothing else. -/
theorem on_eq_ok {T : Type} {c c' : ServerConnection T S} {tag : String} {listener : Listener}
    (h : c.on tag listener = .ok c') :
    ∃ dispatcher, c' = { c with session := { c.session with dispatcher } } := by
  unfold ServerConnection.on at h
  split at h
  · cases h
  · obtain ⟨dispatcher, -, h⟩ := Outcome.bind_eq_ok.1 h
    exact ⟨dispatcher, (Outcome.pure_eq_ok.1 h).symm⟩

theorem Waiting.of_dispatcher (h : c.Waiting definition) (dispatcher : Dispatcher) :
    Waiting definition { c with session := { c.session with dispatcher } } :=
  ⟨⟨h.session.state, h.session.inbound, h.session.limiter⟩, h.definition_eq, h.heard⟩

theorem heard_counts (counts : List Count) : Journal.heard (counts.map .counted) = [] := by
  induction counts with
  | nil => rfl
  | cons count counts ih => exact ih

variable [Scheduler S]

/-- Servers over a new wire that have taken in no message, with callbacks set. -/
inductive Fresh (definition : Definition) : ServerConnection Wire S → Prop
  | accept {c : ServerConnection Wire S} (scheduler : S) :
      accept definition ({} : Wire) scheduler = .serving c → Fresh definition c
  | on {c c' : ServerConnection Wire S} {tag : String} {listener : Listener} :
      Fresh definition c → c.on tag listener = .ok c' → Fresh definition c'
  | onClose {c : ServerConnection Wire S} (callback : String) :
      Fresh definition c → Fresh definition (c.onClose callback)
  | onError {c : ServerConnection Wire S} (callback : String) :
      Fresh definition c → Fresh definition (c.onError callback)

theorem Fresh.sent (h : c.Fresh definition) : c.session.transport = { sent := [definition.handshake] } := by
  induction h with
  | @accept c scheduler haccept =>
    obtain ⟨_, _, _, _, h⟩ := accept_eq definition scheduler
    rw [h] at haccept
    cases haccept
    rfl
  | on _ hon ih =>
    obtain ⟨dispatcher, rfl⟩ := on_eq_ok hon
    exact ih
  | onClose _ _ ih => exact ih
  | onError _ _ ih => exact ih

theorem Fresh.waiting (hwindow : definition.rateWindow = none) (h : c.Fresh definition) : c.Waiting definition := by
  induction h with
  | @accept c scheduler haccept =>
    obtain ⟨_, _, _, counts, h⟩ := accept_eq definition scheduler
    rw [h] at haccept
    cases haccept
    exact ⟨⟨rfl, rfl, by simp [hwindow]⟩, rfl, heard_counts counts⟩
  | on _ hon ih =>
    obtain ⟨dispatcher, rfl⟩ := on_eq_ok hon
    exact ih.of_dispatcher dispatcher
  | onClose _ _ ih => exact ih.of_dispatcher _
  | onError _ _ ih => exact ih.of_dispatcher _

end ServerConnection

namespace ClientConnection

variable {T S : Type} [Scheduler S]

/-- What a fresh client has not touched yet. -/
structure Unused (transport : T) (c : ClientConnection T S) : Prop where
  transport_eq : c.session.transport = transport
  limiter : c.session.sendLimiter = .unlimited
  deferred : c.session.deferred.queues = []
  batchers : c.session.batchers = []

theorem Fresh.unused {transport : T} {c : ClientConnection T S} (h : c.Fresh transport) : c.Unused transport := by
  induction h with
  | start => exact ⟨rfl, rfl, rfl, rfl⟩
  | @opened c _ ih =>
    unfold ClientConnection.opened
    split
    · exact ⟨ih.transport_eq, ih.limiter, ih.deferred, ih.batchers⟩
    · exact ih
  | @on c c' tag listener hfresh hon ih =>
    unfold ClientConnection.on at hon
    rcases hfresh.waits with hs | hs <;> rw [hs] at hon <;> cases hon <;>
      exact ⟨ih.transport_eq, ih.limiter, ih.deferred, ih.batchers⟩
  | @onReady c callback _ ih =>
    unfold ClientConnection.onReady
    split <;> exact ⟨ih.transport_eq, ih.limiter, ih.deferred, ih.batchers⟩
  | onClose _ _ ih => exact ⟨ih.transport_eq, ih.limiter, ih.deferred, ih.batchers⟩
  | onError _ _ ih => exact ⟨ih.transport_eq, ih.limiter, ih.deferred, ih.batchers⟩

end ClientConnection

/-! ## The first batchers -/

theorem Registry.mem_batchers {registry : Registry} (h : registry.Numbered) {batcher : Batcher} :
    (batcher ∈ registry.entries.filterMap fun entry => entry.2.batcher? entry.1) ↔
      ∃ key packet, registry.byKey key = .ok packet ∧ packet.schema.isBatched = true ∧
        batcher = ⟨key, packet.schema.maxBatch, []⟩ := by
  simp only [List.mem_filterMap, Prod.exists, Registry.mem_entries h, Packet.batcher?, Option.ite_none_right_eq_some,
    Option.some.injEq, @eq_comm _ batcher]

/-- A client that has taken on a registry without a rate window can send its packets. -/
theorem ClientConnection.Adopted.sending {S : Type} [Scheduler S] {handshake : Handshake}
    {before after : ClientConnection Wire S} (h : Adopted handshake before after) (hunused : before.Unused {})
    (hnum : handshake.client.Numbered) (hwindow : rateWindowMs handshake.rateWindow = none) :
    after.session.Sending handshake.client ∧ after.session.transport.sent = [] ∧
      ∀ batcher ∈ after.session.batchers, batcher.pending = [] := by
  have hbatchers := h.batchers
  rw [hunused.batchers, List.nil_append] at hbatchers
  have hmem := fun batcher => hbatchers ▸ @Registry.mem_batchers handshake.client hnum batcher
  refine ⟨⟨h.state, h.outbound, ?_, ?_, ?_, fun key batcher hb => ?_, fun key packet hkey hbatched => ?_⟩, ?_,
    fun batcher hb => ?_⟩
  · rw [h.sendLimiter, h.rateWindow, hwindow]
    exact hunused.limiter
  · rw [h.deferred]
    exact hunused.deferred
  · rw [h.transport, hunused.transport_eq]
  · obtain ⟨key', packet, hkey, hbatched, rfl⟩ := (hmem batcher).1 (List.mem_of_find?_eq_some hb)
    obtain rfl : key' = key := Session.key_of_batcher? hb
    exact ⟨packet, hkey, hbatched, ⟨rfl, rfl, fun _ => Nat.zero_le _, nofun⟩⟩
  · refine Option.isSome_iff_exists.1 (List.find?_isSome.2 ⟨_, (hmem _).2 ⟨key, packet, hkey, hbatched, rfl⟩, ?_⟩)
    simp
  · rw [h.transport, hunused.transport_eq]
  · obtain ⟨_, _, _, _, rfl⟩ := (hmem batcher).1 hb
    rfl

/-! ## Links -/

namespace Link

/-- Links where the client took in the handshake of the server, and nothing was sent since; the
server may have been given more listeners. -/
inductive Established (definition : Definition) : Link → Prop
  | handshake {client : ClientConnection Wire Clock} {server : ServerConnection Wire Clock} :
      client.Fresh {} → server.Fresh definition → Established definition (toClient ⟨client, server⟩).2
  | on {link : Link} {server : ServerConnection Wire Clock} {tag : String} {listener : Listener} :
      Established definition link → link.server.on tag listener = .ok server →
      Established definition { link with server }

/-- A new client and server for these packets, after the handshake. -/
def establish (client server : List Packet) (config : ServerConfig) : Result Link := do
  let definition ← Definition.make client server .empty config
  match ServerConnection.accept definition ({} : Wire) ({} : Clock) with
  | .serving connection => return (toClient ⟨.start {} {} {}, connection⟩).2
  | .refused error _ => .error error

theorem Established.establish {client server : List Packet} {config : ServerConfig} {link : Link}
    (h : establish client server config = .ok link) :
    ∃ definition, Definition.make client server .empty config = .ok definition ∧ link.Established definition := by
  obtain ⟨definition, hmake, h⟩ := Outcome.bind_eq_ok.1 h
  split at h
  · rename_i connection haccept
    cases h
    exact ⟨definition, hmake, .handshake (.start _ _) (.accept _ haccept)⟩
  · cases h

/-- What a fresh server wrote is its handshake. -/
theorem toClient_fresh {definition : Definition} (c : ClientConnection Wire Clock) {s : ServerConnection Wire Clock}
    (h : s.Fresh definition) :
    (toClient ⟨c, s⟩).2 =
      ⟨c.onMessage definition.handshake, { s with session := { s.session with transport := {} } }⟩ := by
  simp only [toClient, takeSent, Wire.take, h.sent]
  rfl

/-- A client ready to send what the server is ready to receive, and nothing sent yet. -/
structure Idle (definition : Definition) (link : Link) : Prop where
  client : link.client.session.Sending definition.client
  server : link.server.Waiting definition
  sent : link.client.session.transport.sent = []
  pending : ∀ batcher ∈ link.client.session.batchers, batcher.pending = []

theorem Established.idle {client server : List Packet} {enums : EnumRegistry} {config : ServerConfig}
    {definition : Definition} {link : Link} (hclient : ∀ packet ∈ client, packet.Declared)
    (hserver : ∀ packet ∈ server, packet.Declared) (hmake : Definition.make client server enums config = .ok definition)
    (hvalidator : ∀ packet ∈ client, packet.validator = none) (hwindow : config.rateWindow = 0)
    (h : link.Established definition) : link.Idle definition := by
  have hmade := Definition.made hmake
  have hmember : ∀ packet ∈ definition.client.packets, packet ∈ client := by simp [hmade.client]
  have hnone : rateWindowMs definition.config.rateWindow = none := by rw [hmade.config, hwindow]; rfl
  induction h with
  | @handshake c s hfresh hserves =>
    have hparse := Definition.parse_handshake hclient hserver hmake
    rw [Registry.announced_of_validator fun packet hp => hvalidator packet (hmember packet hp)] at hparse
    have hadopted := ClientConnection.onMessage_handshake hfresh.waits hparse
    obtain ⟨hsending, hsent, hpending⟩ := hadopted.sending hfresh.unused hmade.clientNumbered hnone
    have hwaiting := hserves.waiting hnone
    rw [toClient_fresh c hserves]
    exact ⟨hsending,
      ⟨⟨hwaiting.session.state, hwaiting.session.inbound, hwaiting.session.limiter⟩, hwaiting.definition_eq,
        hwaiting.heard⟩, hsent, hpending⟩
  | on _ hon ih =>
    obtain ⟨dispatcher, rfl⟩ := ServerConnection.on_eq_ok hon
    exact ⟨ih.client, ih.server.of_dispatcher dispatcher, ih.sent, ih.pending⟩

end Link

end PacketProtocol
