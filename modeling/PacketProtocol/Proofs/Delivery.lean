import PacketProtocol.Proofs.Established
import PacketProtocol.Proofs.RoundTrip
/-!
# Nothing is lost on the way

A run interleaves sends of a client, flushes of its batches and deliveries to the server. At every
moment the packets the server heard, those on the wire and those in a batch are together the packets
the client sent, in the order it sent them unless a full batch was passed.
-/

namespace PacketProtocol

/-- The entries of a tag. -/
def ofTag {α : Type} (tag : String) (entries : List (String × α)) : List α :=
  entries.filterMap fun entry => if entry.1 = tag then some entry.2 else none

section OfTag

variable {α : Type}

@[simp]
theorem ofTag_nil (tag : String) : ofTag tag ([] : List (String × α)) = [] := rfl

@[simp]
theorem ofTag_append (tag : String) (front back : List (String × α)) :
    ofTag tag (front ++ back) = ofTag tag front ++ ofTag tag back := by
  simp [ofTag]

@[simp]
theorem ofTag_map_self (tag : String) (entries : List α) : ofTag tag (entries.map (tag, ·)) = entries := by
  simp [ofTag]

theorem ofTag_map_of_ne {tag other : String} (h : other ≠ tag) (entries : List α) :
    ofTag tag (entries.map (other, ·)) = [] := by
  simp [ofTag, h]

@[simp]
theorem ofTag_singleton (tag : String) (entry : α) : ofTag tag [(tag, entry)] = [entry] :=
  ofTag_map_self tag [entry]

theorem ofTag_singleton_of_ne {tag other : String} (h : other ≠ tag) (entry : α) : ofTag tag [(other, entry)] = [] :=
  ofTag_map_of_ne h [entry]

end OfTag

/-! ## Waiting payloads -/

namespace Session

variable {T S : Type}

/-- Payloads of a key that wait for a flush. -/
def waiting (s : Session T S) (key : UInt8) : List Bytes := ((s.batcher? key).map Batcher.pending).getD []

/-- Arguments of the packets of a tag that wait for a flush. -/
def accumulated (s : Session T S) (tag : String) : List (List Value) :=
  match s.outbound.keyOf tag with
  | .error _ => []
  | .ok key =>
    match s.outbound.byKey key with
    | .error _ => []
    | .ok packet => packet.opened (s.waiting key)

theorem accumulated_eq {s : Session T S} (hnum : s.outbound.Numbered) {key : UInt8} {packet : Packet}
    (hkey : s.outbound.byKey key = .ok packet) : s.accumulated packet.tag = packet.opened (s.waiting key) := by
  simp only [accumulated, hnum.keyOf_of_byKey hkey, hkey]

theorem waiting_of_batcher? {s : Session T S} {key : UInt8} {batcher : Batcher} (h : s.batcher? key = some batcher) :
    s.waiting key = batcher.pending := by
  simp [waiting, h]

theorem waiting_setBatcher {s : Session T S} {batcher old : Batcher} (h : s.batcher? batcher.key = some old) :
    (s.setBatcher batcher).waiting batcher.key = batcher.pending :=
  waiting_of_batcher? (batcher?_setBatcher_same h)

theorem waiting_setBatcher_of_ne {s : Session T S} {batcher : Batcher} {key : UInt8} (h : key ≠ batcher.key) :
    (s.setBatcher batcher).waiting key = s.waiting key := by
  rw [waiting, batcher?_setBatcher_of_ne h, waiting]

end Session

/-! ## Runs -/

/-- A link with what happened on it. -/
structure Trace where
  link : Link
  /-- Sends that succeeded, oldest first. -/
  accepted : List (String × List Value) := []
  /-- Messages that reached the server, oldest first. -/
  delivered : List Bytes := []

namespace Trace

/-- What may happen on a link whose client sends. -/
inductive Event where
  | send (tag : String) (values : List Value)
  /-- The timer of a batch fires. -/
  | flush (key : UInt8)
  /-- The oldest message of the client reaches the server. -/
  | deliver

def next (trace : Trace) : Event → Trace
  | .send tag values =>
    match trace.link.client.send tag values with
    | (.ok (), client) =>
      { trace with link := { trace.link with client }, accepted := trace.accepted ++ [(tag, values)] }
    | (.error _, client) => { trace with link := { trace.link with client } }
  | .flush key => { trace with link := { trace.link with client := trace.link.client.onTimer (.batchFlush key) } }
  | .deliver =>
    let session := trace.link.client.session
    match session.transport.sent with
    | [] => trace
    | message :: rest =>
      { trace with
        link :=
          { client :=
              { trace.link.client with
                session := { session with transport := { session.transport with sent := rest } } }
            server := trace.link.server.onMessage message }
        delivered := trace.delivered ++ [message] }

def run (link : Link) (events : List Event) : Trace := events.foldl next { link }

theorem next_deliver {trace : Trace} {message : Bytes} {rest : List Bytes}
    (h : trace.link.client.session.transport.sent = message :: rest) :
    trace.next .deliver =
      { trace with
        link :=
          { client :=
              { trace.link.client with
                session :=
                  { trace.link.client.session with
                    transport := { trace.link.client.session.transport with sent := rest } } }
            server := trace.link.server.onMessage message }
        delivered := trace.delivered ++ [message] } := by
  simp only [next, h]

/-- Tags and arguments of the packets that reached the server. -/
def received (registry : Registry) (trace : Trace) : List (String × List Value) :=
  trace.delivered.flatMap registry.contents

/-- Tags and arguments of the packets on the wire. -/
def inFlight (registry : Registry) (trace : Trace) : List (String × List Value) :=
  trace.link.client.session.transport.sent.flatMap registry.contents

end Trace

/-! ## What is sent arrives -/

/-- Registries whose packets arrive as they were sent: nothing refuses them, and no rows are turned
into columns. -/
structure Registry.Plain (registry : Registry) : Prop where
  numbered : registry.Numbered
  schema : ∀ packet ∈ registry.packets, packet.schema.WellFormed
  flatten : ∀ packet ∈ registry.packets, packet.schema.autoFlatten = false
  validator : ∀ packet ∈ registry.packets, packet.validator = none

theorem Registry.Plain.decode {registry : Registry} (h : registry.Plain) {key : UInt8} {packet : Packet}
    (hkey : registry.byKey key = .ok packet) {values : List Value} {payload : Bytes}
    (he : packet.encode values = .ok payload) : packet.decode payload = .ok (packet.schema.canonical values) := by
  have hmem : packet ∈ registry.packets := List.mem_of_getElem? (Registry.byKey_eq_ok.1 hkey).2
  exact Packet.decode_of_encode (h.schema packet hmem) (h.flatten packet hmem) (h.validator packet hmem) he

theorem Registry.Numbered.tag_ne {registry : Registry} (h : registry.Numbered) {key other : UInt8}
    {packet packet' : Packet} (hkey : registry.byKey key = .ok packet) (hother : registry.byKey other = .ok packet')
    (hne : other ≠ key) : packet.tag ≠ packet'.tag := by
  intro htag
  have hkeys := h.keyOf_of_byKey hkey
  rw [htag] at hkeys
  exact hne (Outcome.ok_unique (h.keyOf_of_byKey hother) hkeys)

namespace Packet

/-- What listeners are called with for a packet sent with these values. -/
def arrival (packet : Packet) (values : List Value) : List Value :=
  packet.schema.arguments (packet.schema.canonical values)

/-- No packet passes one that waits. -/
def KeepsOrder (packet : Packet) : Prop := packet.schema.isBatched = false ∨ packet.schema.maxBatch = 0

section Balance

variable {α : Type}

/-- What left an end and what waits there are what was sent. -/
def Balanced (packet : Packet) (left waiting sent : List α) : Prop :=
  (left ++ waiting).Perm sent ∧ (packet.KeepsOrder → left ++ waiting = sent)

variable {packet : Packet} {left waiting held sent : List α}

theorem Balanced.wait (h : packet.Balanced left waiting sent) (item : α) :
    packet.Balanced left (waiting ++ [item]) (sent ++ [item]) := by
  refine ⟨?_, fun horder => ?_⟩
  · rw [← List.append_assoc]
    exact h.1.append_right [item]
  · rw [← List.append_assoc, h.2 horder]

/-- Of those that wait, one that passes others breaks the order, and nothing else. -/
theorem Balanced.overtake {item : α} (h : packet.Balanced left (waiting ++ item :: held) sent)
    (hnone : packet.KeepsOrder → waiting = []) : packet.Balanced (left ++ [item]) (waiting ++ held) sent := by
  refine ⟨?_, fun horder => ?_⟩
  · have hmiddle : (item :: (waiting ++ held)).Perm (waiting ++ item :: held) := List.perm_middle.symm
    rw [List.append_assoc]
    exact (hmiddle.append_left left).trans h.1
  · have hsent := h.2 horder
    rw [hnone horder] at hsent ⊢
    simpa using hsent

/-- What passes the waiting packets breaks the order, and nothing else. -/
theorem Balanced.pass (h : packet.Balanced left waiting sent) (hnone : packet.KeepsOrder → waiting = []) (item : α) :
    packet.Balanced (left ++ [item]) waiting (sent ++ [item]) := by
  have hpass := (h.wait item).overtake hnone
  rwa [List.append_nil] at hpass

/-- What waits longest leaves first. -/
theorem Balanced.leave (h : packet.Balanced left (waiting ++ held) sent) :
    packet.Balanced (left ++ waiting) held sent := by
  rw [Balanced, List.append_assoc]
  exact h

theorem Balanced.flush (h : packet.Balanced left waiting sent) : packet.Balanced (left ++ waiting) [] sent := by
  rw [← List.append_nil waiting] at h
  exact h.leave

end Balance

end Packet

namespace Session

variable {S : Type} {registry : Registry} {s s' : Session Wire S}

/-- A placed payload is on the wire or waits, and what waits under other keys is left alone. -/
theorem Placed.effect (h : s.Sending registry) {key : UInt8} {packet : Packet} {payload : Bytes} {values : List Value}
    (hkey : registry.byKey key = .ok packet) (henabled : packet.enabled = true)
    (hdecode : packet.decode payload = .ok values) (hplaced : s.Placed key packet payload s') :
    ∃ messages, s'.transport.sent = s.transport.sent ++ messages ∧
      (∀ message ∈ messages, registry.Genuine message) ∧ (∀ other, other ≠ key → s'.waiting other = s.waiting other) ∧
      (messages.flatMap registry.contents = [(packet.tag, packet.schema.arguments values)] ∧
          s'.waiting key = s.waiting key ∧ (packet.KeepsOrder → s.waiting key = []) ∨
        messages = [] ∧ s'.waiting key = s.waiting key ++ [payload]) := by
  have hreadable : packet.Readable payload := ⟨henabled, values, hdecode⟩
  cases hplaced with
  | message journal hbatched =>
    refine ⟨[key :: payload], rfl, ?_, fun _ _ => rfl, .inl ⟨?_, rfl, fun _ => ?_⟩⟩
    · simpa using Registry.Genuine.single hkey hbatched hreadable
    · simp [Registry.contents_single hkey hbatched, Packet.opened_singleton hdecode]
    · -- a packet that is not batched has no batcher
      cases hbatcher : s.batcher? key with
      | none => simp [waiting, hbatcher]
      | some batcher =>
        obtain ⟨packet', hkey', hbatched', -⟩ := h.serves key batcher hbatcher
        obtain rfl := Outcome.ok_unique hkey hkey'
        rw [hbatched] at hbatched'
        cases hbatched'
  | pending batcher journal hbatched hbatcher hlt hroom =>
    obtain rfl := key_of_batcher? hbatcher
    refine ⟨[], (List.append_nil _).symm, nofun, fun other hne => ?_, .inr ⟨rfl, ?_⟩⟩
    · exact waiting_setBatcher_of_ne hne
    · rw [waiting_of_batcher? hbatcher]
      exact @waiting_setBatcher _ _ s { batcher with pending := batcher.pending ++ [payload] } batcher hbatcher
  | overflow batcher journal hbatched hbatcher hlt hfull =>
    have hpayloads : ∀ p ∈ [payload], p.length < Varint.bound ∧ packet.Readable p := by
      simpa using ⟨hlt, hreadable⟩
    obtain ⟨packet', hkey', -, hserves⟩ := h.serves key batcher hbatcher
    obtain rfl := Outcome.ok_unique hkey hkey'
    have hroom : 0 < packet.schema.maxBatch → [payload].length ≤ packet.schema.maxBatch.toNat := by
      intro hpos
      exact UInt32.lt_iff_toNat_lt.1 hpos
    refine ⟨[Batcher.message key [payload]], rfl, ?_, fun _ _ => rfl, .inl ⟨?_, rfl, fun horder => ?_⟩⟩
    · simpa using Registry.Genuine.batch hkey hbatched (List.cons_ne_nil _ _) hroom hpayloads
    · rw [List.flatMap_singleton, Registry.contents_batch hkey hbatched (List.cons_ne_nil _ _) hroom hpayloads,
        Packet.opened_singleton hdecode, List.map_singleton]
    · -- a batch without a bound is never full
      obtain hunbatched | hunbounded := horder
      · rw [hbatched] at hunbatched
        cases hunbatched
      · simp [Batcher.isFull, hserves.maxBatch_eq, hunbounded] at hfull

/-- What waits under a key is written as one message, if anything does. -/
theorem flush_effect (h : s.Sending registry) (key : UInt8) :
    ∃ messages, (s.onTimer (.batchFlush key)).transport.sent = s.transport.sent ++ messages ∧
      (s.onTimer (.batchFlush key)).Sending registry ∧ (∀ message ∈ messages, registry.Genuine message) ∧
      ((∀ other, (s.onTimer (.batchFlush key)).waiting other = s.waiting other) ∧ messages = [] ∨
        ∃ packet, registry.byKey key = .ok packet ∧
          messages.flatMap registry.contents = (packet.opened (s.waiting key)).map (packet.tag, ·) ∧
          (s.onTimer (.batchFlush key)).waiting key = [] ∧
          ∀ other, other ≠ key → (s.onTimer (.batchFlush key)).waiting other = s.waiting other) := by
  obtain hsame | ⟨batcher, packet, journal, hbatcher, hkey, hbatched, hserves, hne, hflush⟩ := flush_cases h key
  · rw [hsame]
    exact ⟨[], (List.append_nil _).symm, h, nofun, .inl ⟨fun _ => rfl, rfl⟩⟩
  · rw [hflush]
    refine ⟨[Batcher.message key batcher.pending], rfl, h.flushed hkey hbatched hbatcher hserves _ journal, ?_,
      .inr ⟨packet, hkey, ?_, ?_, fun other hother => ?_⟩⟩
    · simpa using Registry.Genuine.batch hkey hbatched hne hserves.room hserves.pending
    · simp [Registry.contents_batch hkey hbatched hne hserves.room hserves.pending, waiting_of_batcher? hbatcher]
    · obtain rfl := hserves.key_eq
      exact @waiting_setBatcher _ _ s batcher.clear batcher hbatcher
    · obtain rfl := hserves.key_eq
      exact waiting_setBatcher_of_ne hother

end Session

/-! ## The invariant of a run -/

namespace Dispatcher

theorem calls_append (d : Dispatcher) (front back : List (String × List Value)) :
    d.calls (front ++ back) = d.calls front ++ d.calls back := by
  simp [calls]

end Dispatcher

namespace Trace

/-- At both ends of a link the same registry is in use, whatever is on the wire can be taken in, the
listeners heard all that reached the server, and of each packet nothing is missing. -/
structure Sync (registry : Registry) (dispatcher : Dispatcher) (trace : Trace) : Prop where
  client : trace.link.client.session.Sending registry
  server : trace.link.server.session.Receiving registry
  first : trace.link.server.definition.config.handshakePacket = none
  dispatcher_eq : trace.link.server.session.dispatcher = dispatcher
  genuine : ∀ message ∈ trace.link.client.session.transport.sent, registry.Genuine message
  heard : Journal.heard trace.link.server.session.journal = dispatcher.calls (trace.received registry)
  balanced : ∀ key packet, registry.byKey key = .ok packet →
    packet.Balanced (ofTag packet.tag (trace.received registry ++ trace.inFlight registry))
      (packet.opened (trace.link.client.session.waiting key)) ((ofTag packet.tag trace.accepted).map packet.arrival)

variable {registry : Registry} {dispatcher : Dispatcher} {trace : Trace}

theorem Sync.send (hplain : registry.Plain) (h : trace.Sync registry dispatcher) (tag : String)
    (values : List Value) : Sync registry dispatcher (trace.next (.send tag values)) := by
  obtain ⟨e, journal, hsend⟩ | ⟨s', key, packet, payload, hsend, hkey, rfl, henabled, hencode, hplaced⟩ :=
    Session.send_cases hplain.numbered h.client tag values
  · simp only [Trace.next, ClientConnection.send, hsend]
    exact ⟨h.client.of_wire _ journal, h.server, h.first, h.dispatcher_eq, h.genuine, h.heard, h.balanced⟩
  · have hdecode := hplain.decode hkey hencode
    obtain ⟨messages, hsent, hgenuine, hothers, hplace⟩ := hplaced.effect h.client hkey henabled hdecode
    simp only [Trace.next, ClientConnection.send, hsend]
    refine ⟨h.client.placed hkey ⟨henabled, _, hdecode⟩ hplaced, h.server, h.first, h.dispatcher_eq, ?_, h.heard, ?_⟩
    · rw [hsent]
      exact List.forall_mem_append.2 ⟨h.genuine, hgenuine⟩
    intro other packet' hother
    have hbalanced := h.balanced other packet' hother
    simp only [received, inFlight, hsent, List.flatMap_append, ofTag_append, List.map_append] at hbalanced ⊢
    by_cases hne : other = key
    · subst hne
      obtain rfl := Outcome.ok_unique hkey hother
      rw [ofTag_singleton]
      obtain ⟨hcontents, hwaiting, hnone⟩ | ⟨rfl, hwaiting⟩ := hplace
      · rw [hcontents, ofTag_singleton, hwaiting, ← List.append_assoc]
        exact hbalanced.pass (fun horder => by rw [hnone horder]; rfl) _
      · rw [hwaiting, Packet.opened_append, Packet.opened_singleton hdecode, List.flatMap_nil, ofTag_nil,
          List.append_nil]
        exact hbalanced.wait _
    · -- of another packet nothing was sent
      have htag := hplain.numbered.tag_ne hkey hother hne
      have hmessages : ofTag packet'.tag (messages.flatMap registry.contents) = [] := by
        obtain ⟨hcontents, -, -⟩ | ⟨rfl, -⟩ := hplace
        · rw [hcontents, ofTag_singleton_of_ne htag]
        · rfl
      rw [hmessages, hothers other hne, ofTag_singleton_of_ne htag, List.map_nil, List.append_nil, List.append_nil]
      exact hbalanced

theorem Sync.flush (hnum : registry.Numbered) (h : trace.Sync registry dispatcher) (key : UInt8) :
    Sync registry dispatcher (trace.next (.flush key)) := by
  obtain ⟨messages, hsent, hsending, hgenuine, hflush⟩ := Session.flush_effect h.client key
  simp only [Trace.next, ClientConnection.onTimer]
  refine ⟨hsending, h.server, h.first, h.dispatcher_eq, ?_, h.heard, fun other packet' hother => ?_⟩
  · rw [hsent]
    exact List.forall_mem_append.2 ⟨h.genuine, hgenuine⟩
  have hbalanced := h.balanced other packet' hother
  simp only [received, inFlight, hsent, List.flatMap_append, ofTag_append] at hbalanced ⊢
  obtain ⟨hsame, rfl⟩ | ⟨packet, hkey, hcontents, hempty, hothers⟩ := hflush
  · rw [hsame, List.flatMap_nil, ofTag_nil, List.append_nil]
    exact hbalanced
  · rw [hcontents]
    by_cases hne : other = key
    · subst hne
      obtain rfl := Outcome.ok_unique hkey hother
      rw [ofTag_map_self, hempty, ← List.append_assoc]
      exact hbalanced.flush
    · rw [ofTag_map_of_ne (hnum.tag_ne hkey hother hne), hothers other hne, List.append_nil]
      exact hbalanced

theorem Sync.deliver (h : trace.Sync registry dispatcher) : Sync registry dispatcher (trace.next .deliver) := by
  cases hwire : trace.link.client.session.transport.sent with
  | nil => simpa only [Trace.next, hwire] using h
  | cons message rest =>
    obtain ⟨journal, hmessage, hheard⟩ :=
      ServerConnection.onMessage_genuine h.server h.first (h.genuine message (by simp [hwire]))
    rw [next_deliver hwire, hmessage]
    refine ⟨h.client.of_wire rest _, h.server.note _, h.first, h.dispatcher_eq, fun m hm => ?_, ?_,
      fun key packet hkey => ?_⟩
    · exact h.genuine m (by simp [hwire, hm])
    · rw [Journal.heard_append, h.heard, hheard, h.dispatcher_eq, received, received, List.flatMap_append,
        Dispatcher.calls_append, List.flatMap_singleton]
    · -- the message moves from the wire to those that reached the server
      have hbalanced := h.balanced key packet hkey
      simp only [received, inFlight, hwire, List.flatMap_append, List.flatMap_cons, List.flatMap_nil, List.append_nil,
        List.append_assoc] at hbalanced ⊢
      exact hbalanced

theorem Sync.next (hplain : registry.Plain) (h : trace.Sync registry dispatcher) (event : Event) :
    Sync registry dispatcher (trace.next event) := by
  cases event with
  | send tag values => exact h.send hplain tag values
  | flush key => exact h.flush hplain.numbered key
  | deliver => exact h.deliver

theorem Sync.run (hplain : registry.Plain) (h : trace.Sync registry dispatcher) (events : List Event) :
    Sync registry dispatcher (events.foldl Trace.next trace) := by
  induction events generalizing trace with
  | nil => exact h
  | cons event events ih => exact ih (h.next hplain event)

theorem sync_of_idle {definition : Definition} {link : Link} (h : link.Idle definition)
    (hfirst : definition.config.handshakePacket = none) :
    Sync definition.client link.server.session.dispatcher { link } := by
  refine ⟨h.client, h.server.session, by rw [h.server.definition_eq, hfirst], rfl, ?_, h.server.heard, ?_⟩
  · simp [h.sent]
  · intro key packet _
    have hwaiting : link.client.session.waiting key = [] := by
      unfold Session.waiting
      cases hbatcher : link.client.session.batcher? key with
      | none => rfl
      | some batcher => exact h.pending batcher (List.mem_of_find?_eq_some hbatcher)
    simp [hwaiting, received, inFlight, h.sent, Packet.Balanced]

/-- Whatever a client sends is heard once, on the wire once, or waits once. -/
theorem run_delivers {client server : List Packet} {enums : EnumRegistry} {config : ServerConfig}
    {definition : Definition} (hclient : ∀ packet ∈ client, packet.Declared)
    (hserver : ∀ packet ∈ server, packet.Declared) (hmake : Definition.make client server enums config = .ok definition)
    (hwindow : config.rateWindow = 0) (hfirst : config.handshakePacket = none)
    (hvalidator : ∀ packet ∈ client, packet.validator = none)
    (hflatten : ∀ packet ∈ client, packet.schema.autoFlatten = false) {link : Link} (h : link.Established definition)
    (events : List Event) :
    let trace := run link events
    trace.link.client.state = .ready ∧ trace.link.server.state = .ready ∧
      Journal.heard trace.link.server.session.journal =
        link.server.session.dispatcher.calls (trace.received definition.client) ∧
      ∀ packet ∈ client,
        let arrived := ofTag packet.tag (trace.received definition.client) ++
          ofTag packet.tag (trace.inFlight definition.client) ++ trace.link.client.session.accumulated packet.tag
        let sent := (ofTag packet.tag trace.accepted).map packet.arrival
        arrived.Perm sent ∧ (packet.schema.isBatched = false ∨ packet.schema.maxBatch = 0 → arrived = sent) := by
  have hmade := Definition.made hmake
  have hmember : ∀ packet, packet ∈ definition.client.packets ↔ packet ∈ client := by simp [hmade.client]
  have hplain : definition.client.Plain :=
    ⟨hmade.clientNumbered, fun packet hp => (hclient packet ((hmember packet).1 hp)).wellFormed.schema,
      fun packet hp => hflatten packet ((hmember packet).1 hp),
      fun packet hp => hvalidator packet ((hmember packet).1 hp)⟩
  have hidle := h.idle hclient hserver hmake hvalidator hwindow
  intro trace
  have hsync : trace.Sync definition.client link.server.session.dispatcher :=
    (sync_of_idle hidle (by rw [hmade.config, hfirst])).run hplain events
  refine ⟨hsync.client.state, hsync.server.state, hsync.heard, fun packet hp => ?_⟩
  obtain ⟨key, hkey⟩ := hplain.numbered.exists_key ((hmember packet).2 hp)
  have hbalanced := hsync.balanced key packet hkey
  have houtbound := hsync.client.outbound
  have haccumulated : trace.link.client.session.accumulated packet.tag =
      packet.opened (trace.link.client.session.waiting key) :=
    Session.accumulated_eq (by rw [houtbound]; exact hplain.numbered) (by rw [houtbound]; exact hkey)
  rw [ofTag_append] at hbalanced
  rw [haccumulated]
  exact hbalanced

/-! ## A run where a packet passes another -/

namespace Pulses

/-- Batched, with room for one packet that waits. -/
def beat : Packet :=
  { tag := "beat", schema := { shape := .single ⟨.intsDynamic, 1, 4⟩, batchInterval := 50, maxBatch := 1 } }

def note : Packet := { tag := "note", schema := { shape := .single ⟨.raw, 1, 100⟩ } }

theorem declared : ∀ packet ∈ [beat, note], packet.Declared := by
  have hints : Schema.Declared { shape := .single ⟨.intsDynamic, 1, 4⟩ } :=
    @Schema.Declared.single .intsDynamic 1 4 _ trivial rfl
  have hraw : Schema.Declared { shape := .single ⟨.raw, 1, 100⟩ } := @Schema.Declared.single .raw 1 100 _ trivial rfl
  simp only [List.mem_cons, List.not_mem_nil, or_false, forall_eq_or_imp, forall_eq]
  exact ⟨.make (hints.batching 50 1) (by rfl : Packet.make "beat" _ = .ok _),
    .make hraw (by rfl : Packet.make "note" _ = .ok _)⟩

/-- A server with a listener for beats. -/
def server (definition : Definition) : Result (ServerConnection Wire Clock) :=
  match ServerConnection.accept definition ({} : Wire) ({} : Clock) with
  | .serving connection => connection.on "beat" { name := "log" }
  | .refused e _ => .error e

def link : Result Link := do
  let definition ← Definition.make [beat, note] [] .empty { rateWindow := 0 }
  return (Link.toClient ⟨.start {} {} {}, ← server definition⟩).2

theorem link_established {l : Link} (h : link = .ok l) :
    ∃ definition, Definition.make [beat, note] [] .empty { rateWindow := 0 } = .ok definition ∧
      l.Established definition := by
  obtain ⟨definition, hmake, h⟩ := Outcome.bind_eq_ok.1 h
  obtain ⟨connection, hserver, h⟩ := Outcome.bind_eq_ok.1 h
  obtain rfl := Outcome.pure_eq_ok.1 h
  refine ⟨definition, hmake, .handshake (.start _ _) ?_⟩
  unfold server at hserver
  split at hserver
  · rename_i haccept
    exact .on (.accept _ haccept) hserver
  · cases hserver

/-- The second beat goes out at once, before the first. -/
def events : List Event :=
  [.send "beat" [.int 1], .send "beat" [.int 2], .send "note" [.string "x"], .deliver, .flush 1]

end Pulses

theorem run_delivers_pulses :
    ∃ definition link,
      Definition.make [Pulses.beat, Pulses.note] [] .empty { rateWindow := 0 } = .ok definition ∧
      link.Established definition ∧
      let trace := run link Pulses.events
      trace.accepted = [("beat", [.int 1]), ("beat", [.int 2]), ("note", [.string "x"])] ∧
      Journal.heard trace.link.server.session.journal = [("log", [.int 2])] ∧
      trace.link.server.state = .ready ∧
      (ofTag "beat" (trace.received definition.client) ++ ofTag "beat" (trace.inFlight definition.client) ++
        trace.link.client.session.accumulated "beat").Perm [[.int 1], [.int 2]] := by
  have hrun : (fun link => ((run link Pulses.events).accepted,
      Journal.heard (run link Pulses.events).link.server.session.journal)) <$> Pulses.link =
      .ok ([("beat", [.int 1]), ("beat", [.int 2]), ("note", [.string "x"])], [("log", [.int 2])]) := by
    cbv
  obtain ⟨link, hlink, hrun⟩ := Outcome.map_eq_ok.1 hrun
  obtain ⟨haccepted, hheard⟩ := Prod.mk.inj hrun
  obtain ⟨definition, hmake, hestablished⟩ := Pulses.link_established hlink
  obtain ⟨-, hready, -, hpackets⟩ := run_delivers Pulses.declared (by simp) hmake rfl rfl
    (by simp [Pulses.beat, Pulses.note]) (by simp [Pulses.beat, Pulses.note]) hestablished Pulses.events
  obtain ⟨hperm, -⟩ := hpackets Pulses.beat (by simp)
  have hsent :
      (ofTag "beat" [("beat", [.int 1]), ("beat", [.int 2]), ("note", [.string "x"])]).map Pulses.beat.arrival =
        [[.int 1], [.int 2]] := by
    cbv
  rw [haccepted] at hperm
  exact ⟨definition, link, hmake, hestablished, haccepted, hheard, hready, hsent ▸ hperm⟩

end Trace

end PacketProtocol
