import PacketProtocol.Proofs.Counting
import PacketProtocol.Proofs.Metering
/-!
# Limits at both ends

A client counts a payload when it lets it pass, the server when it arrives. Between the two it may
wait in a batch, and if a window ends meanwhile it is counted in the next one as well. That is the only
way in which a client that sends and keeps its timers is closed for the rate.
-/

namespace PacketProtocol

namespace Registry

variable {registry : Registry} {key : UInt8}

theorem carried_announced (registry : Registry) (key : UInt8) (message : Bytes) :
    registry.announced.carried key message = registry.carried key message := by
  cases message with
  | nil => rfl
  | cons octet body =>
    simp only [carried, byKey_announced]
    cases registry.byKey key <;> rfl

/-- Packets that have a cap. -/
theorem byKey_of_cap (h : 0 < (RateLimiter.ofRegistry registry).cap key) :
    ∃ packet, registry.byKey key = .ok packet ∧ 0 < packet.schema.rateLimit := by
  unfold RateLimiter.cap RateLimiter.allowance? at h
  split at h
  · cases h
  · rename_i hkey
    simp only [RateLimiter.ofRegistry, List.getElem?_map] at h
    cases hpacket : registry.packets[key.toNat - 1]? with
    | none =>
      rw [hpacket] at h
      cases h
    | some packet =>
      rw [hpacket] at h
      exact ⟨packet, byKey_eq_ok.2 ⟨hkey, hpacket⟩, UInt32.lt_iff_toNat_lt.2 h⟩

theorem cap_announced (registry : Registry) (key : UInt8) :
    (RateLimiter.ofRegistry registry.announced).cap key = (RateLimiter.ofRegistry registry).cap key := by
  simp [RateLimiter.ofRegistry, announced, Packet.announced, Function.comp_def]

end Registry

/-! ## Clients that take in messages -/

namespace ClientConnection

variable {S : Type} [Scheduler S] {c : ClientConnection Wire S}

/-- Taking in a message sends nothing, whether or not the client closes over it. -/
theorem onMessage_aside (h : c.session.state = .ready) (bytes : Bytes) :
    c.session.Aside (c.onMessage bytes).session ∨
      (c.onMessage bytes).session.state = .closed ∧
        (c.onMessage bytes).session.transport.sent = c.session.transport.sent := by
  have haside := c.session.aside_receive bytes h
  have hmessage : (c.onMessage bytes).session = c.session.receiveOrFail bytes := by
    simp only [onMessage, ClientConnection.state, h]
  rw [hmessage, Session.receiveOrFail]
  split
  · rename_i hreceive
    rw [hreceive] at haside
    exact .inl haside
  · rename_i error s hreceive
    rw [hreceive] at haside
    refine .inr ?_
    unfold Session.fail
    split
    · exact ⟨Session.close_state _ _ _, by rw [Session.close_sent]; exact congrArg (·.sent) haside.transport⟩
    · exact ⟨Session.close_state _ _ _, by rw [Session.close_sent, haside.transport]⟩

theorem foldl_onMessage_of_closed (h : c.session.state = .closed) (messages : List Bytes) :
    messages.foldl onMessage c = c := by
  induction messages with
  | nil => rfl
  | cons message messages ih =>
    have hmessage : c.onMessage message = c := by simp only [onMessage, ClientConnection.state, h]
    rw [List.foldl_cons, hmessage]
    exact ih

theorem foldl_onMessage_aside (h : c.session.state = .ready) (messages : List Bytes) :
    c.session.Aside (messages.foldl onMessage c).session ∨
      (messages.foldl onMessage c).session.state = .closed ∧
        (messages.foldl onMessage c).session.transport.sent = c.session.transport.sent := by
  induction messages generalizing c with
  | nil => exact .inl (.refl _)
  | cons message messages ih =>
    obtain haside | ⟨hclosed, hsent⟩ := onMessage_aside h message
    · obtain hrest | ⟨hclosed, hsent⟩ := ih (haside.state.trans h)
      · exact .inl (haside.trans hrest)
      · exact .inr ⟨hclosed, hsent.trans (congrArg (·.sent) haside.transport)⟩
    · rw [List.foldl_cons, foldl_onMessage_of_closed hclosed]
      exact .inr ⟨hclosed, hsent⟩

end ClientConnection

/-! ## Events on a link -/

namespace Link

/-- What may happen on a link. Window boundaries are at both ends at once. -/
inductive Event where
  | send (tag : String) (values : List Value)
  /-- The timer of a batch fires at the client. -/
  | flush (key : UInt8)
  /-- The client's handshake timer fires. -/
  | expire
  /-- A window ends. -/
  | reset
  /-- Something is called on the server. -/
  | serve (call : Call)
  /-- What the server wrote reaches the client. -/
  | toClient

/-- What else happens to the server is neither a message nor a window boundary, and it is not told to
close for the rate. -/
def Event.Fair : Event → Prop
  | serve call => call.Apart
  | _ => True

def act (link : Link) : Event → Link
  | .send tag values => { link with client := (link.client.send tag values).2 }
  | .flush key => { link with client := link.client.onTimer (.batchFlush key) }
  | .expire => { link with client := link.client.onTimer .handshakeExpiry }
  | .reset => { client := link.client.onTimer .rateReset, server := link.server.onTimer .rateReset }
  | .serve call => { link with server := link.server.call call }
  | .toClient => link.toClient.2

/-- After each event what the client wrote reaches the server. -/
def next (link : Link) (event : Event) : Link := (link.act event).toServer.2

def run (link : Link) (events : List Event) : Link := events.foldl next link

/-! ## The invariant of a run -/

/-- Both ends are in use, with the same caps. -/
structure Live (registry : Registry) (link : Link) : Prop where
  client : link.client.session.Flowing registry.announced
  server : link.server.session.Taking registry
  sendCap : ∀ key, link.client.session.sendLimiter.cap key = (RateLimiter.ofRegistry registry).cap key
  receiveCap : ∀ key, link.server.session.receiveLimiter.cap key = (RateLimiter.ofRegistry registry).cap key

/-- The payloads of a key that the server counted, those on their way, and those that wait. -/
def owed (registry : Registry) (link : Link) (key : UInt8) : Nat :=
  link.server.session.receiveLimiter.count key +
    (link.client.session.transport.sent.flatMap (registry.carried key)).length +
    (link.client.session.waiting key).length

/-- Where a link stands. While both ends are in use the client spent whatever the server counts, or
will count. -/
inductive Paid (registry : Registry) (link : Link) : Prop
  | live : link.Live registry → (∀ key, (RateLimiter.ofRegistry registry).Caps key →
      link.owed registry key ≤ link.client.session.sendLimiter.spent key) → Paid registry link
  | silent : link.client.session.state = .closed → link.client.session.transport.sent = [] →
      link.server.session.Taking registry ∨ link.server.session.ClosedOtherwise → Paid registry link
  | closed : link.server.session.ClosedOtherwise → Paid registry link

variable {registry : Registry} {link : Link}

theorem Live.caps_receive (h : link.Live registry) {key : UInt8} :
    link.server.session.receiveLimiter.Caps key ↔ (RateLimiter.ofRegistry registry).Caps key := by
  rw [RateLimiter.Caps, RateLimiter.Caps, h.receiveCap]

/-- What was paid for arrives. -/
theorem Paid.toServer (h : link.Paid registry) : link.toServer.2.Paid registry := by
  have htaken : link.toServer.2.client.session =
      { link.client.session with transport := { link.client.session.transport with sent := [] } } := rfl
  cases h with
  | live hlive hpaid =>
    have hroom : ∀ key, link.server.session.receiveLimiter.Caps key → link.server.session.receiveLimiter.count key +
        (link.client.session.transport.sent.flatMap (registry.carried key)).length ≤
          link.server.session.receiveLimiter.cap key := by
      intro key hkey
      have hle := hpaid key (hlive.caps_receive.1 hkey)
      have hcap : link.client.session.sendLimiter.spent key ≤ link.client.session.sendLimiter.cap key :=
        Nat.min_le_right _ _
      rw [hlive.sendCap] at hcap
      rw [hlive.receiveCap]
      unfold owed at hle
      omega
    obtain ⟨htaking, hcap, hcount⟩ | hclosed := ServerConnection.foldl_onMessage_taking hlive.server _ hroom
    · have hopen : link.client.session.transport.closed = none := Wire.accepts_iff.1 hlive.client.accepts
      have hflow : link.toServer.2.client.session.Flowing registry.announced :=
        ⟨hlive.client.state, Wire.accepts_iff.2 hopen, hlive.client.alike, hlive.client.batching.of_batchers rfl,
          hlive.client.ordered, hlive.client.within⟩
      have hreceiveCap := fun key => (hcap key).trans (hlive.receiveCap key)
      refine .live ⟨hflow, htaking, hlive.sendCap, hreceiveCap⟩ fun key hkey => ?_
      have hle := hpaid key hkey
      have hmore := hcount key (hlive.caps_receive.2 hkey)
      have hwaiting : link.toServer.2.client.session.waiting key = link.client.session.waiting key := rfl
      have hspent : link.toServer.2.client.session.sendLimiter = link.client.session.sendLimiter := rfl
      have harrived : link.toServer.2.owed registry key =
          link.toServer.2.server.session.receiveLimiter.count key + (link.client.session.waiting key).length := rfl
      have hserver : link.toServer.2.server =
          link.client.session.transport.sent.foldl ServerConnection.onMessage link.server := rfl
      rw [harrived, hspent, hserver]
      unfold owed at hle
      omega
    · exact .closed hclosed
  | silent hclosed hsent hserver =>
    have hserver' : link.toServer.2.server = link.server := by
      show link.client.session.transport.sent.foldl ServerConnection.onMessage link.server = link.server
      rw [hsent]
      rfl
    exact .silent hclosed rfl (hserver' ▸ hserver)
  | closed hclosed => exact .closed (ServerConnection.foldl_onMessage_closedOtherwise hclosed _)

/-- A step of the client is paid for. -/
theorem Live.metered {s : Session Wire Clock} {limiter : RateLimiter} {client : ClientConnection Wire Clock}
    {server : ServerConnection Wire Clock} (h : link.Live registry) (hsent : link.client.session.transport.sent = [])
    (hclient : client.session = s) (hflow : s.Flowing registry.announced)
    (hlimiter : ∀ key, limiter.cap key = (RateLimiter.ofRegistry registry).cap key)
    (hmetered : Session.Metered registry.announced limiter link.client.session s)
    (htaking : server.session.Taking registry)
    (hcap : ∀ key, server.session.receiveLimiter.cap key = (RateLimiter.ofRegistry registry).cap key)
    (hpaid : ∀ key, (RateLimiter.ofRegistry registry).Caps key →
      server.session.receiveLimiter.count key + (link.client.session.waiting key).length ≤ limiter.spent key) :
    Paid registry ⟨client, server⟩ := by
  subst hclient
  obtain ⟨hsendCap, sent, htransport, hmoved⟩ := hmetered
  refine .live ⟨hflow, htaking, fun key => (hsendCap key).trans (hlimiter key), hcap⟩ fun key hkey => ?_
  obtain ⟨packet, hpacket, -⟩ := Registry.byKey_of_cap hkey.1
  have hannounced : registry.announced.byKey key = .ok packet.announced := by
    rw [Registry.byKey_announced, hpacket]
    rfl
  have hle := hmoved key packet.announced hannounced (by rwa [RateLimiter.Caps, hlimiter])
  have hbefore := hpaid key hkey
  have hwritten : client.session.transport.sent = sent := by
    rw [htransport, Wire.sendAll_eq (Wire.accepts_iff.1 h.client.accepts), hsent]
    rfl
  have hcarried : registry.announced.carried key = registry.carried key := funext (registry.carried_announced key)
  rw [hcarried] at hle
  simp only [owed, hwritten]
  omega

/-- While both ends are in use every event but a window boundary leaves all paid for; a boundary does
if nothing waits that has a cap. -/
theorem Live.act (h : link.Live registry) (hsent : link.client.session.transport.sent = [])
    (hpaid : ∀ key, (RateLimiter.ofRegistry registry).Caps key →
      link.owed registry key ≤ link.client.session.sendLimiter.spent key) {event : Event} (hfair : event.Fair)
    (hreset : event = .reset → ∀ key, (RateLimiter.ofRegistry registry).Caps key →
      link.client.session.waiting key = []) : (link.act event).Paid registry := by
  have hdue : ∀ key, (RateLimiter.ofRegistry registry).Caps key → link.server.session.receiveLimiter.count key +
      (link.client.session.waiting key).length ≤ link.client.session.sendLimiter.spent key := by
    intro key hkey
    have hle := hpaid key hkey
    rw [owed, hsent] at hle
    exact hle
  cases event with
  | send tag values =>
    obtain ⟨hmetered, hflow⟩ := Session.metered_send h.client tag values
    exact h.metered hsent rfl hflow h.sendCap hmetered h.server h.receiveCap hdue
  | flush key =>
    exact h.metered hsent rfl (h.client.onTimer (.batchFlush key)) h.sendCap (Session.metered_flush h.client key)
      h.server h.receiveCap hdue
  | expire =>
    have hexpire : (link.client.onTimer .handshakeExpiry).session = link.client.session := by
      simp only [ClientConnection.onTimer, ClientConnection.expire, ClientConnection.state, h.client.state]
    refine .live ⟨?_, h.server, ?_, h.receiveCap⟩ ?_
    · exact hexpire ▸ h.client
    · exact fun key => (congrArg (·.sendLimiter.cap key) hexpire).trans (h.sendCap key)
    · simpa only [Link.act, owed, hexpire] using hpaid
  | reset =>
    obtain ⟨htaking, hlimiter⟩ := ServerConnection.onTimer_rateReset_taking h.server
    refine h.metered hsent rfl (h.client.onTimer .rateReset)
      (fun key => (RateLimiter.cap_reset _ _).trans (h.sendCap key)) (Session.metered_reset h.client) htaking
      (fun key => ?_) fun key hkey => ?_
    · rw [hlimiter, RateLimiter.cap_reset]
      exact h.receiveCap key
    · rw [hlimiter, RateLimiter.count_reset, hreset rfl key hkey]
      exact Nat.zero_le _
  | serve call =>
    obtain ⟨htaking, hlimiter⟩ | hclosed := ServerConnection.call_taking h.server hfair
    · refine .live ⟨h.client, htaking, h.sendCap, fun key => ?_⟩ fun key hkey => ?_
      · exact (congrArg (·.cap key) hlimiter).trans (h.receiveCap key)
      · simpa only [Link.act, owed, hlimiter] using hpaid key hkey
    · exact .closed hclosed
  | toClient =>
    have htaking : (link.act .toClient).server.session.Taking registry :=
      ⟨h.server.state, h.server.inbound, h.server.wire⟩
    obtain haside | ⟨hclosed, hsame⟩ :=
      ClientConnection.foldl_onMessage_aside h.client.state link.server.session.transport.sent
    · have hclient : link.client.session.Aside (link.act .toClient).client.session := haside
      have hwaiting : ∀ key, (link.act .toClient).client.session.waiting key = link.client.session.waiting key := by
        intro key
        rw [Session.waiting, Session.waiting, Session.batcher?, Session.batcher?, hclient.batchers]
      have hcount : (link.act .toClient).server.session.receiveLimiter = link.server.session.receiveLimiter := rfl
      refine .live ⟨h.client.steady hclient.steady, htaking, ?_, h.receiveCap⟩ fun key hkey => ?_
      · rw [hclient.sendLimiter]
        exact h.sendCap
      · rw [owed, hwaiting, hclient.transport, hclient.sendLimiter, hcount]
        exact hpaid key hkey
    · exact .silent hclosed (hsame.trans hsent) (.inl htaking)

/-- A server that closed stays closed. -/
theorem act_closedOtherwise (h : link.server.session.ClosedOtherwise) (event : Event) :
    (link.act event).server.session.ClosedOtherwise := by
  cases event with
  | send tag values => exact h
  | flush key => exact h
  | expire => exact h
  | reset => exact ServerConnection.call_closedOtherwise h (.timer .rateReset)
  | serve call => exact ServerConnection.call_closedOtherwise h call
  | toClient => exact ⟨h.state, h.wire⟩

theorem act_taking (h : link.server.session.Taking registry) {event : Event} (hfair : event.Fair) :
    (link.act event).server.session.Taking registry ∨ (link.act event).server.session.ClosedOtherwise := by
  cases event with
  | send tag values => exact .inl h
  | flush key => exact .inl h
  | expire => exact .inl h
  | reset => exact .inl (ServerConnection.onTimer_rateReset_taking h).1
  | serve call =>
    obtain ⟨htaking, -⟩ | hclosed := ServerConnection.call_taking h hfair
    · exact .inl htaking
    · exact .inr hclosed
  | toClient => exact .inl ⟨h.state, h.inbound, h.wire⟩

/-- Nothing happens to a client that closed. -/
theorem act_client_of_closed (h : link.client.session.state = .closed) (event : Event) :
    (link.act event).client.session = link.client.session := by
  have htimer : ∀ kind, link.client.session.onTimer kind = link.client.session := fun kind =>
    Session.onTimer_of_not_ready (by rw [h]; decide) kind
  cases event with
  | send tag values => exact congrArg Prod.snd (Session.send_of_closed h tag values)
  | flush key => exact htimer (.batchFlush key)
  | expire => simp only [Link.act, ClientConnection.onTimer, ClientConnection.expire, ClientConnection.state, h]
  | reset => exact htimer .rateReset
  | serve call => rfl
  | toClient => exact congrArg (·.session) (ClientConnection.foldl_onMessage_of_closed h _)

theorem Paid.act (h : link.Paid registry) (hsent : link.client.session.transport.sent = []) {event : Event}
    (hfair : event.Fair)
    (hreset : link.Live registry → event = .reset → ∀ key, (RateLimiter.ofRegistry registry).Caps key →
      link.client.session.waiting key = []) : (link.act event).Paid registry := by
  cases h with
  | live hlive hpaid => exact hlive.act hsent hpaid hfair (hreset hlive)
  | silent hclosed _ hserver =>
    have hclient := act_client_of_closed hclosed event
    refine .silent (hclient ▸ hclosed) (hclient ▸ hsent) ?_
    obtain htaking | hclosed' := hserver
    · exact act_taking htaking hfair
    · exact .inr (act_closedOtherwise hclosed' event)
  | closed hclosed => exact .closed (act_closedOtherwise hclosed event)

end Link

/-! ## Links with a rate window -/

/-- A server that has taken in no message counts up to the caps of its definition. -/
theorem ServerConnection.Fresh.taking {S : Type} [Scheduler S] {definition : Definition} {c : ServerConnection Wire S}
    (hwindow : definition.rateWindow.isSome = true) (h : c.Fresh definition) :
    c.session.Taking definition.client ∧ c.session.receiveLimiter = .ofRegistry definition.client := by
  induction h with
  | @accept c scheduler haccept =>
    obtain ⟨_, _, _, _, h⟩ := accept_eq definition scheduler
    rw [h] at haccept
    cases haccept
    exact ⟨⟨rfl, rfl, rfl⟩, if_pos hwindow⟩
  | on _ hon ih =>
    obtain ⟨dispatcher, rfl⟩ := on_eq_ok hon
    exact ⟨⟨ih.1.state, ih.1.inbound, ih.1.wire⟩, ih.2⟩
  | onClose _ _ ih => exact ⟨⟨ih.1.state, ih.1.inbound, ih.1.wire⟩, ih.2⟩
  | onError _ _ ih => exact ⟨⟨ih.1.state, ih.1.inbound, ih.1.wire⟩, ih.2⟩

namespace Link

theorem Established.paid {client server : List Packet} {enums : EnumRegistry} {config : ServerConfig}
    {definition : Definition} {link : Link} (hclient : ∀ packet ∈ client, packet.Declared)
    (hserver : ∀ packet ∈ server, packet.Declared) (hmake : Definition.make client server enums config = .ok definition)
    (hwindow : config.rateWindow ≠ 0) (h : link.Established definition) :
    link.Paid definition.client ∧ link.client.session.transport.sent = [] := by
  have hmade := Definition.made hmake
  have hsome : (rateWindowMs definition.config.rateWindow).isSome = true := by
    rw [hmade.config, rateWindowMs, if_neg hwindow]
    rfl
  suffices hlive : link.Live definition.client ∧ (∀ key, link.owed definition.client key = 0) ∧
      link.client.session.transport.sent = [] by
    obtain ⟨hlive, howed, hsent⟩ := hlive
    exact ⟨.live hlive fun key _ => by rw [howed]; exact Nat.zero_le _, hsent⟩
  induction h with
  | @handshake c s hfresh hserves =>
    have hadopted := ClientConnection.onMessage_handshake hfresh.waits
      (Definition.parse_handshake hclient hserver hmake)
    obtain ⟨hflow, hlimiter, hwire, -, hwaiting⟩ :=
      hadopted.flowing (Wire.accepts_iff.2 rfl) hfresh.unused hmade.clientNumbered.announced
    rw [if_pos hsome] at hlimiter
    obtain ⟨htaking, hreceive⟩ := hserves.taking hsome
    rw [toClient_fresh c hserves]
    refine ⟨⟨hflow, ⟨htaking.state, htaking.inbound, rfl⟩, fun key => ?_, fun key => by rw [hreceive]⟩,
      fun key => ?_, ?_⟩
    · rw [hlimiter, Registry.cap_announced]
    · simp only [owed, hreceive, hwire, hwaiting, RateLimiter.count_ofRegistry]
      rfl
    · rw [hwire]
  | on _ hon ih =>
    obtain ⟨dispatcher, rfl⟩ := ServerConnection.on_eq_ok hon
    obtain ⟨hlive, howed, hsent⟩ := ih
    exact ⟨⟨hlive.client, ⟨hlive.server.state, hlive.server.inbound, hlive.server.wire⟩, hlive.sendCap,
      hlive.receiveCap⟩, howed, hsent⟩

/-- All is paid for, or at a window boundary something waited that has a cap. -/
theorem paid_run {registry : Registry} {link : Link} (h : link.Paid registry)
    (hsent : link.client.session.transport.sent = []) {events : List Event} (hfair : ∀ event ∈ events, event.Fair) :
    (link.run events).Paid registry ∧ (link.run events).client.session.transport.sent = [] ∨
      ∃ before after key, events = before ++ .reset :: after ∧ (link.run before).Live registry ∧
        (RateLimiter.ofRegistry registry).Caps key ∧ (link.run before).client.session.waiting key ≠ [] := by
  -- on the events from the last one on: what counts is the first boundary with something in a batch
  induction events using List.reverseRecOn with
  | nil => exact .inl ⟨h, hsent⟩
  | append_singleton events event ih =>
    obtain ⟨hpaid, hempty⟩ | ⟨before, after, key, rfl, hlive, hcaps, hwaiting⟩ :=
      ih fun event hmem => hfair event (List.mem_append_left _ hmem)
    · by_cases hleft : (link.run events).Live registry ∧ event = .reset ∧
          ∃ key, (RateLimiter.ofRegistry registry).Caps key ∧ (link.run events).client.session.waiting key ≠ []
      · obtain ⟨hlive, rfl, key, hcaps, hwaiting⟩ := hleft
        exact .inr ⟨events, [], key, rfl, hlive, hcaps, hwaiting⟩
      · have hnone : (link.run events).Live registry → event = .reset → ∀ key,
            (RateLimiter.ofRegistry registry).Caps key → (link.run events).client.session.waiting key = [] :=
          fun hlive hreset key hcaps => by_contra fun hne => hleft ⟨hlive, hreset, key, hcaps, hne⟩
        rw [Link.run, List.foldl_append]
        exact .inl ⟨(hpaid.act hempty (hfair event (by simp)) hnone).toServer, rfl⟩
    · exact .inr ⟨before, after ++ [event], key, by simp, hlive, hcaps, hwaiting⟩

/-- A client that sends and keeps its timers is closed for the rate only if a window ended while
payloads of a batched packet with a rate limit waited in its batch. -/
theorem closed_for_rate {client server : List Packet} {enums : EnumRegistry} {config : ServerConfig}
    {definition : Definition} {link : Link} (hclient : ∀ packet ∈ client, packet.Declared)
    (hserver : ∀ packet ∈ server, packet.Declared) (hmake : Definition.make client server enums config = .ok definition)
    (hwindow : config.rateWindow ≠ 0) (h : link.Established definition) {events : List Event}
    (hfair : ∀ event ∈ events, event.Fair) {reason : String}
    (hclosed : (link.run events).server.session.transport.closed = some (.rateLimitExceeded, reason)) :
    ∃ before after key packet, events = before ++ .reset :: after ∧ definition.client.byKey key = .ok packet ∧
      0 < packet.schema.rateLimit ∧ packet.schema.isBatched = true ∧
      (link.run before).client.session.waiting key ≠ [] := by
  obtain ⟨hpaid, hsent⟩ := h.paid hclient hserver hmake hwindow
  obtain ⟨hpaid', -⟩ | ⟨before, after, key, rfl, hlive, hcaps, hwaiting⟩ := paid_run hpaid hsent hfair
  · exfalso
    cases hpaid' with
    | live hlive _ => exact hlive.server.wire_ne reason hclosed
    | silent _ _ hserver =>
      obtain htaking | hother := hserver
      · exact htaking.wire_ne reason hclosed
      · exact hother.wire reason hclosed
    | closed hother => exact hother.wire reason hclosed
  · obtain ⟨packet, hkey, hlimit⟩ := Registry.byKey_of_cap hcaps.1
    refine ⟨before, after, key, packet, rfl, hkey, hlimit, ?_, hwaiting⟩
    -- only batched packets have a batch
    cases hbatcher : (link.run before).client.session.batcher? key with
    | none => exact (hwaiting (by simp [Session.waiting, hbatcher])).elim
    | some batcher =>
      obtain ⟨announced, hannounced, hbatched, -⟩ := hlive.client.batching.serves key batcher hbatcher
      rw [Registry.byKey_announced, hkey] at hannounced
      cases hannounced
      exact hbatched

/-! ## A beat that is counted twice -/

namespace Belated

/-- One a window, and batched for longer than a window. -/
def beat : Packet :=
  { tag := "beat", schema := { shape := .single ⟨.intsDynamic, 1, 4⟩, rateLimit := 1, batchInterval := 1500 } }

theorem declared : ∀ packet ∈ [beat], packet.Declared := by
  have hints : Schema.Declared { shape := .single ⟨.intsDynamic, 1, 4⟩ } :=
    @Schema.Declared.single .intsDynamic 1 4 _ trivial rfl
  rw [List.forall_mem_singleton]
  exact .make ((hints.rateLimit 1).batching 1500 0) (by rfl : Packet.make "beat" _ = .ok _)

def link : Result Link := do
  let definition ← Definition.make [beat] [] .empty {}
  match ServerConnection.accept definition ({} : Wire) ({} : Clock) with
  | .serving server => return (toClient ⟨.start {} {} {}, server⟩).2
  | .refused error _ => .error error

theorem link_established {l : Link} (h : link = .ok l) :
    ∃ definition, Definition.make [beat] [] .empty {} = .ok definition ∧ l.Established definition :=
  Established.establish h

/-- One beat in each of two windows, and both arrive in the second. -/
def events : List Event :=
  [.send "beat" [.int 1], .reset, .send "beat" [.int 2], .flush 1]

end Belated

theorem closed_for_rate_belated :
    ∃ (definition : Definition) (link : Link),
      Definition.make [Belated.beat] [] .empty {} = .ok definition ∧ link.Established definition ∧
      (link.run Belated.events).server.session.transport.closed =
        some (.rateLimitExceeded, "Rate limit exceeded for 'beat'") ∧
      ∃ before after key packet, Belated.events = before ++ .reset :: after ∧
        definition.client.byKey key = .ok packet ∧ (link.run before).client.session.waiting key ≠ [] := by
  have hrun : ((fun link => (link.run Belated.events).server.session.transport.closed) <$> Belated.link).toOption =
      some (some (.rateLimitExceeded, "Rate limit exceeded for 'beat'")) := by
    decide +kernel
  obtain ⟨link, hlink⟩ : ∃ link, Belated.link = .ok link := ⟨_, by rfl⟩
  rw [hlink] at hrun
  have hclosed := Option.some.inj hrun
  obtain ⟨definition, hmake, hestablished⟩ := Belated.link_established hlink
  have hfair : ∀ event ∈ Belated.events, event.Fair := by simp [Belated.events, Event.Fair]
  obtain ⟨before, after, key, packet, hevents, hkey, -, -, hwaiting⟩ :=
    closed_for_rate Belated.declared (by simp) hmake (by decide) hestablished hfair hclosed
  exact ⟨definition, link, hmake, hestablished, hclosed, before, after, key, packet, hevents, hkey, hwaiting⟩

end Link

end PacketProtocol
