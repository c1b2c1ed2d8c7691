import PacketProtocol.Proofs.Dispatching
/-!
# The required first packet

A definition may name a packet that clients have to send before any other, and once. A server holds
each message against this before it opens it: it looks at the key and at whether a message of the
required packet came before. Whatever else is wrong with a message closes the connection, so that
the required packet has been heard whenever the connection goes on.
-/

namespace PacketProtocol

/-- Where a key is known, so is the tag of a message with it. -/
theorem Session.inboundTag_of_alike {T S : Type} {s : Session T S} {registry : Registry}
    (halike : s.inbound.Alike registry) {key : UInt8} {packet : Packet} (hkey : registry.byKey key = .ok packet)
    (body : Bytes) : s.inboundTag (key :: body) = .ok packet.tag := by
  rcases halike.symm.byKey hkey with ⟨packet', hkey', hsame⟩
  have htag : packet'.tag = packet.tag := congrArg (·.tag) hsame
  simp [inboundTag, inboundPacket, hkey', htag, bind, Except.bind, pure, Except.pure]

/-- A message whose tag can be told begins with the key of a packet. -/
theorem Session.byKey_of_inboundTag {T S : Type} {s : Session T S} {registry : Registry}
    (halike : s.inbound.Alike registry) {bytes : Bytes} {tag : String} (h : s.inboundTag bytes = .ok tag) :
    ∃ key body packet, bytes = key :: body ∧ registry.byKey key = .ok packet ∧ packet.tag = tag := by
  rcases Outcome.bind_eq_ok.1 h with ⟨_, hpacket, htag⟩
  cases htag
  cases bytes with
  | nil => cases hpacket
  | cons key body =>
    rcases Outcome.bind_eq_ok.1 hpacket with ⟨packet, hkey, hfound⟩
    cases hfound
    rcases halike.byKey hkey with ⟨packet', hkey', hsame⟩
    exact ⟨key, body, packet', rfl, hkey', congrArg (·.tag) hsame⟩

/-- Where a first packet is required, it is one of the packets. -/
theorem Definition.required_mem {client server : List Packet} {enums : EnumRegistry} {config : ServerConfig}
    {definition : Definition} {required : String} (h : make client server enums config = .ok definition)
    (hrequired : definition.config.handshakePacket = some required) : required ∈ definition.client.tags := by
  have hmade := made h
  rw [hmade.config] at hrequired
  simp only [make, hrequired] at h
  rcases Outcome.bind_eq_ok.1 h with ⟨registry, hclient, h⟩
  rcases Outcome.bind_eq_ok.1 h with ⟨_, -, h⟩
  rcases Registry.register_eq_ok.1 hclient with ⟨rfl, -⟩
  rw [hmade.client]
  split at h
  · cases h
  · rename_i hcontains
    exact Registry.contains_iff.1 (by simpa using hcontains)

namespace ServerConnection

variable {T S : Type} [Scheduler S] {c : ServerConnection T S} {required tag : String} {bytes : Bytes}

/-! ## The look at a message -/

/-- A message passes if it is of the required packet and the first of these, or comes after it. -/
theorem checkFirst_eq_ok (hrequired : c.definition.config.handshakePacket = some required)
    (h : (c.checkFirst bytes).1 = .ok ()) :
    ∃ tag, c.session.inboundTag bytes = .ok tag ∧ (tag = required ↔ c.firstCame = false) ∧
      (c.checkFirst bytes).2.firstCame = true := by
  cases htag : c.session.inboundTag bytes with
  | error error =>
    simp only [checkFirst, hrequired, htag] at h
    cases h
  | ok tag =>
    simp only [checkFirst, hrequired, htag] at h ⊢
    cases hcame : c.firstCame with
    | false =>
      cases hsame : tag == required with
      | false => simp only [hcame, hsame, reduceCtorEq] at h
      | true => exact ⟨tag, rfl, by simpa using hsame, rfl⟩
    | true =>
      cases hsame : tag == required with
      | false => exact ⟨tag, rfl, by simpa using hsame, hcame⟩
      | true => simp only [hcame, hsame, reduceCtorEq] at h

variable [Transport T]

/-- A message of another packet closes a server that has yet to hear of the required one. -/
theorem onMessage_too_early (hready : c.session.state = .ready)
    (hrequired : c.definition.config.handshakePacket = some required) (hcame : c.firstCame = false)
    (htag : c.session.inboundTag bytes = .ok tag) (hne : tag ≠ required) :
    c.dispatched bytes = [] ∧ c.session.Refused [4004] 1 (c.onMessage bytes).session := by
  have hcheck : c.checkFirst bytes =
      (.error .handshakeRequired, { c with session := c.session.count .handshakeFailed }) := by
    have hdiffers : (tag == required) = false := by simpa using hne
    simp only [checkFirst, hrequired, htag, hcame, hdiffers]
  have hisReady : c.session.isReady = true := by simp [Session.isReady, hready]
  simp only [dispatched, onMessage, hisReady, if_true, hcheck, true_and]
  have hopen : (c.session.count .handshakeFailed).state ≠ .closed := by
    rw [show (c.session.count .handshakeFailed).state = .ready from hready]
    decide
  have hfailed : Journal.Tally [.counted .handshakeFailed] := .cons (by decide) .nil
  exact .tallied hfailed (Session.refused_fail hopen rfl (.head _))

/-- A second message of the required packet closes the server. -/
theorem onMessage_again (hready : c.session.state = .ready)
    (hrequired : c.definition.config.handshakePacket = some required) (hcame : c.firstCame = true)
    (htag : c.session.inboundTag bytes = .ok required) :
    c.dispatched bytes = [] ∧ c.session.Refused [4005] 1 (c.onMessage bytes).session := by
  have hcheck : c.checkFirst bytes = (.error .handshakeDuplicate, c) := by
    simp only [checkFirst, hrequired, htag, hcame, beq_self_eq_true]
  have hisReady : c.session.isReady = true := by simp [Session.isReady, hready]
  simp only [dispatched, onMessage, hisReady, if_true, hcheck, true_and]
  exact Session.refused_fail (by rw [hready]; decide) rfl (.head _)

/-! ## Packets of a message -/

/-- Until the required packet came only that one reaches the listeners, and from then on it does not. -/
theorem dispatched_tags (hrequired : c.definition.config.handshakePacket = some required)
    (hready : c.session.state = .ready) (bytes : Bytes) :
    ∀ entry ∈ c.dispatched bytes, (entry.1 = required ↔ c.firstCame = false) := by
  intro entry hentry
  rcases onMessage_taken hready bytes with ⟨key, packet, payloads, hcheck, htaken, hall⟩ | ⟨hnone, -⟩
  · rcases checkFirst_eq_ok hrequired hcheck with ⟨tag, htag, hfirst, -⟩
    rw [Session.inboundTag_of_openMessage htaken.opened] at htag
    cases htag
    rw [hall] at hentry
    have hmem := List.mem_map_of_mem (f := Prod.fst) hentry
    rw [htaken.dispatched] at hmem
    rw [List.eq_of_mem_replicate hmem]
    exact hfirst
  · rw [hnone] at hentry
    cases hentry

/-! ## Runs -/

def run (c : ServerConnection T S) (calls : List Call) : ServerConnection T S := calls.foldl ServerConnection.call c

theorem server_run (c : ServerConnection T S) (calls : List Call) :
    (Endpoint.server c).run calls = .server (c.run calls) := by
  induction calls generalizing c with
  | nil => rfl
  | cons call calls ih =>
    have hcall : (Endpoint.server c).run (call :: calls) = ((Endpoint.server c).call call).run calls := rfl
    rw [hcall, server_call]
    exact ih _

/-- Where a server stands that requires a first packet, after this was heard: if it goes on, something was
heard exactly if that packet came. -/
structure Guarded (definition : Definition) (required : String) (history : List (String × List Value))
    (c : ServerConnection T S) : Prop where
  required_eq : c.definition.config.handshakePacket = some required
  inbound : c.session.inbound.Alike definition.client
  nothing : c.firstCame = false → history = []
  something : c.session.state = .ready → c.firstCame = true → history ≠ []

variable {definition : Definition} {history : List (String × List Value)}

theorem guarded_accept {transport : T} {scheduler : S} (hrequired : definition.config.handshakePacket = some required)
    (haccept : accept definition transport scheduler = .serving c) : c.Guarded definition required [] := by
  rcases serving_eq haccept with ⟨_, _, _, _, rfl⟩
  exact ⟨hrequired, rfl, fun _ => rfl, nofun⟩

theorem Guarded.message (h : c.Guarded definition required history) (bytes : Bytes) :
    (c.onMessage bytes).Guarded definition required (history ++ c.dispatched bytes) := by
  by_cases hready : c.session.state = .ready
  · rcases c.checkFirst_keeps bytes with ⟨hdefinition, hcame⟩
    have hmessage := onMessage_eq hready bytes
    have hdefinition' : (c.onMessage bytes).definition = c.definition := by rw [hmessage, ← hdefinition]
    have hfirst : (c.onMessage bytes).firstCame = (c.checkFirst bytes).2.firstCame := by rw [hmessage]
    rcases onMessage_taken hready bytes with ⟨key, packet, payloads, hcheck, htaken, hall⟩ | ⟨hnone, hturned⟩
    · rcases checkFirst_eq_ok h.required_eq hcheck with ⟨tag, -, -, hcame'⟩
      refine ⟨hdefinition' ▸ h.required_eq, htaken.inbound ▸ h.inbound, fun hfalse => ?_, fun _ _ => ?_⟩
      · rw [hfirst, hcame'] at hfalse
        cases hfalse
      · -- what is taken in has at least one payload
        intro hempty
        have hlength := htaken.length_dispatched
        rw [← hall, (List.append_eq_nil_iff.1 hempty).2] at hlength
        exact Session.ne_nil_of_openMessage htaken.opened (List.length_eq_zero_iff.1 hlength.symm)
    · refine ⟨hdefinition' ▸ h.required_eq, hturned.inbound ▸ h.inbound, fun hfalse => ?_, fun hstate => ?_⟩
      · rw [hnone, List.append_nil]
        refine h.nothing (Bool.eq_false_iff.2 fun htrue => ?_)
        rw [hfirst, hcame htrue] at hfalse
        cases hfalse
      · rw [hturned.state] at hstate
        cases hstate
  · have hnone := Endpoint.dispatched_of_not_ready (e := .server c) hready (.message bytes)
    have hnone : c.dispatched bytes = [] := hnone
    rw [onMessage_of_not_ready hready, hnone, List.append_nil]
    exact h

theorem Guarded.call (h : c.Guarded definition required history) (call : Call) :
    (c.call call).Guarded definition required (history ++ (Endpoint.server c).dispatched call) := by
  by_cases hmessage : ∃ bytes, call = .message bytes
  · rcases hmessage with ⟨bytes, rfl⟩
    exact h.message bytes
  · have hother : ∀ bytes, call ≠ .message bytes := fun bytes heq => hmessage ⟨bytes, heq⟩
    have hnone : (Endpoint.server c).dispatched call = [] := by
      cases call with
      | message bytes => exact absurd rfl (hother bytes)
      | _ => rfl
    rcases c.call_keeps hother with ⟨hconfig, hcame⟩
    rcases (Endpoint.server c).call_of_not_message hother with ⟨hready, hinbound⟩
    rw [server_call] at hready hinbound
    rw [hnone, List.append_nil]
    exact ⟨(congrArg (·.handshakePacket) hconfig).trans h.required_eq, Eq.trans hinbound h.inbound,
      fun hfalse => h.nothing (hcame ▸ hfalse), fun hstate htrue => h.something (hready hstate) (hcame ▸ htrue)⟩

/-- Packets of a tag, and after them packets of other tags. -/
structure Leading (required : String) (first rest : List (String × List Value)) : Prop where
  tag_eq : ∀ entry ∈ first, entry.1 = required
  tag_ne : ∀ entry ∈ rest, entry.1 ≠ required
  rest_eq_nil : first = [] → rest = []

/-- What was heard in a run begins with the packets of a tag, all of them from one message. -/
def Together (c : ServerConnection T S) (required : String) (calls : List Call)
    (history : List (String × List Value)) : Prop :=
  ∃ first rest, history = first ++ rest ∧ Leading required first rest ∧
    (first ≠ [] → ∃ before bytes after, calls = before ++ .message bytes :: after ∧
      (c.run before).session.state = .ready ∧ (c.run before).dispatched bytes = first)

variable {calls : List Call}

theorem Together.silent (h : c.Together required calls history) (call : Call) :
    c.Together required (calls ++ [call]) history := by
  rcases h with ⟨first, rest, hhistory, hleading, hmessage⟩
  refine ⟨first, rest, hhistory, hleading, fun hne => ?_⟩
  rcases hmessage hne with ⟨before, bytes, after, rfl, hbefore⟩
  exact ⟨before, bytes, after ++ [call], by simp, hbefore⟩

/-- A message either begins the history, or adds to what followed the required packet. -/
theorem Together.message (h : c.Together required calls history)
    (hguarded : (c.run calls).Guarded definition required history) (hready : (c.run calls).session.state = .ready)
    (bytes : Bytes) :
    c.Together required (calls ++ [.message bytes]) (history ++ (c.run calls).dispatched bytes) := by
  have htags := dispatched_tags hguarded.required_eq hready bytes
  cases hcame : (c.run calls).firstCame with
  | false =>
    rw [hguarded.nothing hcame]
    refine ⟨(c.run calls).dispatched bytes, [], (List.append_nil _).symm, ?_, fun _ => ?_⟩
    · exact ⟨fun entry hentry => (htags entry hentry).2 hcame, nofun, fun _ => rfl⟩
    · exact ⟨calls, bytes, [], rfl, hready, rfl⟩
  | true =>
    rcases h.silent (.message bytes) with ⟨first, rest, hhistory, hleading, hmessage⟩
    have hfirst : first ≠ [] := by
      rintro rfl
      refine hguarded.something hready hcame ?_
      rw [hhistory, hleading.rest_eq_nil rfl]
      exact List.append_nil _
    refine ⟨first, rest ++ (c.run calls).dispatched bytes, by rw [hhistory, List.append_assoc], ?_, hmessage⟩
    refine ⟨hleading.tag_eq, fun entry hentry => ?_, fun hempty => (hfirst hempty).elim⟩
    rcases List.mem_append.1 hentry with hentry | hentry
    · exact hleading.tag_ne entry hentry
    · intro hsame
      rw [(htags entry hentry).1 hsame] at hcame
      cases hcame

theorem run_guarded {transport : T} {scheduler : S} (hrequired : definition.config.handshakePacket = some required)
    (haccept : accept definition transport scheduler = .serving c) (calls : List Call) :
    (c.run calls).Guarded definition required ((Endpoint.server c).history calls) ∧
      c.Together required calls ((Endpoint.server c).history calls) := by
  induction calls using List.reverseRecOn with
  | nil =>
    exact ⟨guarded_accept hrequired haccept, [], [], rfl, ⟨nofun, nofun, fun _ => rfl⟩, fun hne => (hne rfl).elim⟩
  | append_singleton calls call ih =>
    rcases ih with ⟨hguarded, htogether⟩
    have hrun : c.run (calls ++ [call]) = (c.run calls).call call := by rw [run, List.foldl_append]; rfl
    rw [Endpoint.history_concat, server_run, hrun]
    refine ⟨hguarded.call call, ?_⟩
    by_cases hready : (c.run calls).session.state = .ready
    · cases call with
      | message bytes => exact htogether.message hguarded hready bytes
      | _ => exact (List.append_nil _).symm ▸ htogether.silent _
    · rw [Endpoint.dispatched_of_not_ready (e := .server (c.run calls)) hready, List.append_nil]
      exact htogether.silent call

/-! ## The required packet before any other -/

/-- Whatever is called on a server that requires a first packet: no packet of another tag is heard unless one
of the required tag was heard before it, and as long as nothing was heard, a message with the key of another
packet is not either, and closes. Of a call the listeners hear its packets, and nothing else. -/
theorem required_comes_first {transport : T} {scheduler : S}
    (hrequired : definition.config.handshakePacket = some required)
    (haccept : accept definition transport scheduler = .serving c) (calls : List Call) :
    let e := (Endpoint.server c).run calls
    (∀ before after tag args, (Endpoint.server c).history calls = before ++ (tag, args) :: after → tag ≠ required →
        ∃ args', (required, args') ∈ before) ∧
      (e.state = .ready → (Endpoint.server c).history calls = [] → ∀ key packet body,
        definition.client.byKey key = .ok packet → packet.tag ≠ required →
          e.dispatched (.message (key :: body)) = [] ∧
            e.session.Refused [4004] 1 (e.onMessage (key :: body)).session) ∧
      ∀ call, Journal.heard (e.call call).session.journal =
        Journal.heard e.session.journal ++ e.session.dispatcher.calls (e.dispatched call) := by
  intro e
  rcases run_guarded hrequired haccept calls with ⟨hguarded, first, rest, hhistory, hleading, -⟩
  have he : e = .server (c.run calls) := server_run c calls
  refine ⟨fun before after tag args hsplit hne => ?_, fun hready hnone key packet body hkey hne => ?_, e.heard_call⟩
  · rw [hhistory] at hsplit
    cases first with
    | nil =>
      rw [hleading.rest_eq_nil rfl] at hsplit
      simp at hsplit
    | cons entry first =>
      have hentry : entry.1 = required := hleading.tag_eq entry (by simp)
      cases before with
      | nil =>
        -- the packet would be the first of all
        rw [List.cons_append, List.nil_append, List.cons_eq_cons] at hsplit
        rw [hsplit.1] at hentry
        exact absurd hentry hne
      | cons entry' before =>
        rw [List.cons_append, List.cons_append, List.cons_eq_cons] at hsplit
        exact ⟨entry.2, hsplit.1 ▸ hentry ▸ List.mem_cons_self⟩
  · rw [he] at hready ⊢
    have hcame : (c.run calls).firstCame = false :=
      Bool.eq_false_iff.2 fun htrue => hguarded.something hready htrue hnone
    have htag := Session.inboundTag_of_alike hguarded.inbound hkey body
    exact onMessage_too_early hready hguarded.required_eq hcame htag hne

end ServerConnection

/-! ## A gate -/

namespace Gate

/-- Who the client is, in a batch. -/
def login : Packet := { tag := "login", schema := { shape := .single ⟨.strings, 1, 1⟩, batchInterval := 50 } }

/-- What it has to say, at once. -/
def say : Packet := { tag := "say", schema := { shape := .single ⟨.strings, 1, 1⟩ } }

theorem declared : ∀ packet ∈ [login, say], packet.Declared := by
  have hstrings : Schema.Declared { shape := .single ⟨.strings, 1, 1⟩ } :=
    @Schema.Declared.single .strings 1 1 _ trivial rfl
  have hlogin : login.Declared := .make (hstrings.batching 50 0) (by rfl : Packet.make "login" _ = .ok _)
  have hsay : say.Declared := .make hstrings (by rfl : Packet.make "say" _ = .ok _)
  simp [hlogin, hsay]

def config : ServerConfig := { handshakePacket := some "login" }

theorem built {definition : Definition} (h : Definition.make [login, say] [] .empty config = .ok definition) :
    definition.Built ∧ definition.config.handshakePacket = some "login" := by
  refine ⟨.make declared (by simp) h, ?_⟩
  rw [(Definition.made h).config]
  rfl

def server : Result (ServerConnection Outbox Clock) := do
  let definition ← Definition.make [login, say] [] .empty config
  match ServerConnection.accept definition ({} : Outbox) ({} : Clock) with
  | .serving connection => return connection
  | .refused error _ => .error error

theorem server_serving {c : ServerConnection Outbox Clock} (h : server = .ok c) :
    ∃ definition, Definition.make [login, say] [] .empty config = .ok definition ∧ definition.Built ∧
      definition.config.handshakePacket = some "login" ∧
      ServerConnection.accept definition ({} : Outbox) ({} : Clock) = .serving c := by
  rcases Outcome.bind_eq_ok.1 h with ⟨definition, hmake, h⟩
  split at h
  · rename_i connection haccept
    cases h
    exact ⟨definition, hmake, (built hmake).1, (built hmake).2, haccept⟩
  · cases h

/-- A login, two of them at once, and a word. -/
def one : Bytes := [1, 2, 1, 97]

def two : Bytes := [1, 2, 1, 97, 2, 1, 98]

def word : Bytes := [2, 1, 99]

end Gate

namespace ServerConnection

/-- What is said is heard after the login, and not before. -/
theorem required_comes_first_gate :
    ∃ c, Gate.server = .ok c ∧
      (∃ before after args args', (Endpoint.server c).history [.message Gate.one, .message Gate.word] =
        before ++ ("say", args) :: after ∧ ("login", args') ∈ before) ∧
      (Endpoint.server c).dispatched (.message Gate.word) = [] ∧
      c.session.Refused [4004] 1 (c.onMessage Gate.word).session := by
  have hrun : ((fun c => ((Endpoint.server c).history [.message Gate.one, .message Gate.word]).map Prod.fst) <$>
      Gate.server).toOption = some ["login", "say"] := by
    decide +kernel
  rcases (⟨_, rfl⟩ : ∃ c, Gate.server = .ok c) with ⟨c, hserver⟩
  rw [hserver] at hrun
  rcases Gate.server_serving hserver with ⟨definition, hmake, -, hrequired, haccept⟩
  have htags := Option.some.inj hrun
  rcases List.map_eq_cons_iff.1 htags with ⟨⟨_, login⟩, _, hhistory, rfl, htags⟩
  rcases List.map_eq_cons_iff.1 htags with ⟨⟨_, args⟩, after, rfl, rfl, -⟩
  have hsplit : (Endpoint.server c).history [.message Gate.one, .message Gate.word] =
      [("login", login)] ++ ("say", args) :: after := hhistory
  rcases required_comes_first hrequired haccept [.message Gate.one, .message Gate.word] with ⟨hfirst, -⟩
  rcases hfirst _ _ _ _ hsplit (by decide) with ⟨args', hargs'⟩
  rcases required_comes_first hrequired haccept [] with ⟨-, hearly, -⟩
  have hsay : definition.client.byKey 2 = .ok Gate.say := by
    rw [(Definition.made hmake).client]
    rfl
  have hready : c.session.state = .ready := by
    rcases serving_eq haccept with ⟨_, _, _, _, rfl⟩
    rfl
  rcases hearly hready rfl 2 Gate.say [1, 99] hsay (by decide) with ⟨hnone, hrefused⟩
  exact ⟨c, hserver, ⟨_, _, args, args', hsplit, hargs'⟩, hnone, hrefused⟩

/-! ## The required packet once -/

variable {T S : Type} [Scheduler S] [Transport T] {c : ServerConnection T S} {required : String} {bytes : Bytes}
  {definition : Definition} {history : List (String × List Value)}

omit [Scheduler S] [Transport T] in
/-- A definition names a packet of its own. -/
theorem exists_required (hbuilt : definition.Built) (hrequired : definition.config.handshakePacket = some required) :
    ∃ key packet, definition.client.byKey key = .ok packet ∧ packet.tag = required := by
  have hmem : required ∈ definition.client.tags := by
    induction hbuilt with
    | make _ _ hmake => exact Definition.required_mem hmake hrequired
    | @setClientEnabled definition tag enabled _ ih =>
      have htags := (definition.client.setEnabled_alike tag enabled).tags
      exact htags ▸ ih hrequired
    | setServerEnabled tag enabled _ ih => exact ih hrequired
  rcases List.mem_map.1 hmem with ⟨packet, hpacket, htag⟩
  rcases hbuilt.numbered.1.exists_key hpacket with ⟨key, hkey⟩
  exact ⟨key, packet, hkey, htag⟩

/-- A message that is heard has the key of its packets, and no more of them than it may. -/
theorem Guarded.length_dispatched (h : c.Guarded definition required history) (hnum : definition.client.Numbered)
    {key : UInt8} {packet : Packet} (hkey : definition.client.byKey key = .ok packet)
    (hready : c.session.state = .ready) (hne : c.dispatched bytes ≠ [])
    (htags : ∀ entry ∈ c.dispatched bytes, entry.1 = packet.tag) :
    (∃ body, bytes = key :: body) ∧ (packet.schema.isBatched = false → (c.dispatched bytes).length = 1) ∧
      (0 < packet.schema.maxBatch → (c.dispatched bytes).length ≤ packet.schema.maxBatch.toNat) := by
  rcases onMessage_taken hready bytes with ⟨other, packet', payloads, -, htaken, hall⟩ | ⟨hnone, -⟩
  · rcases Session.openMessage_eq_ok htaken.opened with ⟨body, rfl, hother, -⟩
    rcases h.inbound.byKey hother with ⟨packet'', hother', hsame⟩
    have hschema : packet''.schema = packet'.schema := congrArg (·.schema) hsame
    have htag : packet''.tag = packet'.tag := congrArg (·.tag) hsame
    -- the payloads are packets of the message's key, so the keys are the same
    have hheard : packet'.tag = packet.tag := by
      rcases List.exists_mem_of_ne_nil _ hne with ⟨entry, hentry⟩
      have hmem := List.mem_map_of_mem (f := Prod.fst) hentry
      rw [hall, htaken.dispatched] at hmem
      rw [← List.eq_of_mem_replicate hmem]
      exact htags entry hentry
    have hkeys : other = key := by_contra fun hdiffer => hnum.tag_ne hkey hother' hdiffer (htag.trans hheard).symm
    subst hkeys
    rcases Outcome.ok_unique hkey hother'
    have hlength := Session.length_of_openMessage htaken.opened
    rw [hall, htaken.length_dispatched, hschema]
    exact ⟨⟨body, rfl⟩, hlength⟩
  · exact absurd hnone hne

/-- Whatever is called on a server that requires a first packet: all packets of its tag that are heard are
from one message. They are more than one only if the packet is batched, and no more than a batch holds. Once
one was heard, no message with its key is, and the first such message closes. -/
theorem required_comes_together {transport : T} {scheduler : S} (hbuilt : definition.Built)
    (hrequired : definition.config.handshakePacket = some required)
    (haccept : accept definition transport scheduler = .serving c) (calls : List Call) :
    let e := (Endpoint.server c).run calls
    ∃ key packet first rest, definition.client.byKey key = .ok packet ∧ packet.tag = required ∧
      (Endpoint.server c).history calls = first ++ rest ∧ (∀ entry ∈ first, entry.1 = required) ∧
      (∀ entry ∈ rest, entry.1 ≠ required) ∧
      (first ≠ [] → ∃ before body after, calls = before ++ .message (key :: body) :: after ∧
        ((Endpoint.server c).run before).dispatched (.message (key :: body)) = first) ∧
      (packet.schema.isBatched = false → first.length ≤ 1) ∧
      (0 < packet.schema.maxBatch → first.length ≤ packet.schema.maxBatch.toNat) ∧
      (first ≠ [] → ∀ body, e.dispatched (.message (key :: body)) = [] ∧
        (e.state = .ready → e.session.Refused [4005] 1 (e.onMessage (key :: body)).session)) ∧
      ∀ call, Journal.heard (e.call call).session.journal =
        Journal.heard e.session.journal ++ e.session.dispatcher.calls (e.dispatched call) := by
  intro e
  have he : e = .server (c.run calls) := server_run c calls
  rcases exists_required hbuilt hrequired with ⟨key, packet, hkey, rfl⟩
  rcases run_guarded hrequired haccept calls with ⟨hguarded, first, rest, hhistory, hleading, hmessage⟩
  have hone : first ≠ [] → ∃ before body after, calls = before ++ .message (key :: body) :: after ∧
      ((Endpoint.server c).run before).dispatched (.message (key :: body)) = first ∧
      (packet.schema.isBatched = false → first.length = 1) ∧
      (0 < packet.schema.maxBatch → first.length ≤ packet.schema.maxBatch.toNat) := by
    intro hne
    rcases hmessage hne with ⟨before, bytes, after, hcalls, hready, rfl⟩
    have hbefore := (run_guarded hrequired haccept before).1
    rcases hbefore.length_dispatched hbuilt.numbered.1 hkey hready hne hleading.tag_eq with ⟨⟨body, rfl⟩, hbounds⟩
    exact ⟨before, body, after, hcalls, by rw [server_run]; rfl, hbounds⟩
  refine ⟨key, packet, first, rest, hkey, rfl, hhistory, hleading.tag_eq, hleading.tag_ne, fun hne => ?_,
    fun hsingle => ?_, fun hpos => ?_, fun hne body => ?_, e.heard_call⟩
  · rcases hone hne with ⟨before, body, after, hcalls, hdispatched, -⟩
    exact ⟨before, body, after, hcalls, hdispatched⟩
  · by_cases hne : first = []
    · simp [hne]
    · rcases hone hne with ⟨_, _, _, -, -, hlength, -⟩
      exact Nat.le_of_eq (hlength hsingle)
  · by_cases hne : first = []
    · simp [hne]
    · rcases hone hne with ⟨_, _, _, -, -, -, hlength⟩
      exact hlength hpos
  · have hcame : (c.run calls).firstCame = true := by
      by_contra hfalse
      have hnothing := hguarded.nothing (Bool.eq_false_iff.2 hfalse)
      rw [hhistory] at hnothing
      exact hne (List.append_eq_nil_iff.1 hnothing).1
    rw [he]
    by_cases hready : (c.run calls).session.state = .ready
    · have htag := Session.inboundTag_of_alike hguarded.inbound hkey body
      rcases onMessage_again hready hguarded.required_eq hcame htag with ⟨hnone, hrefused⟩
      exact ⟨hnone, fun _ => hrefused⟩
    · exact ⟨Endpoint.dispatched_of_not_ready (e := .server (c.run calls)) hready _, fun hstate => (hready hstate).elim⟩

/-- Two logins in one batch are both heard, and a third one closes. -/
theorem required_comes_together_gate :
    ∃ c, Gate.server = .ok c ∧
      (∃ first second, (Endpoint.server c).history [.message Gate.two] = [("login", first), ("login", second)]) ∧
      ((Endpoint.server c).run [.message Gate.two]).dispatched (.message Gate.one) = [] ∧
      ((Endpoint.server c).run [.message Gate.two]).session.Refused [4005] 1
        (((Endpoint.server c).run [.message Gate.two]).onMessage Gate.one).session := by
  have hrun : ((fun c => (((Endpoint.server c).history [.message Gate.two]).map Prod.fst,
      ((Endpoint.server c).run [.message Gate.two]).state)) <$> Gate.server).toOption =
        some (["login", "login"], .ready) := by
    decide +kernel
  rcases (⟨_, rfl⟩ : ∃ c, Gate.server = .ok c) with ⟨c, hserver⟩
  rw [hserver] at hrun
  rcases Gate.server_serving hserver with ⟨definition, hmake, hbuilt, hrequired, haccept⟩
  rcases Prod.mk.inj (Option.some.inj hrun) with ⟨htags, hready⟩
  rcases List.map_eq_cons_iff.1 htags with ⟨⟨_, args⟩, _, hhistory, rfl, htags⟩
  rcases List.map_eq_cons_iff.1 htags with ⟨⟨_, args'⟩, _, rfl, rfl, hnil⟩
  rcases List.map_eq_nil_iff.1 hnil
  rcases required_comes_together hbuilt hrequired haccept [.message Gate.two] with
    ⟨key, packet, first, rest, hkey, htag, hsplit, -, htags, -, -, -, hagain, -⟩
  have hlogin : definition.client.byKey 1 = .ok Gate.login := by
    rw [(Definition.made hmake).client]
    rfl
  have hone : 1 = key := by_contra fun hne => hbuilt.numbered.1.tag_ne hkey hlogin hne htag
  have hfirst : first ≠ [] := by
    rintro rfl
    rw [hhistory, List.nil_append] at hsplit
    exact htags ("login", args) (by simp [← hsplit]) rfl
  rcases hagain hfirst [2, 1, 97] with ⟨hnone, hrefused⟩
  rw [← hone] at hnone hrefused
  exact ⟨c, hserver, ⟨args, args', hhistory⟩, hnone, hrefused hready⟩

end ServerConnection

end PacketProtocol
