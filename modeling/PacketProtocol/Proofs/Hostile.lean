import Mathlib
import PacketProtocol.Proofs.Lifecycle
import PacketProtocol.Proofs.Machine.Session
/-!
# Hostile messages

Whatever octets a connection is given, it does not trap, and it either takes the whole message in or
closes over it with a code that says why. A message that is refused runs nothing.
-/

namespace PacketProtocol

theorem CloseCode.number_of_isAbuse {code : CloseCode} (h : code.isAbuse = true) :
    code.number ∈ [4002, 4003, 4004, 4005] := by
  revert h
  cases code <;> decide

namespace Session

variable {T S : Type}

/-! ## Ways a message ends -/

/-- All payloads decoded, the listeners of the tag heard each of them, and the session goes on. -/
structure Delivered (s : Session T S) (bytes : Bytes) (s' : Session T S) : Prop where
  state : s'.state = .ready
  transport : s'.transport = s.transport
  heard : ∃ key packet payloads decoded entries, s.openMessage bytes = .ok (key, packet, payloads) ∧
    payloads.mapM packet.decode = .ok decoded ∧ s'.journal = s.journal ++ entries ∧
    Journal.heard entries =
      s.dispatcher.calls (decoded.map fun values => (packet.tag, packet.schema.arguments values)) ∧
    Journal.abuses entries = 0

/-- The session closed with one of these codes, told its transport and its close callbacks so, and ran
nothing else. It blamed the peer so many times. -/
structure Refused [Transport T] (s : Session T S) (codes : List Nat) (blame : Nat) (s' : Session T S) : Prop where
  state : s'.state = .closed
  outbound : s'.outbound = s.outbound
  inbound : s'.inbound = s.inbound
  told : ∃ code reason entries, code.number ∈ codes ∧ s'.transport = Transport.close s.transport code reason ∧
    s'.journal = s.journal ++ entries ∧
    Journal.closings entries = s.dispatcher.closeCallbacks.map (·, code, reason) ∧
    Journal.runs entries = [] ∧ Journal.abuses entries = blame

/-- The session took on the registries of a handshake. -/
structure Introduced (s : Session T S) (bytes : Bytes) (s' : Session T S) : Prop where
  state : s'.state = .ready
  transport : s'.transport = s.transport
  registries : ∃ handshake, Handshake.parse bytes = .ok handshake ∧ s'.outbound = handshake.client ∧
    s'.inbound = handshake.server

/-- What comes before may move timers and counters, as long as nothing runs. -/
theorem Delivered.preceded {s s' : Session T S} {bytes : Bytes} {scheduler : S} {timers : List TimerHandle}
    {entries : Journal} (hentries : Journal.Tally entries)
    (h : Delivered { s with scheduler, timers, journal := s.journal ++ entries } bytes s') : s.Delivered bytes s' := by
  obtain ⟨hstate, htransport, key, packet, payloads, decoded, entries', hopen, hdecoded, hjournal, hcalls, hnone⟩ := h
  refine ⟨hstate, htransport, key, packet, payloads, decoded, entries ++ entries', hopen, hdecoded, ?_, ?_, ?_⟩
  · rw [hjournal, List.append_assoc]
  · rw [Journal.heard_append, hentries.heard, List.nil_append]
    exact hcalls
  · rw [Journal.abuses_append, hentries.abuses, hnone]

section Refusals

variable [Transport T] {s s' : Session T S} {codes : List Nat} {blame : Nat}

theorem Refused.preceded {state : ConnectionState} {scheduler : S} {timers : List TimerHandle}
    {receiveLimiter : RateLimiter} {entries : Journal} (hclosings : Journal.closings entries = [])
    (hruns : Journal.runs entries = [])
    (h : Refused { s with state, scheduler, timers, receiveLimiter, journal := s.journal ++ entries } codes blame s') :
    s.Refused codes (Journal.abuses entries + blame) s' := by
  obtain ⟨hstate, houtbound, hinbound, code, reason, entries', hcode, htransport, hjournal, htold⟩ := h
  obtain ⟨hclosings', hruns', hblame⟩ := htold
  refine ⟨hstate, houtbound, hinbound, code, reason, entries ++ entries', hcode, htransport, ?_, ?_, ?_, ?_⟩
  · rw [hjournal, List.append_assoc]
  · rw [Journal.closings_append, hclosings, List.nil_append]
    exact hclosings'
  · rw [Journal.runs_append, hruns, hruns', List.append_nil]
  · rw [Journal.abuses_append, hblame]

theorem Refused.tallied {state : ConnectionState} {scheduler : S} {timers : List TimerHandle}
    {receiveLimiter : RateLimiter} {entries : Journal} (hentries : Journal.Tally entries)
    (h : Refused { s with state, scheduler, timers, receiveLimiter, journal := s.journal ++ entries } codes blame s') :
    s.Refused codes blame s' := by
  have hrefused := h.preceded hentries.closings hentries.runs
  rwa [hentries.abuses, Nat.zero_add] at hrefused

variable [Scheduler S]

theorem refused_close (hstate : s.state ≠ .closed) {code : CloseCode} (hcode : code.number ∈ codes) (reason : String) :
    s.Refused codes 0 (s.close code reason) := by
  have hruns : Journal.runs (s.dispatcher.fireClose code reason) = [] := by
    simp [Dispatcher.fireClose, Journal.runs]
  have habuses : Journal.abuses (s.dispatcher.fireClose code reason) = 0 := by
    simp [Dispatcher.fireClose, Journal.abuses, Journal.counts, List.filterMap_map]
  rw [close, if_neg hstate]
  refine ⟨rfl, rfl, rfl, code, reason, [.counted .connectionClosed] ++ s.dispatcher.fireClose code reason, hcode, rfl,
    ?_, ?_, ?_, ?_⟩
  · rw [← List.append_assoc]
    rfl
  · rw [Journal.closings_append, Dispatcher.closings_fireClose]
    rfl
  · rw [Journal.runs_append, hruns]
    rfl
  · rw [Journal.abuses_append, habuses]
    rfl

/-- An error that blames the peer is counted as such. -/
theorem refused_fail (hstate : s.state ≠ .closed) {error : ProtocolError} (habuse : error.closeCode.isAbuse = true)
    (hcode : error.closeCode.number ∈ codes) : s.Refused codes 1 (s.fail error) := by
  have hclose := @refused_close _ _ _ (s.count .abuseClose) _ _ hstate _ hcode error.message
  rw [fail, if_pos habuse]
  exact Refused.preceded rfl rfl hclose

end Refusals

variable [Transport T] [Scheduler S] {s : Session T S}

omit [Transport T] [Scheduler S] in
/-- A message that is refused is counted, and counted against its key at most. -/
theorem Received.eq_of_error {s' : Session T S} {bytes : Bytes} {error : ProtocolError}
    (h : s.Received bytes (.error error) s') : ∃ receiveLimiter entries, Journal.Tally entries ∧
      s' = { s with receiveLimiter, journal := s.journal ++ entries } := by
  cases h with
  | unopened _ entries _ hentries => exact ⟨_, entries, hentries, rfl⟩
  | limited _ _ _ receiveLimiter entries _ _ hentries => exact ⟨receiveLimiter, entries, hentries, rfl⟩
  | undecoded _ _ _ _ receiveLimiter entries _ _ _ hentries => exact ⟨receiveLimiter, entries, hentries, rfl⟩

/-- A ready session takes a message in, or it closes. -/
theorem receiveOrFail_cases (hstate : s.state = .ready) (bytes : Bytes) :
    s.Delivered bytes (s.receiveOrFail bytes) ∨ s.Refused [4002, 4003, 4004, 4005] 1 (s.receiveOrFail bytes) := by
  have hreceived := s.receive_received bytes
  have hopen : s.state ≠ .closed := by rw [hstate]; decide
  unfold receiveOrFail
  generalize s.receive bytes = outcome at hreceived
  obtain ⟨result, s'⟩ := outcome
  cases result with
  | ok =>
    cases hreceived with
    | delivered key packet payloads limiter decoded entries hmessage _ hdecoded hheard habuses =>
      exact .inl ⟨hstate, rfl, key, packet, payloads, decoded, entries, hmessage, hdecoded, rfl, hheard, habuses⟩
  | error error =>
    have habuse : error.closeCode.isAbuse = true := by
      obtain hcode | hcode := hreceived.closeCode <;> rw [hcode] <;> rfl
    obtain ⟨receiveLimiter, entries, hentries, rfl⟩ := hreceived.eq_of_error
    have hopen' : Session.state { s with receiveLimiter, journal := s.journal ++ entries } ≠ .closed := hopen
    exact .inr (.tallied hentries (refused_fail hopen' habuse (CloseCode.number_of_isAbuse habuse)))

end Session

/-! ## Servers -/

namespace ServerConnection

variable {T S : Type} [Transport T] [Scheduler S] {c : ServerConnection T S}

theorem onMessage_cases (hstate : c.session.state = .ready) (bytes : Bytes) :
    c.session.Delivered bytes (c.onMessage bytes).session ∨
      c.session.Refused [4002, 4003, 4004, 4005] 1 (c.onMessage bytes).session := by
  have hready : c.session.isReady = true := by simp [Session.isReady, hstate]
  obtain ⟨scheduler, timers, entries, hentries, hsession⟩ := c.checkFirst_eq bytes
  have herror := @checkFirst_eq_error _ _ _ c bytes
  rw [onMessage, if_pos hready]
  generalize c.checkFirst bytes = checked at hsession herror
  obtain ⟨result, c'⟩ := checked
  have hstate' : c'.session.state = .ready := by
    rw [show c'.session = _ from hsession]
    exact hstate
  -- the look at a first message moves the timer only, and what it notes runs nothing
  cases result with
  | ok =>
    have hcases := Session.receiveOrFail_cases hstate' bytes
    rw [show c'.session = _ from hsession] at hcases
    show c.session.Delivered bytes (c'.session.receiveOrFail bytes) ∨
      c.session.Refused _ 1 (c'.session.receiveOrFail bytes)
    rw [show c'.session = _ from hsession]
    exact hcases.imp (.preceded hentries) (.tallied hentries)
  | error error =>
    have habuse : error.closeCode.isAbuse = true := by
      obtain hcode | hcode | hcode := herror rfl <;> rw [hcode] <;> rfl
    have hfail := Session.refused_fail (s := c'.session) (by rw [hstate']; decide) habuse
      (CloseCode.number_of_isAbuse habuse)
    refine .inr ?_
    show c.session.Refused _ 1 (c'.session.fail error)
    rw [show c'.session = _ from hsession] at hfail ⊢
    exact .tallied hentries hfail

end ServerConnection

/-! ## Clients -/

/-- A handshake is no handshake at all, or of another version. -/
theorem Handshake.number_of_parse_error {bytes : Bytes} {error : ProtocolError} (h : parse bytes = .error error) :
    error.closeCode.number ∈ [4000, 4001] := by
  unfold parse at h
  split at h
  · cases h
    decide
  · split at h
    · cases h
      decide
    · split at h
      · cases h
        exact .tail _ (.head _)
      · split at h <;> cases h
        decide

namespace ClientConnection

variable {T S : Type} [Transport T] [Scheduler S] {c : ClientConnection T S}

omit [Transport T] in
theorem introduced_adopt {bytes : Bytes} {handshake : Handshake} (h : Handshake.parse bytes = .ok handshake) :
    c.session.Introduced bytes (c.adopt handshake).session := by
  obtain ⟨_, _, hactivate⟩ :=
    c.session.activate_eq handshake.client handshake.server (rateWindowMs handshake.rateWindow)
  simp only [adopt, hactivate]
  exact ⟨rfl, rfl, handshake, h, rfl, rfl⟩

theorem refused_refuse (hstate : c.state ≠ .closed) {bytes : Bytes} {error : ProtocolError}
    (h : Handshake.parse bytes = .error error) : c.session.Refused [4000, 4001] 0 (c.refuse error).session := by
  have hcode := Handshake.number_of_parse_error h
  exact Session.Refused.preceded rfl rfl (Session.refused_close (s := c.session.count .handshakeFailed) hstate hcode _)

/-- A client that waits takes a handshake on, or it closes. -/
theorem completeHandshake_cases (hstate : c.state ≠ .closed) (bytes : Bytes) :
    c.session.Introduced bytes (c.completeHandshake bytes).session ∨
      c.session.Refused [4000, 4001] 0 (c.completeHandshake bytes).session := by
  obtain ⟨scheduler, timers, hstop⟩ := c.stopExpiry_eq
  have hopen : c.stopExpiry.state ≠ .closed := by
    rw [state, hstop]
    exact hstate
  unfold completeHandshake
  cases hparse : Handshake.parse bytes with
  | ok handshake =>
    have hintroduced := introduced_adopt (c := c.stopExpiry) hparse
    refine .inl ⟨hintroduced.state, ?_, hintroduced.registries⟩
    rw [hintroduced.transport, hstop]
  | error error =>
    have hrefused := refused_refuse hopen hparse
    rw [hstop] at hrefused
    have hnone : Session.Refused { c.session with scheduler, timers, journal := c.session.journal ++ [] } [4000, 4001] 0
        (c.stopExpiry.refuse error).session := by rwa [List.append_nil]
    exact .inr (.tallied .nil hnone)

theorem onMessage_cases (hstate : c.state = .connecting ∨ c.state = .awaitingSchema) (bytes : Bytes) :
    c.session.Introduced bytes (c.onMessage bytes).session ∨
      c.session.Refused [4000, 4001] 0 (c.onMessage bytes).session := by
  unfold onMessage
  obtain hstate | hstate := hstate
  · rw [hstate]
    have hattempt : Journal.Tally [.counted .handshakeAttempt] := .cons nofun .nil
    have hwaiting : c.awaitHandshake.state ≠ .closed := show ConnectionState.awaitingSchema ≠ .closed by decide
    obtain hintroduced | hrefused := completeHandshake_cases hwaiting bytes
    · exact .inl ⟨hintroduced.state, hintroduced.transport, hintroduced.registries⟩
    · exact .inr (Session.Refused.tallied hattempt hrefused)
  · rw [hstate]
    exact completeHandshake_cases (by rw [hstate]; decide) bytes

end ClientConnection

/-! ## Before the handshake -/

theorem Registry.Alike.eq_empty {registry : Registry} (h : registry.Alike .empty) : registry = .empty := by
  have hnone : registry.packets = [] := List.map_eq_nil_iff.1 h
  cases registry
  exact congrArg Registry.mk hnone

namespace Session

variable {T S : Type}

/-- As long as the session waits, it knows no packets. -/
def Uninformed (s : Session T S) : Prop :=
  s.state = .connecting ∨ s.state = .awaitingSchema → s.outbound = .empty ∧ s.inbound = .empty

variable {s s' : Session T S}

theorem uninformed_of_ready (h : s.state = .ready) : s.Uninformed := by
  rintro (hstate | hstate) <;> rw [h] at hstate <;> cases hstate

theorem uninformed_of_closed (h : s.state = .closed) : s.Uninformed := by
  rintro (hstate | hstate) <;> rw [h] at hstate <;> cases hstate

theorem Uninformed.aside (h : s.Uninformed) (haside : s.Aside s') : s'.Uninformed := by
  intro hstate
  rw [haside.state] at hstate
  obtain ⟨houtbound, hinbound⟩ := h hstate
  exact ⟨(houtbound ▸ haside.outbound).eq_empty, (hinbound ▸ haside.inbound).eq_empty⟩

variable [Transport T]

/-- A session that is not ready refuses to send. -/
theorem sendEncoded_of_not_ready (h : s.state ≠ .ready) (key : UInt8) (payload : Bytes) :
    (s.sendEncoded key payload).2 = s := by
  unfold sendEncoded
  split
  · rfl
  · rename_i hready
    unfold ensureReady at hready
    split at hready <;> contradiction

theorem send_of_not_ready (h : s.state ≠ .ready) (tag : String) (values : List Value) : (s.send tag values).2 = s := by
  unfold send
  split
  · rfl
  · exact sendEncoded_of_not_ready h _ _

variable [Scheduler S]

theorem Uninformed.act (h : s.Uninformed) (hact : Act s s') : s'.Uninformed := by
  cases hact with
  | aside haside => exact h.aside haside
  | await hstate => exact fun _ => h (.inl hstate)
  | adopt _ _ => exact uninformed_of_ready rfl
  | tick kind =>
    by_cases hstate : s.state = .ready
    · exact uninformed_of_ready ((s.onTimer_state kind).trans hstate)
    · rw [onTimer_of_not_ready hstate]
      exact h
  | close code reason => exact uninformed_of_closed (s.close_state code reason)

theorem Uninformed.acts (h : s.Uninformed) (hacts : Acts s s') : s'.Uninformed := by
  induction hacts with
  | refl => exact h
  | tail _ hact ih => exact ih.act hact

theorem Uninformed.did (h : s.Uninformed) {call : Call} (hdid : s.Did call s') : s'.Uninformed := by
  cases hdid with
  | send tag values =>
    by_cases hstate : s.state = .ready
    · exact uninformed_of_ready ((s.works_send tag values).state.trans hstate)
    · rw [send_of_not_ready hstate]
      exact h
  | sendEncoded key payload =>
    by_cases hstate : s.state = .ready
    · exact uninformed_of_ready ((s.works_sendEncoded key payload).state.trans hstate)
    · rw [sendEncoded_of_not_ready hstate]
      exact h
  | onClose callback => exact h
  | close code reason => exact uninformed_of_closed (s.close_state code reason)
  | transportClosed code reason => exact uninformed_of_closed (s.closedByPeer_state code reason)
  | acts _ hacts => exact h.acts hacts

end Session

/-! ## Runs of calls -/

namespace Endpoint

variable {T S : Type} [Transport T] [Scheduler S] {transport : T} {e : Endpoint T S}

theorem call_client (c : ClientConnection T S) (call : Call) : ∃ c', (client c).call call = client c' := by
  cases call with
  | on tag listener =>
    simp only [Endpoint.call, Endpoint.on]
    cases c.on tag listener <;> exact ⟨_, rfl⟩
  | _ => exact ⟨_, rfl⟩

theorem run_client (c : ClientConnection T S) (calls : List Call) : ∃ c', (client c).run calls = client c' := by
  induction calls generalizing c with
  | nil => exact ⟨c, rfl⟩
  | cons call calls ih =>
    obtain ⟨c', hcall⟩ := call_client c call
    obtain ⟨c'', hrun⟩ := ih c'
    exact ⟨c'', by rw [run, List.foldl_cons, hcall]; exact hrun⟩

theorem uninformed_run (h : e.session.Uninformed) (calls : List Call) : (e.run calls).session.Uninformed := by
  induction calls generalizing e with
  | nil => exact h
  | cons call calls ih => exact ih (h.did (e.call_did call))

/-- What waits for a handshake is a client that knows no packets. -/
theorem New.waiting (h : e.New transport) (calls : List Call)
    (hstate : (e.run calls).state = .connecting ∨ (e.run calls).state = .awaitingSchema) :
    ∃ c, e.run calls = Endpoint.client c ∧ c.session.outbound = .empty ∧ c.session.inbound = .empty := by
  cases h with
  | client scheduler config =>
    have hnew : (Endpoint.client (.start transport scheduler config)).session.Uninformed := fun _ => ⟨rfl, rfl⟩
    obtain ⟨c, hrun⟩ := run_client (.start transport scheduler config) calls
    have huninformed := uninformed_run hnew calls
    rw [hrun] at hstate huninformed
    exact ⟨c, hrun, huninformed hstate⟩
  | @server definition connection scheduler _ haccept =>
    -- a server is ready when it begins, and does not go back
    obtain ⟨_, _, _, _, hserver⟩ := ServerConnection.serving_eq haccept
    have hforward := rank_le_run (.server connection) calls
    have hready : (Endpoint.server connection).state = .ready := by rw [hserver]; rfl
    rw [hready] at hforward
    rcases hstate with hstate | hstate <;> rw [hstate] at hforward <;> exact absurd hforward (by decide)

theorem onMessage_ready (h : e.state = .ready) (bytes : Bytes) :
    e.session.Delivered bytes (e.onMessage bytes).session ∨
      e.session.Refused [4002, 4003, 4004, 4005] 1 (e.onMessage bytes).session := by
  cases e with
  | client c =>
    have hstate : c.state = .ready := h
    have hsession : ((client c).onMessage bytes).session = c.session.receiveOrFail bytes := by
      simp only [onMessage, session, ClientConnection.onMessage, hstate]
    rw [hsession]
    exact Session.receiveOrFail_cases h bytes
  | server c => exact ServerConnection.onMessage_cases h bytes

theorem onMessage_of_closed (h : e.state = .closed) (bytes : Bytes) : e.onMessage bytes = e := by
  cases e with
  | client c =>
    have hstate : c.state = .closed := h
    simp only [onMessage, ClientConnection.onMessage, hstate]
  | server c =>
    have hstate : c.session.state = .closed := h
    have hready : c.session.isReady = false := by rw [Session.isReady, hstate]; rfl
    simp only [onMessage, ServerConnection.onMessage, hready]
    rfl

/-- Whatever a connection was called and whatever message comes then, the machine does not trap. A
ready connection delivers each payload once and in order, or it runs nothing and closes over the peer's
fault; one that waits takes the handshake on, or closes and knows no packets; a closed one is left as
it was. -/
theorem run_hostile (hnew : e.New transport) (calls : List Call) (bytes : Bytes) :
    let before := e.run calls
    let after := before.onMessage bytes
    (bytes.length < 2 ^ 64 → Machine.onMessage before bytes = some after) ∧
      (before.state = .ready → before.session.Delivered bytes after.session ∨
        before.session.Refused [4002, 4003, 4004, 4005] 1 after.session) ∧
      (before.state = .connecting ∨ before.state = .awaitingSchema →
        before.session.Introduced bytes after.session ∨
          before.session.Refused [4000, 4001] 0 after.session ∧ after.session.outbound = .empty ∧
            after.session.inbound = .empty) ∧
      (before.state = .closed → after = before) := by
  intro before after
  refine ⟨fun hlength => Machine.onMessage_eq before hlength, fun hready => onMessage_ready hready bytes,
    fun hwaiting => ?_, fun hclosed => onMessage_of_closed hclosed bytes⟩
  obtain ⟨c, hclient, houtbound, hinbound⟩ := hnew.waiting calls hwaiting
  have hbefore : before = .client c := hclient
  have hafter : after = .client (c.onMessage bytes) := congrArg (onMessage · bytes) hbefore
  rw [hbefore] at hwaiting
  rw [hbefore, hafter]
  obtain hintroduced | hrefused := ClientConnection.onMessage_cases hwaiting bytes
  · exact .inl hintroduced
  · exact .inr ⟨hrefused, hrefused.outbound.trans houtbound, hrefused.inbound.trans hinbound⟩

namespace Truncated

def beat : Packet :=
  { tag := "beat", schema := { shape := .single ⟨.intsDynamic, 1, 4⟩, batchInterval := 50 } }

theorem declared : ∀ packet ∈ [beat], packet.Declared := by
  have hints : Schema.Declared { shape := .single ⟨.intsDynamic, 1, 4⟩ } :=
    @Schema.Declared.single .intsDynamic 1 4 _ trivial rfl
  rw [List.forall_mem_singleton]
  exact .make (hints.batching 50 0) (by rfl : Packet.make "beat" _ = .ok _)

def server : Result (Endpoint Outbox Clock) := do
  let definition ← Definition.make [beat] [] .empty {}
  match ServerConnection.accept definition ({} : Outbox) ({} : Clock) with
  | .serving connection => return .server connection
  | .refused error _ => .error error

theorem server_new {e : Endpoint Outbox Clock} (h : server = .ok e) : e.New {} := .serve declared (by simp) h

def client : Endpoint Outbox Clock := .client (.start {} {} {})

def calls : List Call := [.on "beat" { name := "log" }, .onClose "bye"]

/-- Two beats in a batch. -/
def whole : Bytes := [1, 2, 1, 1, 2, 1, 2]

/-- The first one is good, but the second ends too early. -/
def batch : Bytes := whole.dropLast

end Truncated

/-- A batch is delivered, a shorter one closes the server, and its octets are no handshake. -/
theorem run_hostile_truncated :
    (∃ e, Truncated.server = .ok e ∧ e.New {} ∧
      (e.run Truncated.calls).session.Delivered Truncated.whole
        ((e.run Truncated.calls).onMessage Truncated.whole).session ∧
      (e.run Truncated.calls).session.Refused [4002, 4003, 4004, 4005] 1
        ((e.run Truncated.calls).onMessage Truncated.batch).session ∧
      Machine.onMessage (e.run Truncated.calls) Truncated.batch =
        some ((e.run Truncated.calls).onMessage Truncated.batch)) ∧
      Truncated.client.New {} ∧
      (Truncated.client.run Truncated.calls).session.Refused [4000, 4001] 0
        ((Truncated.client.run Truncated.calls).onMessage Truncated.batch).session := by
  have hrun : (fun e => ((e.run Truncated.calls).state, ((e.run Truncated.calls).onMessage Truncated.whole).state,
      (e.run Truncated.calls).session.openMessage Truncated.batch)) <$> Truncated.server =
      .ok (.ready, .ready, .error (.batchCorrupt "beat" (.overrun 2 4))) := by
    cbv
  obtain ⟨e, hserver, hrun⟩ := Outcome.map_eq_ok.1 hrun
  obtain ⟨hready, hrun⟩ := Prod.mk.inj hrun
  obtain ⟨hwhole, hbatch⟩ := Prod.mk.inj hrun
  have hnew := Truncated.server_new hserver
  have hclient : Truncated.client.New {} := .client _ _
  have hparse : Handshake.parse Truncated.batch = .error .notProtocol := rfl
  obtain ⟨-, hcases, -⟩ := run_hostile hnew Truncated.calls Truncated.whole
  obtain ⟨hsafe, hcases', -⟩ := run_hostile hnew Truncated.calls Truncated.batch
  obtain ⟨-, -, hcases'', -⟩ := run_hostile hclient Truncated.calls Truncated.batch
  refine ⟨⟨e, hserver, hnew, ?_, ?_, hsafe (by decide)⟩, hclient, ?_⟩
  · refine (hcases hready).resolve_right fun hrefused => ?_
    have hclosed : ((e.run Truncated.calls).onMessage Truncated.whole).state = .closed := hrefused.state
    rw [hwhole] at hclosed
    cases hclosed
  · refine (hcases' hready).resolve_left fun hdelivered => ?_
    obtain ⟨_, _, _, _, _, hopen, -⟩ := hdelivered.heard
    rw [hbatch] at hopen
    cases hopen
  · refine ((hcases'' (.inl rfl)).resolve_left fun hintroduced => ?_).1
    obtain ⟨_, hok, -⟩ := hintroduced.registries
    rw [hparse] at hok
    cases hok

end Endpoint

end PacketProtocol
