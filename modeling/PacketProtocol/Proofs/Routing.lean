import PacketProtocol.Proofs.Callbacks
/-!
# Callbacks run when they should

What a connection's callbacks do follows from what was registered and from what comes in, in the order of
both. Listeners may be registered before the handshake or after it, and any of them may fail.
-/

namespace PacketProtocol

/-! ## What was registered -/

/-- The error callback that a call sets. -/
def Call.errorCallback? : Call → Option String
  | .onError callback => some callback
  | _ => none

/-- The error callback after some calls: the last one that was set. -/
def errorCallback (calls : List Call) : Option String := (calls.filterMap Call.errorCallback?).getLast?

theorem errorCallback_concat (calls : List Call) (call : Call) :
    errorCallback (calls ++ [call]) = call.errorCallback?.or (errorCallback calls) := by
  rw [errorCallback, List.filterMap_append, List.getLast?_append, List.filterMap_cons]
  cases call.errorCallback? <;> rfl

namespace Endpoint

variable {T S : Type}

/-- The listener that a call registers, unless it is refused. -/
def registers (e : Endpoint T S) : Call → List (String × Listener)
  | .on tag listener =>
    match e.on tag listener with
    | .ok _ => [(tag, listener)]
    | .error _ => []
  | _ => []

/-- The ready callback that a call leaves with a client. One that is closed will not be ready any more. -/
def asks : Endpoint T S → Call → List String
  | client c, .onReady callback => if c.state = .closed then [] else [callback]
  | _, _ => []

/-- What a call runs at once: a ready callback, if the client is ready already. -/
def answers : Endpoint T S → Call → Journal
  | client c, .onReady callback => if c.state = .ready then [.ready callback] else []
  | _, _ => []

variable [Transport T] [Scheduler S]

/-- What each call of a run adds, by the connection as it is then. -/
def along {α : Type} (e : Endpoint T S) (adds : Endpoint T S → Call → List α) : List Call → List α
  | [] => []
  | call :: calls => adds e call ++ (e.call call).along adds calls

theorem along_concat {α : Type} (e : Endpoint T S) (adds : Endpoint T S → Call → List α) (calls : List Call)
    (call : Call) : e.along adds (calls ++ [call]) = e.along adds calls ++ adds (e.run calls) call := by
  induction calls generalizing e with
  | nil => exact List.append_nil _
  | cons first calls ih => rw [List.cons_append, along, ih, along, List.append_assoc, run, run, List.foldl_cons]

/-- Listeners that a run registers, in order. -/
def registered (e : Endpoint T S) (calls : List Call) : List (String × Listener) := e.along registers calls

/-- Ready callbacks that a run leaves with the connection, in order. -/
def asked (e : Endpoint T S) (calls : List Call) : List String := e.along asks calls

omit [Transport T] [Scheduler S] in
theorem adds_nothing (e : Endpoint T S) {call : Call} (h : call.Neutral) :
    e.registers call = [] ∧ e.asks call = [] ∧ call.errorCallback? = none := by
  cases e <;> cases call <;> first | exact ⟨rfl, rfl, rfl⟩ | exact h.elim

omit [Transport T] [Scheduler S] in
/-- Registering with a ready connection puts the listener behind the others, or changes nothing. -/
theorem on_ready {e : Endpoint T S} (hstate : e.state = .ready) (tag : String) (listener : Listener) :
    (∃ e', e.on tag listener = .ok e' ∧ e'.session =
        { e.session with
          dispatcher :=
            { e.session.dispatcher with listeners := e.session.dispatcher.listeners ++ [(tag, listener)] } }) ∨
      ∃ error, e.on tag listener = .error error := by
  cases e with
  | client c =>
    have hclient : c.state = .ready := hstate
    simp only [Endpoint.on, ClientConnection.on, hclient, Dispatcher.register]
    cases c.session.inbound.keyOf tag with
    | ok key => exact .inl ⟨_, rfl, rfl⟩
    | error error => exact .inr ⟨error, rfl⟩
  | server c =>
    have hserver : c.state ≠ .closed := by rw [show c.state = .ready from hstate]; decide
    simp only [Endpoint.on, ServerConnection.on, if_neg hserver, Dispatcher.register]
    cases c.definition.client.keyOf tag with
    | ok key => exact .inl ⟨_, rfl, rfl⟩
    | error error => exact .inr ⟨error, rfl⟩

end Endpoint

/-! ## Where callbacks stand -/

theorem Registry.Alike.contains {a b : Registry} (h : a.Alike b) (tag : String) : a.contains tag = b.contains tag := by
  rw [Bool.eq_iff_iff, contains_iff, contains_iff, h.tags]

section Standing

variable {T S : Type} {registered : List (String × Listener)} {asked : List String} {handler : Option String}
  {reached : Prop}

theorem Session.Unrouted.readied {s s' : Session T S} (h : s.Unrouted s') :
    Journal.readied s'.journal = Journal.readied s.journal := by
  rw [← Journal.readied_runs, h.runs, Journal.readied_runs]

/-- A client that waits for the handshake, with all that was registered. -/
structure ClientConnection.Awaits (c : ClientConnection T S) (registered : List (String × Listener))
    (asked : List String) (handler : Option String) : Prop where
  state : c.state = .connecting ∨ c.state = .awaitingSchema
  dispatcher : ∃ closeCallbacks, c.session.dispatcher =
    { listeners := [], pending := registered, readyCallbacks := asked, closeCallbacks, errorCallback := handler }
  readied : Journal.readied c.session.journal = []

namespace Endpoint

/-- A ready connection. Under each tag that it can receive stand the listeners registered for it, and the ready
callbacks were called. -/
structure Routes (e : Endpoint T S) (registered : List (String × Listener)) (asked : List String)
    (handler : Option String) : Prop where
  state : e.state = .ready
  listeners : ∀ tag, e.session.inbound.contains tag = true →
    (e.session.dispatcher.listeners.filter fun entry => entry.1 == tag) = registered.filter fun entry => entry.1 == tag
  handler : e.session.dispatcher.errorCallback = handler
  readied : Journal.readied e.session.journal = asked

/-- A connection after a run with these registrations, that was ready at some time or never. -/
inductive Placed (registered : List (String × Listener)) (asked : List String) (handler : Option String)
    (reached : Prop) : Endpoint T S → Prop
  | waiting {c : ClientConnection T S} : c.Awaits registered asked handler → ¬reached →
      Placed registered asked handler reached (client c)
  | ready {e : Endpoint T S} : e.Routes registered asked handler → reached →
      Placed registered asked handler reached e
  | closed {e : Endpoint T S} : e.state = .closed → (reached → Journal.readied e.session.journal = asked) →
      (¬reached → Journal.readied e.session.journal = []) → Placed registered asked handler reached e

end Endpoint

namespace ClientConnection

variable [Transport T] [Scheduler S] {c : ClientConnection T S}

omit [Transport T] [Scheduler S] in
theorem Awaits.isReady (h : c.Awaits registered asked handler) : c.session.isReady = false := by
  obtain hstate | hstate := h.state <;> simp [Session.isReady, show c.session.state = _ from hstate]

/-- A first message makes a client ready or closes it. -/
theorem Awaits.onMessage (h : c.Awaits registered asked handler) (bytes : Bytes) :
    (Endpoint.client (c.onMessage bytes)).Placed registered asked handler ((c.onMessage bytes).state = .ready) := by
  obtain ⟨closeCallbacks, hdispatcher⟩ := h.dispatcher
  obtain ⟨handshake, -, hwelcomed⟩ | ⟨-, hclosed, hcallbacks⟩ := welcomed_or_closed h.state bytes
  · refine .ready ⟨hwelcomed.state, fun tag htag => ?_, ?_, ?_⟩ hwelcomed.state
    · have htag : handshake.server.contains tag = true := hwelcomed.inbound ▸ htag
      have hlisteners : (c.onMessage bytes).session.dispatcher.listeners =
          registered.filter fun entry => handshake.server.contains entry.1 := by
        rw [hwelcomed.listeners, hdispatcher]
        rfl
      -- the tag is known, so none of its listeners was dropped
      show ((c.onMessage bytes).session.dispatcher.listeners.filter _) = _
      rw [hlisteners, List.filter_filter]
      refine List.filter_congr fun entry _ => ?_
      by_cases hentry : entry.1 = tag
      · rw [hentry, htag, Bool.and_true]
      · rw [beq_false_of_ne hentry, Bool.false_and]
    · rw [← show c.session.dispatcher.errorCallback = handler by rw [hdispatcher]]
      exact hwelcomed.handler
    · show Journal.readied (c.onMessage bytes).session.journal = asked
      rw [← Journal.readied_callbacks, hwelcomed.callbacks, Journal.readied_append, Journal.readied_append,
        Journal.readied_callbacks, h.readied, hdispatcher]
      simp [Journal.readied]
  · have hreadied : Journal.readied (c.onMessage bytes).session.journal = [] := by
      rw [← Journal.readied_callbacks, hcallbacks, Journal.readied_callbacks, h.readied]
    refine .closed hclosed (fun hready => ?_) fun _ => hreadied
    rw [hclosed] at hready
    cases hready

theorem Awaits.neutral (h : c.Awaits registered asked handler) {call : Call} (hcall : call.Neutral) :
    ((Endpoint.client c).call call).Placed registered asked handler
      (((Endpoint.client c).call call).state = .ready) := by
  obtain ⟨closeCallbacks, hdispatcher⟩ := h.dispatcher
  have hunrouted := (Endpoint.client c).call_unrouted hcall
  have hreadied := hunrouted.readied.trans h.readied
  have hmessage : ∀ bytes, call ≠ .message bytes := by
    rintro bytes rfl
    exact hcall
  have hnot : ((Endpoint.client c).call call).state ≠ .ready := by
    intro hstate
    have hready : c.session.state = .ready := ((Endpoint.client c).call_of_not_message hmessage).1 hstate
    simpa [Session.isReady, hready] using h.isReady
  obtain ⟨c', hafter⟩ := Endpoint.call_client c call
  rw [hafter] at hunrouted hreadied hnot ⊢
  by_cases hclosed : c'.state = .closed
  · exact .closed hclosed (fun hready => absurd hready hnot) fun _ => hreadied
  · obtain hclosed' | ⟨closeCallbacks', hsame⟩ := hunrouted.dispatcher
    · exact absurd hclosed' hclosed
    · refine .waiting ⟨?_, ⟨closeCallbacks', ?_⟩, hreadied⟩ hnot
      · cases hstate : c'.state with
        | connecting => exact .inl rfl
        | awaitingSchema => exact .inr rfl
        | ready => exact absurd hstate hnot
        | closed => exact absurd hstate hclosed
      · have hsame' : c'.session.dispatcher = { c.session.dispatcher with closeCallbacks := closeCallbacks' } := hsame
        rw [hsame', hdispatcher]

/-- A call on a client that waits leaves it waiting, makes it ready or closes it. -/
theorem Awaits.call (h : c.Awaits registered asked handler) (call : Call) :
    ((Endpoint.client c).call call).Placed (registered ++ (Endpoint.client c).registers call)
      (asked ++ (Endpoint.client c).asks call) (call.errorCallback?.or handler)
      (((Endpoint.client c).call call).state = .ready) := by
  have hready := h.isReady
  have hnot : c.state ≠ .ready := by
    intro hstate
    rw [Session.isReady, show c.session.state = .ready from hstate] at hready
    cases hready
  have hopen : c.state ≠ .closed := by
    obtain hstate | hstate := h.state <;> rw [hstate] <;> decide
  obtain ⟨closeCallbacks, hdispatcher⟩ := h.dispatcher
  by_cases hneutral : call.Neutral
  · obtain ⟨hregisters, hasks, hcallback⟩ := (Endpoint.client c).adds_nothing hneutral
    rw [hregisters, hasks, hcallback, List.append_nil, List.append_nil]
    exact h.neutral hneutral
  cases call with
  | message bytes =>
    simp only [Endpoint.registers, Endpoint.asks, List.append_nil]
    exact h.onMessage bytes
  | on tag listener =>
    have hon : c.on tag listener =
        .ok { c with session := { c.session with dispatcher := c.session.dispatcher.defer tag listener } } := by
      unfold ClientConnection.on
      obtain hstate | hstate := h.state <;> rw [hstate]
    have hon' : (Endpoint.client c).on tag listener = .ok (.client _) := congrArg (Endpoint.client <$> ·) hon
    simp only [Endpoint.registers, Endpoint.call, hon', Endpoint.asks, List.append_nil]
    refine .waiting ⟨h.state, ⟨closeCallbacks, ?_⟩, h.readied⟩ hnot
    simp only [hdispatcher, Dispatcher.defer]
    rfl
  | onReady callback =>
    have hasks : (Endpoint.client c).asks (.onReady callback) = [callback] := if_neg hopen
    have hcall : (Endpoint.client c).call (.onReady callback) = .client
        { c with session := { c.session with dispatcher := c.session.dispatcher.onReady callback } } := by
      simp only [Endpoint.call, Endpoint.onReady, ClientConnection.onReady, hready]
      rfl
    rw [hasks, hcall]
    simp only [Endpoint.registers, List.append_nil]
    refine .waiting ⟨h.state, ⟨closeCallbacks, ?_⟩, h.readied⟩ hnot
    simp only [hdispatcher, Dispatcher.onReady]
    rfl
  | onError callback =>
    simp only [Endpoint.registers, Endpoint.asks, List.append_nil]
    refine .waiting ⟨h.state, ⟨closeCallbacks, ?_⟩, h.readied⟩ hnot
    simp only [Session.onError, Endpoint.session, hdispatcher, Dispatcher.onError]
    rfl
  | _ => exact absurd trivial hneutral

end ClientConnection

namespace Endpoint

variable [Transport T] [Scheduler S] {e : Endpoint T S}

theorem ready_or_closed (hstate : e.state = .ready) (call : Call) :
    (e.call call).state = .ready ∨ (e.call call).state = .closed := by
  have hforward := (e.call_did call).rank_le
  rw [show e.session.state = .ready from hstate] at hforward
  show (e.call call).session.state = _ ∨ (e.call call).session.state = _
  cases hafter : (e.call call).session.state with
  | connecting => rw [hafter] at hforward; exact absurd hforward (by decide)
  | awaitingSchema => rw [hafter] at hforward; exact absurd hforward (by decide)
  | ready => exact .inl rfl
  | closed => exact .inr rfl

theorem Routes.onMessage (h : e.Routes registered asked handler) (bytes : Bytes) :
    (e.onMessage bytes).Placed registered asked handler True := by
  have hrouted := onMessage_routed h.state bytes
  have hreadied : Journal.readied (e.onMessage bytes).session.journal = asked := by
    rw [← Journal.readied_callbacks, hrouted.callbacks, Journal.readied_append, Journal.readied_callbacks, h.readied,
      Listener.readied_rounds, List.append_nil]
  obtain ⟨_, _, _, htaken, -⟩ | ⟨-, hturned⟩ := onMessage_taken h.state bytes
  · have hdispatcher := hrouted.dispatcher htaken.state
    refine .ready ⟨htaken.state, ?_, ?_, hreadied⟩ trivial
    · rw [hdispatcher, htaken.inbound]
      exact h.listeners
    · rw [hdispatcher]
      exact h.handler
  · exact .closed hturned.state (fun _ => hreadied) fun hnever => absurd trivial hnever

theorem Routes.neutral (h : e.Routes registered asked handler) {call : Call} (hcall : call.Neutral) :
    (e.call call).Placed registered asked handler True := by
  have hunrouted := e.call_unrouted hcall
  have hreadied := hunrouted.readied.trans h.readied
  have hmessage : ∀ bytes, call ≠ .message bytes := by
    rintro bytes rfl
    exact hcall
  have halike := (e.call_of_not_message hmessage).2
  have hclosed : (e.call call).state = .closed → (e.call call).Placed registered asked handler True := fun hclosed =>
    .closed hclosed (fun _ => hreadied) fun hnever => absurd trivial hnever
  obtain hstate | hstate := ready_or_closed h.state call
  · obtain hclosed' | ⟨closeCallbacks, hdispatcher⟩ := hunrouted.dispatcher
    · exact hclosed hclosed'
    · refine .ready ⟨hstate, fun tag htag => ?_, ?_, hreadied⟩ trivial
      · rw [hdispatcher]
        exact h.listeners tag (halike.contains tag ▸ htag)
      · rw [hdispatcher]
        exact h.handler
  · exact hclosed hstate

/-- A listener is added behind the others if it is accepted. -/
theorem Routes.on (h : e.Routes registered asked handler) (tag : String) (listener : Listener) :
    (e.call (.on tag listener)).Routes (registered ++ e.registers (.on tag listener)) asked handler := by
  obtain ⟨e', hon, hsession⟩ | ⟨error, hon⟩ := on_ready h.state tag listener
  · have hcall : e.call (.on tag listener) = e' := by simp only [Endpoint.call, hon]
    have hregisters : e.registers (.on tag listener) = [(tag, listener)] := by simp only [registers, hon]
    have hstate : e'.session.state = .ready := hsession ▸ h.state
    rw [hcall, hregisters]
    refine ⟨hstate, ?_, ?_, ?_⟩
    · rw [hsession]
      intro tag' htag'
      rw [List.filter_append, List.filter_append, h.listeners tag' htag']
    · rw [hsession]
      exact h.handler
    · rw [hsession]
      exact h.readied
  · have hcall : e.call (.on tag listener) = e := by simp only [Endpoint.call, hon]
    have hregisters : e.registers (.on tag listener) = [] := by simp only [registers, hon]
    rw [hcall, hregisters, List.append_nil]
    exact h

/-- A ready client answers a ready callback at once. -/
theorem Routes.onReady (h : e.Routes registered asked handler) (callback : String) :
    (e.call (.onReady callback)).Routes registered (asked ++ e.asks (.onReady callback)) handler := by
  cases e with
  | client c =>
    have hready : c.session.isReady = true := by simp [Session.isReady, show c.session.state = .ready from h.state]
    have hasks : (client c).asks (.onReady callback) = [callback] :=
      if_neg (by rw [show c.state = .ready from h.state]; decide)
    have hcall : (client c).call (.onReady callback) =
        client { c with session := c.session.note [.ready callback] } := by
      simp only [Endpoint.call, Endpoint.onReady, ClientConnection.onReady, hready, if_true]
    rw [hasks, hcall]
    refine ⟨h.state, h.listeners, h.handler, ?_⟩
    have hreadied : Journal.readied c.session.journal = asked := h.readied
    show Journal.readied (c.session.journal ++ [.ready callback]) = asked ++ [callback]
    rw [Journal.readied_append, hreadied]
    rfl
  | server c =>
    simp only [asks, List.append_nil]
    exact h

theorem Routes.onError (h : e.Routes registered asked handler) (callback : String) :
    (e.call (.onError callback)).Routes registered asked (some callback) := by
  have hsession : (e.call (.onError callback)).session = e.session.onError callback := session_withSession _ _
  have hstate : (e.call (.onError callback)).session.state = .ready := hsession ▸ h.state
  refine ⟨hstate, ?_, ?_, ?_⟩
  · rw [hsession]
    exact h.listeners
  · rw [hsession]
    rfl
  · rw [hsession]
    exact h.readied

/-- A call on a ready connection leaves it ready or closes it. -/
theorem Routes.call (h : e.Routes registered asked handler) (call : Call) :
    (e.call call).Placed (registered ++ e.registers call) (asked ++ e.asks call) (call.errorCallback?.or handler)
      True := by
  by_cases hneutral : call.Neutral
  · obtain ⟨hregisters, hasks, hcallback⟩ := e.adds_nothing hneutral
    rw [hregisters, hasks, hcallback, List.append_nil, List.append_nil]
    exact h.neutral hneutral
  cases call with
  | message bytes =>
    simp only [registers, asks, List.append_nil]
    exact h.onMessage bytes
  | on tag listener =>
    simp only [asks, List.append_nil]
    exact .ready (h.on tag listener) trivial
  | onReady callback =>
    simp only [registers, List.append_nil]
    exact .ready (h.onReady callback) trivial
  | onError callback =>
    simp only [registers, asks, List.append_nil]
    exact .ready (h.onError callback) trivial
  | _ => exact absurd trivial hneutral

omit [Transport T] [Scheduler S] in
theorem Placed.readied (h : e.Placed registered asked handler reached) :
    (reached → Journal.readied e.session.journal = asked) ∧ (¬reached → Journal.readied e.session.journal = []) := by
  cases h with
  | waiting h hnever => exact ⟨fun hreached => absurd hreached hnever, fun _ => h.readied⟩
  | ready h hreached => exact ⟨fun _ => h.readied, fun hnever => absurd hreached hnever⟩
  | closed _ hrun hnone => exact ⟨hrun, hnone⟩

/-- The callbacks of a connection stay placed, whatever is called. -/
theorem Placed.call (h : e.Placed registered asked handler reached) (call : Call) :
    (e.call call).Placed (registered ++ e.registers call) (asked ++ e.asks call) (call.errorCallback?.or handler)
      (reached ∨ (e.call call).state = .ready) := by
  cases h with
  | waiting h hnever =>
    have hcall := h.call call
    rwa [or_iff_right hnever]
  | ready h hreached =>
    have hcall := h.call call
    rwa [← eq_true (Or.inl hreached : reached ∨ (e.call call).state = .ready)] at hcall
  | closed hstate hrun hnone =>
    have hstill := Session.still_of_did hstate (e.call_did call)
    have hreadied : Journal.readied (e.call call).session.journal = Journal.readied e.session.journal := by
      rw [← Journal.readied_runs, hstill.runs, Journal.readied_runs]
    have hasks : e.asks call = [] := by
      cases e with
      | client c =>
        cases call with
        | onReady callback => exact if_pos hstate
        | _ => rfl
      | server c => rfl
    have hnot : (e.call call).state ≠ .ready := by
      rw [show (e.call call).state = .closed from hstill.state]
      decide
    rw [or_iff_left hnot, hasks, List.append_nil]
    exact .closed hstill.state (fun hreached => hreadied.trans (hrun hreached)) fun hnever =>
      hreadied.trans (hnone hnever)

theorem New.placed {transport : T} (hnew : e.New transport) (calls : List Call) :
    (e.run calls).Placed (e.registered calls) (e.asked calls) (errorCallback calls)
      (∃ front, front <+: calls ∧ (e.run front).state = .ready) := by
  -- on the calls, the last of which is the one that was made
  induction calls using List.reverseRecOn with
  | nil =>
    cases hnew with
    | client scheduler config =>
      refine .waiting ⟨.inl rfl, ⟨[], rfl⟩, rfl⟩ ?_
      rintro ⟨front, hfront, hstate⟩
      obtain rfl := List.prefix_nil.1 hfront
      cases hstate
    | @server definition c scheduler _ haccept =>
      obtain ⟨_, _, _, counts, hserver⟩ := ServerConnection.serving_eq haccept
      have hready : (Endpoint.server c).state = .ready := by rw [hserver]; rfl
      refine .ready ⟨hready, fun tag _ => ?_, ?_, ?_⟩ ⟨[], List.nil_prefix, hready⟩
      · rw [hserver]
        rfl
      · rw [hserver]
        rfl
      · rw [hserver]
        show Journal.readied (counts.map .counted) = []
        simp [Journal.readied]
  | append_singleton calls call ih =>
    have hreached : (∃ front, front <+: calls ++ [call] ∧ (e.run front).state = .ready) ↔
        (∃ front, front <+: calls ∧ (e.run front).state = .ready) ∨ ((e.run calls).call call).state = .ready := by
      simp only [List.prefix_concat_iff, or_and_right, exists_or, exists_eq_left, run_append]
      exact or_comm
    have hcall := ih.call call
    rw [← hreached] at hcall
    rw [registered, asked, along_concat, along_concat, errorCallback_concat, run_append]
    exact hcall

end Endpoint

end Standing

/-! ## What runs let callbacks do -/

/-- What a message contains has tags of the registry. -/
theorem Registry.contains_of_mem_contents {registry : Registry} {bytes : Bytes} {packet : String × List Value}
    (h : packet ∈ registry.contents bytes) : registry.contains packet.1 = true := by
  cases bytes with
  | nil => cases h
  | cons key body =>
    rw [contents] at h
    split at h
    · cases h
    · rename_i found hkey
      split at h
      · cases h
      · obtain ⟨_, -, rfl⟩ := List.mem_map.1 h
        exact contains_iff.2 (List.mem_map_of_mem (List.mem_of_getElem? (byKey_eq_ok.1 hkey).2))

namespace Endpoint

variable {T S : Type} [Transport T] [Scheduler S] {e : Endpoint T S}

omit [Transport T] in
theorem contains_of_mem_dispatched {call : Call} {packet : String × List Value} (h : packet ∈ e.dispatched call) :
    e.session.inbound.contains packet.1 = true := by
  have hsession : ∀ (s : Session T S) (bytes : Bytes), packet ∈ s.dispatched bytes →
      s.inbound.contains packet.1 = true := by
    intro s bytes hmem
    unfold Session.dispatched at hmem
    split at hmem
    · exact Registry.contains_of_mem_contents hmem
    · cases hmem
  cases call with
  | message bytes =>
    cases e with
    | client c =>
      simp only [dispatched, ClientConnection.dispatched] at h
      split at h
      · exact hsession _ _ h
      · cases h
    | server c =>
      simp only [dispatched, ServerConnection.dispatched] at h
      split at h
      · split at h
        · exact hsession _ _ h
        · cases h
      · cases h
  | _ => cases h

omit [Transport T] in
theorem dispatched_of_ok {c : ClientConnection T S} {bytes : Bytes} (hstate : c.state = .ready)
    (h : (c.session.receive bytes).1 = .ok ()) :
    (client c).dispatched (.message bytes) = c.session.inbound.contents bytes := by
  have hready : c.session.isReady = true := by simp [Session.isReady, show c.session.state = .ready from hstate]
  have hall : (client c).dispatched (.message bytes) = c.session.dispatched bytes := if_pos hready
  rw [hall, Session.dispatched]
  generalize c.session.receive bytes = outcome at h
  obtain ⟨result, _⟩ := outcome
  cases h
  rfl

/-- Once it is ready a connection receives packets of the same tags to its end. -/
theorem inbound_run (hstate : e.state = .ready ∨ e.state = .closed) (calls : List Call) :
    (e.run calls).session.inbound.Alike e.session.inbound := by
  induction calls generalizing e with
  | nil => rfl
  | cons call calls ih =>
    have hnext : ((e.call call).state = .ready ∨ (e.call call).state = .closed) ∧
        (e.call call).session.inbound.Alike e.session.inbound := by
      obtain hstate | hstate := hstate
      · refine ⟨ready_or_closed hstate call, ?_⟩
        by_cases hmessage : ∃ bytes, call = .message bytes
        · obtain ⟨bytes, rfl⟩ := hmessage
          obtain ⟨_, _, _, htaken, -⟩ | ⟨-, hturned⟩ := onMessage_taken hstate bytes
          · exact congrArg (·.packets.map (·.setEnabled true)) htaken.inbound
          · exact congrArg (·.packets.map (·.setEnabled true)) hturned.inbound
        · exact (e.call_of_not_message fun bytes hbytes => hmessage ⟨bytes, hbytes⟩).2
      · refine ⟨.inr (Session.still_of_did hstate (e.call_did call)).state, ?_⟩
        by_cases hmessage : ∃ bytes, call = .message bytes
        · obtain ⟨bytes, rfl⟩ := hmessage
          rw [Endpoint.call, onMessage_of_closed hstate]
          rfl
        · exact (e.call_of_not_message fun bytes hbytes => hmessage ⟨bytes, hbytes⟩).2
    exact Eq.trans (ih hnext.1) hnext.2

/-- What a message makes callbacks do after a run. Packets are dealt out to the listeners that the run registered, which
may remember what they heard in it; a handshake is followed by a report of each that has no tag in it, and by the ready
callbacks. -/
def due (e : Endpoint T S) (calls : List Call) (bytes : Bytes) : Journal :=
  match (e.run calls).state with
  | .ready =>
    Listener.rounds (e.registered calls) (errorCallback calls) (Journal.heard (e.run calls).session.journal)
      ((e.run calls).dispatched (.message bytes))
  | .closed => []
  | .connecting | .awaitingSchema =>
    match Handshake.parse bytes with
    | .error _ => []
    | .ok handshake =>
      (((e.registered calls).filter fun entry => !handshake.server.contains entry.1).map fun entry =>
          .reported (errorCallback calls) (.unknownTag entry.1)) ++
        (e.asked calls).map .ready

theorem callbacks_message {transport : T} (hnew : e.New transport) (calls : List Call) (bytes : Bytes) :
    Journal.callbacks ((e.run calls).onMessage bytes).session.journal =
      Journal.callbacks (e.run calls).session.journal ++ e.due calls bytes := by
  have hplaced := hnew.placed calls
  unfold due
  generalize e.run calls = before at hplaced
  cases hplaced with
  | @waiting c h _ =>
    obtain ⟨closeCallbacks, hdispatcher⟩ := h.dispatcher
    have hdue : ∀ due : Journal, (match (client c).state with
        | .ready => Listener.rounds (e.registered calls) (errorCallback calls)
            (Journal.heard (client c).session.journal) ((client c).dispatched (.message bytes))
        | .closed => []
        | .connecting | .awaitingSchema => due) = due := by
      intro due
      obtain hstate | hstate := h.state <;> rw [show (client c).state = _ from hstate]
    rw [hdue]
    obtain ⟨handshake, hparse, hwelcomed⟩ | ⟨⟨error, hparse⟩, -, hcallbacks⟩ :=
      ClientConnection.welcomed_or_closed h.state bytes
    · rw [hparse]
      refine hwelcomed.callbacks.trans ?_
      rw [hdispatcher, List.append_assoc]
      rfl
    · rw [hparse]
      exact hcallbacks.trans (List.append_nil _).symm
  | ready h _ =>
    rw [h.state, (onMessage_routed h.state bytes).callbacks, h.handler]
    exact congrArg _ (Listener.rounds_congr (fun packet hpacket =>
      h.listeners packet.1 (contains_of_mem_dispatched hpacket)) _)
  | closed hstate _ _ =>
    rw [hstate, onMessage_of_closed hstate]
    exact (List.append_nil _).symm

/-- Without a message nothing is run, but for a ready callback that is answered at once. -/
theorem runs_call (e : Endpoint T S) {call : Call} (hcall : ∀ bytes, call ≠ .message bytes) :
    Journal.runs (e.call call).session.journal = Journal.runs e.session.journal ++ e.answers call := by
  have hnone : e.answers call = [] → Journal.runs (e.call call).session.journal = Journal.runs e.session.journal →
      Journal.runs (e.call call).session.journal = Journal.runs e.session.journal ++ e.answers call := by
    intro hanswers hruns
    rw [hanswers, hruns, List.append_nil]
  by_cases hneutral : call.Neutral
  · refine hnone ?_ (e.call_unrouted hneutral).runs
    cases e <;> cases call <;> first | rfl | exact hneutral.elim
  cases call with
  | message bytes => exact absurd rfl (hcall bytes)
  | on tag listener =>
    refine hnone (by cases e <;> rfl) ?_
    simp only [Endpoint.call]
    split
    · rename_i e' hon
      cases e with
      | client c =>
        obtain ⟨c', hon', rfl⟩ := Outcome.map_eq_ok.1 hon
        obtain ⟨_, rfl⟩ := ClientConnection.on_eq_ok hon'
        rfl
      | server c =>
        obtain ⟨c', hon', rfl⟩ := Outcome.map_eq_ok.1 hon
        obtain ⟨_, rfl⟩ := ServerConnection.on_eq_ok hon'
        rfl
    · rfl
  | onReady callback =>
    cases e with
    | client c =>
      show Journal.runs (c.onReady callback).session.journal = Journal.runs c.session.journal ++ _
      unfold ClientConnection.onReady
      by_cases hstate : c.state = .ready
      · have hready : c.session.isReady = true := by simp [Session.isReady, show c.session.state = .ready from hstate]
        have hanswers : (client c).answers (.onReady callback) = [.ready callback] := if_pos hstate
        rw [if_pos hready, hanswers]
        exact Journal.runs_append _ _
      · have hready : ¬ c.session.isReady = true := by
          simpa [Session.isReady] using show c.session.state ≠ .ready from hstate
        have hanswers : (client c).answers (.onReady callback) = [] := if_neg hstate
        rw [if_neg hready, hanswers]
        exact (List.append_nil _).symm
    | server c => exact hnone rfl rfl
  | onError callback => exact hnone (by cases e <;> rfl) (by cases e <;> rfl)
  | _ => exact absurd trivial hneutral

/-- Callbacks run as they were registered, in every run and for every message that may come next. A packet that comes in
is heard once by each listener of its tag, in the order of registration and whatever the others answer, and then each
failure is reported. Listeners that waited for the handshake and have no tag in it are each reported, and no packet
of such a tag comes in. Ready callbacks run once, in their order, if the connection was ready at some time, and none
runs if it never was. -/
theorem run_routes {transport : T} (hnew : e.New transport) (calls : List Call) :
    let before := e.run calls
    (∀ bytes, Journal.callbacks (before.onMessage bytes).session.journal =
        Journal.callbacks before.session.journal ++ e.due calls bytes) ∧
      (∀ call, (∀ bytes, call ≠ .message bytes) →
        Journal.runs (before.call call).session.journal =
          Journal.runs before.session.journal ++ before.answers call) ∧
      (∀ bytes handshake, before.state = .connecting ∨ before.state = .awaitingSchema →
        Handshake.parse bytes = .ok handshake →
        ∀ later call, ∀ packet ∈ (e.run (calls ++ .message bytes :: later)).dispatched call,
          handshake.server.contains packet.1 = true) ∧
      (∀ front, front <+: calls → (e.run front).state = .ready →
        Journal.readied before.session.journal = e.asked calls) ∧
      ((∀ front, front <+: calls → (e.run front).state ≠ .ready) → Journal.readied before.session.journal = []) := by
  intro before
  refine ⟨callbacks_message hnew calls, fun call hcall => runs_call before hcall, ?_, ?_, ?_⟩
  · intro bytes handshake hwaiting hparse later call packet hpacket
    obtain ⟨c, hclient, -⟩ := hnew.waiting calls hwaiting
    have hwaiting : c.state = .connecting ∨ c.state = .awaitingSchema := by
      rw [show before = client c from hclient] at hwaiting
      exact hwaiting
    obtain ⟨handshake', hparse', hwelcomed⟩ | ⟨⟨error, hparse'⟩, -⟩ :=
      ClientConnection.welcomed_or_closed hwaiting bytes
    · obtain rfl : handshake = handshake' := Except.ok.inj (hparse.symm.trans hparse')
      have hrun : e.run (calls ++ .message bytes :: later) = (client (c.onMessage bytes)).run later := by
        rw [run_append, hclient]
        rfl
      have halike := inbound_run (e := client (c.onMessage bytes)) (.inl hwelcomed.state) later
      rw [hrun] at hpacket
      rw [← show (c.onMessage bytes).session.inbound = handshake.server from hwelcomed.inbound]
      exact halike.contains packet.1 ▸ contains_of_mem_dispatched hpacket
    · rw [hparse] at hparse'
      cases hparse'
  · intro front hfront hready
    exact (hnew.placed calls).readied.1 ⟨front, hfront, hready⟩
  · intro hnever
    refine (hnew.placed calls).readied.2 ?_
    rintro ⟨front, hfront, hready⟩
    exact hnever front hfront hready

namespace Guest

def client : Endpoint Outbox Clock := .client (.start {} {} {})

/-- Registered before the handshake, one listener for a tag that the server lacks. -/
def early : List Call :=
  [.onReady "first", .on "chat" { name := "log" }, .on "nope" { name := "lost" }, .onError "oops", .onReady "second"]

/-- The server sends chat, and clients send nothing. -/
def greeting : Bytes := [84, 87, 73, 82, 1, 0, 137, 1, 4, 2, 0, 0, 0, 4, 99, 104, 97, 116, 0, 1]

/-- The chat says hi. -/
def hi : Bytes := [1, 2, 104, 105]

/-- Bears one call, and fails from the second on. -/
def picky : Listener where
  name := "picky"
  respond hearing := if hearing.earlier.any fun call => call.1 == "picky" then .error .notReady else .ok ()

/-- Behind the handshake, a listener that will fail and one that sends on. All is well when the chat says hi for the
first time. -/
def late : List Call :=
  early ++ [.message greeting, .on "chat" picky, .on "nope" { name := "lost" },
    .on "chat" { name := "echo", forward := some "chat" }, .onReady "third", .message hi]

/-- What becomes of a hi that nobody minds. -/
def cheer : Journal :=
  [.heard "log" [.string "hi"], .heard "picky" [.string "hi"], .heard "echo" [.string "hi"],
    .posted "chat" [.string "hi"]]

end Guest

/-- The same words again are dealt out to three listeners, in their order, and now one failure is reported. -/
theorem Guest.round_late : Listener.round (client.registered late) (errorCallback late) (Journal.heard cheer)
    ("chat", [.string "hi"]) =
      cheer ++ [.reported (some "oops") (.listener "chat: Connection has not completed the handshake")] := by
  have hregistered : client.registered late =
      [("chat", { name := "log" }), ("nope", { name := "lost" }), ("chat", picky),
        ("chat", { name := "echo", forward := some "chat" })] := by
    cbv
  have hhandler : errorCallback late = some "oops" := by cbv
  have htext : "chat" ++ ": " ++ ProtocolError.notReady.message =
      "chat: Connection has not completed the handshake" := by decide
  rw [hregistered, hhandler, ← htext]
  rfl

theorem Guest.due_late : client.due late hi =
    Listener.round (client.registered late) (errorCallback late) (Journal.heard cheer) ("chat", [.string "hi"]) := by
  have hheard : Journal.heard (client.run late).session.journal = Journal.heard cheer := by cbv
  have hstate : (client.run late).state = .ready := by cbv
  have hreceive : ((client.run late).session.receive hi).1 = .ok () := by
    rw [Session.receive_fst]
    cbv
  have hcontents : (client.run late).session.inbound.contents hi = [("chat", [.string "hi"])] := by cbv
  obtain ⟨c, hrun⟩ : ∃ c, client.run late = .client c := run_client _ late
  rw [hrun] at hheard hstate hreceive hcontents
  rw [due, hrun, hstate, dispatched_of_ok hstate hreceive, show c.session.inbound.contents hi = _ from hcontents, hheard]
  exact List.append_nil _

theorem run_routes_guest :
    Guest.client.New {} ∧
      Journal.callbacks ((Guest.client.run Guest.early).onMessage Guest.greeting).session.journal =
        [.reported (some "oops") (.unknownTag "nope"), .ready "first", .ready "second"] ∧
      Journal.callbacks ((Guest.client.run Guest.late).onMessage Guest.hi).session.journal =
        [.reported (some "oops") (.unknownTag "nope"), .ready "first", .ready "second", .ready "third"] ++
          Guest.cheer ++ (Guest.cheer ++
            [.reported (some "oops") (.listener "chat: Connection has not completed the handshake")]) ∧
      Journal.readied (Guest.client.run Guest.late).session.journal = ["first", "second", "third"] := by
  have hnew : Guest.client.New {} := .client _ _
  obtain ⟨hgreeting, -⟩ := run_routes hnew Guest.early
  obtain ⟨hhi, -, -, hreadied, -⟩ := run_routes hnew Guest.late
  refine ⟨hnew, (hgreeting Guest.greeting).trans (by cbv), ?_, ?_⟩
  · have hbefore : Journal.callbacks (Guest.client.run Guest.late).session.journal =
        [.reported (some "oops") (.unknownTag "nope"), .ready "first", .ready "second", .ready "third"] ++
          Guest.cheer := by
      cbv
    rw [hhi, hbefore, Guest.due_late, Guest.round_late]
  · have hready : (Guest.client.run (Guest.early ++ [.message Guest.greeting])).state = .ready := by cbv
    have hasked : Guest.client.asked Guest.late = ["first", "second", "third"] := by cbv
    rw [hreadied _ ⟨_, List.append_assoc _ _ _⟩ hready, hasked]

end Endpoint

end PacketProtocol
