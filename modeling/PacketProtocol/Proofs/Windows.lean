import PacketProtocol.Proofs.Dispatching
/-!
# Caps on what is received

A session counts the payloads of a message before it decodes them. As long as it stays ready it has
counted what its listeners heard since the rate window began, so no more is heard of a packet in one
window than its cap, and a message is refused for the rate exactly when it would pass the cap.
-/

namespace PacketProtocol

/-! ## Caps of registries -/

namespace Registry

variable {registry a b : Registry} {key : UInt8} {packet : Packet}

theorem cap_ofRegistry (hkey : registry.byKey key = .ok packet) :
    (RateLimiter.ofRegistry registry).cap key = packet.schema.rateLimit.toNat := by
  rcases byKey_eq_ok.1 hkey with ⟨hne, hget⟩
  simp [RateLimiter.cap, RateLimiter.allowance?, RateLimiter.ofRegistry, hne, hget]

/-- Enabled bits do not matter for caps. -/
theorem Alike.cap_ofRegistry (h : a.Alike b) (key : UInt8) :
    (RateLimiter.ofRegistry a).cap key = (RateLimiter.ofRegistry b).cap key := by
  have hlimits : ∀ registry : Registry, RateLimiter.ofRegistry registry =
      ⟨(registry.packets.map (·.setEnabled true)).map fun packet => ⟨packet.schema.rateLimit.toNat, 0⟩⟩ := by
    intro registry
    rw [List.map_map]
    rfl
  rw [hlimits, hlimits, h]

end Registry

theorem length_ofTag {α : Type} (tag : String) (entries : List (String × α)) :
    (ofTag tag entries).length = (entries.map Prod.fst).count tag := by
  induction entries with
  | nil => rfl
  | cons entry entries ih =>
    have hsplit : ofTag tag (entry :: entries) = ofTag tag [entry] ++ ofTag tag entries :=
      ofTag_append tag [entry] entries
    rw [hsplit, List.length_append, ih, List.map_cons, List.count_cons, Nat.add_comm]
    by_cases htag : entry.1 = tag <;> simp [ofTag, htag]

/-! ## What a session counted -/

namespace Session

variable {T S : Type} {s s' : Session T S} {bytes : Bytes} {key : UInt8} {packet : Packet} {payloads : List Bytes}
  {heard : List (String × List Value)}

/-- The session's counters have the caps of its packets, and counted what was heard of each. -/
structure Counted (heard : List (String × List Value)) (s : Session T S) : Prop where
  cap : ∀ key, s.receiveLimiter.cap key = (RateLimiter.ofRegistry s.inbound).cap key
  count : ∀ key packet, s.inbound.byKey key = .ok packet → s.receiveLimiter.Caps key →
    s.receiveLimiter.count key = (ofTag packet.tag heard).length

theorem counted_ofRegistry (h : s.receiveLimiter = .ofRegistry s.inbound) : s.Counted [] := by
  refine ⟨fun key => by rw [h], fun key packet _ _ => ?_⟩
  rw [h]
  exact RateLimiter.count_ofRegistry _ _

theorem Counted.reset (h : s.Counted heard) : Counted [] { s with receiveLimiter := s.receiveLimiter.reset } :=
  ⟨fun key => (RateLimiter.cap_reset _ _).trans (h.cap key), fun _ _ _ _ => RateLimiter.count_reset _ _⟩

theorem Counted.unreceived (h : s.Counted heard) (hnone : s.Unreceived s') : s'.Counted heard := by
  constructor
  · intro key
    rw [hnone.receiveLimiter, hnone.inbound.cap_ofRegistry, h.cap]
  · intro key packet hkey hcaps
    rcases hnone.inbound.byKey hkey with ⟨packet', hkey', hsame⟩
    have htag : packet'.tag = packet.tag := congrArg (·.tag) hsame
    rw [hnone.receiveLimiter] at hcaps ⊢
    rw [h.count key packet' hkey' hcaps, htag]

theorem TakenIn.length_ofTag (h : s.TakenIn bytes key packet payloads s') (tag : String) :
    (ofTag tag (s.dispatched bytes)).length = if packet.tag = tag then payloads.length else 0 := by
  rw [PacketProtocol.length_ofTag, h.dispatched, List.count_replicate]
  simp only [beq_iff_eq]

/-- What is taken in is counted, one for each payload. -/
theorem Counted.taken (h : s.Counted heard) (hnum : s.inbound.Numbered)
    (htaken : s.TakenIn bytes key packet payloads s') : s'.Counted (heard ++ s.dispatched bytes) := by
  rcases openMessage_eq_ok htaken.opened with ⟨body, rfl, hkey, -⟩
  have hcap := fun other => RateLimiter.cap_hitTimes payloads.length s.receiveLimiter key other
  constructor
  · intro other
    rw [htaken.receiveLimiter, hcap, htaken.inbound, h.cap]
  · intro other packet' hother hcaps
    rw [htaken.inbound] at hother
    rw [htaken.receiveLimiter, RateLimiter.Caps, hcap] at hcaps
    rw [htaken.receiveLimiter, ofTag_append, List.length_append, htaken.length_ofTag,
      ← h.count other packet' hother hcaps]
    by_cases hne : other = key
    · subst hne
      rcases Outcome.ok_unique hother hkey
      rw [if_pos rfl]
      rcases RateLimiter.hitTimes_iff.1 htaken.within with hzero | hfree | hroom
      · rw [hzero]
        rfl
      · exact absurd hcaps hfree
      · exact (RateLimiter.hitTimes_within hcaps hroom).2
    · rw [if_neg (hnum.tag_ne hkey hother hne), RateLimiter.count_hitTimes_of_ne hne]
      rfl

/-- No more is counted than the cap. -/
theorem TakenIn.count_le (h : s.TakenIn bytes key packet payloads s') {other : UInt8}
    (hcaps : s.receiveLimiter.Caps other) (hle : s.receiveLimiter.count other ≤ s.receiveLimiter.cap other) :
    s'.receiveLimiter.count other ≤ s.receiveLimiter.cap other := by
  rw [h.receiveLimiter]
  by_cases hne : other = key
  · subst hne
    rcases RateLimiter.hitTimes_iff.1 h.within with hzero | hfree | hroom
    · rw [hzero]
      exact hle
    · exact absurd hcaps hfree
    · rw [(RateLimiter.hitTimes_within hcaps hroom).2]
      exact hroom
  · rw [RateLimiter.count_hitTimes_of_ne hne]
    exact hle

/-! ## What is refused for the rate -/

/-- A message is refused for the rate if it opens and its payloads would pass the cap. -/
theorem receive_rateLimited_iff (hnum : s.inbound.Numbered) (hkey : s.inbound.byKey key = .ok packet) :
    (s.receive bytes).1 = .error (.rateLimited packet.tag) ↔
      ∃ payloads, s.openMessage bytes = .ok (key, packet, payloads) ∧ s.receiveLimiter.Caps key ∧
        s.receiveLimiter.cap key < s.receiveLimiter.count key + payloads.length := by
  rw [receive_fst]
  constructor
  · intro h
    rcases Outcome.bind_eq_error.1 h with hopen | ⟨⟨other, packet', payloads⟩, hopen, h⟩
    · cases openMessage_eq_error hopen
    · dsimp only at h
      split at h
      · -- payloads that do not decode are no matter of the rate
        rcases Outcome.bind_eq_error.1 h with hdecoded | ⟨_, -, h⟩
        · rcases Outcome.mapM_eq_error hdecoded with ⟨payload, -, hpayload⟩
          rcases Packet.decode_eq_error hpayload with ⟨fault, hfault⟩
          cases hfault
        · cases h
      · rename_i hpassed
        have htag : packet'.tag = packet.tag := by
          injection h with h
          injection h
        rcases openMessage_eq_ok hopen with ⟨body, -, hother, -⟩
        have hsame : other = key := by_contra fun hne => hnum.tag_ne hkey hother hne htag.symm
        subst hsame
        rcases Outcome.ok_unique hkey hother
        refine ⟨payloads, hopen, ?_⟩
        rw [RateLimiter.hitTimes_iff, not_or, not_or, not_not] at hpassed
        exact ⟨hpassed.2.1, Nat.lt_of_not_le hpassed.2.2⟩
  · rintro ⟨payloads, hopen, hcaps, hpassed⟩
    rw [hopen]
    refine if_neg fun hpass => ?_
    rcases RateLimiter.hitTimes_iff.1 hpass with hzero | hfree | hroom
    · exact ne_nil_of_openMessage hopen (List.length_eq_zero_iff.1 hzero)
    · exact hfree hcaps
    · exact Nat.not_le.2 hpassed hroom

/-- What becomes of a message depends on what is counted under its own key only. -/
theorem receive_fst_congr (hinbound : s'.inbound = s.inbound)
    (hcap : s'.receiveLimiter.cap key = s.receiveLimiter.cap key)
    (hcount : s'.receiveLimiter.count key = s.receiveLimiter.count key) (body : Bytes) :
    (s'.receive (key :: body)).1 = (s.receive (key :: body)).1 := by
  have hopen : s'.openMessage (key :: body) = s.openMessage (key :: body) := by
    simp only [openMessage, inboundPacket, hinbound]
  rw [receive_fst, receive_fst, hopen]
  cases hmessage : s.openMessage (key :: body) with
  | error error => rfl
  | ok opened =>
    rcases opened with ⟨other, packet, payloads⟩
    rcases openMessage_eq_ok hmessage with ⟨_, hbytes, -, -⟩
    cases hbytes
    have hpass : (s'.receiveLimiter.hitTimes key payloads.length).1 =
        (s.receiveLimiter.hitTimes key payloads.length).1 := by
      rw [Bool.eq_iff_iff, RateLimiter.hitTimes_iff, RateLimiter.hitTimes_iff, RateLimiter.Caps, RateLimiter.Caps,
        hcap, hcount]
    simp only [bind, Except.bind, hpass]

end Session

/-! ## First messages -/

namespace ClientConnection

variable {T S : Type} [Scheduler S] {c : ClientConnection T S}

/-- A client with a rate window begins to count when it learns of its packets. -/
theorem adopt_receiveLimiter (c : ClientConnection T S) (handshake : Handshake)
    (hwindow : (c.adopt handshake).rateWindow.isSome) :
    (c.adopt handshake).session.receiveLimiter = .ofRegistry (c.adopt handshake).session.inbound := by
  rcases c.session.activate_eq handshake.client handshake.server (rateWindowMs handshake.rateWindow) with
    ⟨_, _, hactivate⟩
  simp only [adopt, hactivate] at hwindow ⊢
  exact if_pos hwindow

variable [Transport T]

/-- After a first message a client has numbered packets, and if it goes on it counts them from the start. -/
theorem onMessage_waiting (hnum : c.session.inbound.Numbered)
    (hwaiting : c.state = .connecting ∨ c.state = .awaitingSchema) (bytes : Bytes) :
    (c.onMessage bytes).session.inbound.Numbered ∧
      ((c.onMessage bytes).state = .ready → (c.onMessage bytes).rateWindow.isSome →
        (c.onMessage bytes).session.Counted []) := by
  constructor
  · rcases onMessage_cases hwaiting bytes with hintroduced | hrefused
    · rcases hintroduced.registries with ⟨handshake, hparse, -, hinbound⟩
      rw [hinbound]
      exact (Handshake.parse_numbered hparse).2
    · rw [hrefused.inbound]
      exact hnum
  · have hcomplete : ∀ c : ClientConnection T S, (c.completeHandshake bytes).state = .ready →
        (c.completeHandshake bytes).rateWindow.isSome → (c.completeHandshake bytes).session.Counted [] := by
      intro c hready hwindow
      unfold completeHandshake at hready hwindow ⊢
      split
      · rename_i hparse
        rw [hparse] at hwindow
        exact Session.counted_ofRegistry (adopt_receiveLimiter _ _ hwindow)
      · -- a client that refuses is closed
        rename_i error hparse
        rw [hparse] at hready
        have hclosed : (c.stopExpiry.refuse error).state = .closed := Session.close_state _ _ _
        rw [hclosed] at hready
        cases hready
    unfold onMessage
    rcases hwaiting with hstate | hstate
    · rw [hstate]
      exact hcomplete _
    · rw [hstate]
      exact hcomplete _

end ClientConnection

/-! ## Runs of calls -/

/-- No more was heard of a packet than its cap, if it has one that can be passed. -/
def Registry.Within (registry : Registry) (heard : List (String × List Value)) : Prop :=
  ∀ key packet, registry.byKey key = .ok packet → (RateLimiter.ofRegistry registry).Caps key →
    (ofTag packet.tag heard).length ≤ packet.schema.rateLimit.toNat

theorem Registry.within_nil (registry : Registry) : registry.Within [] := fun _ _ _ _ => Nat.zero_le _

theorem Registry.Alike.within {a b : Registry} {heard : List (String × List Value)} (h : a.Alike b)
    (hwithin : b.Within heard) : a.Within heard := by
  intro key packet hkey hcaps
  rcases h.byKey hkey with ⟨packet', hkey', hsame⟩
  have htag : packet'.tag = packet.tag := congrArg (·.tag) hsame
  have hschema : packet'.schema = packet.schema := congrArg (·.schema) hsame
  rw [RateLimiter.Caps, h.cap_ofRegistry] at hcaps
  rw [← htag, ← hschema]
  exact hwithin key packet' hkey' hcaps

namespace Endpoint

variable {T S : Type}

/-- The rate window of a connection in milliseconds, if it has one. -/
def rateWindow : Endpoint T S → Option Nat
  | client connection => connection.rateWindow
  | server connection => connection.definition.rateWindow

/-- Where a connection stands that has heard these packets since its rate window began. -/
structure Windowed (heard : List (String × List Value)) (e : Endpoint T S) : Prop where
  numbered : e.session.inbound.Numbered
  waiting : e.state = .connecting ∨ e.state = .awaitingSchema → heard = []
  counted : e.state = .ready → e.rateWindow.isSome → e.session.Counted heard
  within : e.rateWindow.isSome → e.session.inbound.Within heard

variable [Transport T] [Scheduler S] {e : Endpoint T S} {heard : List (String × List Value)}

theorem rateWindow_call (e : Endpoint T S) {call : Call} (hcall : ∀ bytes, call ≠ .message bytes) :
    (e.call call).rateWindow = e.rateWindow := by
  cases e with
  | client c =>
    cases call with
    | message bytes => exact absurd rfl (hcall bytes)
    | opened =>
      show c.opened.rateWindow = c.rateWindow
      unfold ClientConnection.opened
      split <;> rfl
    | timer kind =>
      cases kind with
      | handshakeExpiry =>
        show c.expire.rateWindow = c.rateWindow
        simp only [ClientConnection.expire]
        split <;> rfl
      | _ => rfl
    | on tag listener =>
      simp only [Endpoint.call, Endpoint.on]
      cases hlistener : c.on tag listener with
      | error error => rfl
      | ok c' =>
        rcases ClientConnection.on_eq_ok hlistener with ⟨dispatcher, rfl⟩
        rfl
    | onReady callback =>
      show (c.onReady callback).rateWindow = c.rateWindow
      unfold ClientConnection.onReady
      split <;> rfl
    | _ => rfl
  | server c =>
    rw [ServerConnection.server_call]
    exact congrArg (fun config => rateWindowMs config.rateWindow) (c.call_keeps hcall).1

theorem rateWindow_onMessage (hready : e.state = .ready) (bytes : Bytes) :
    (e.onMessage bytes).rateWindow = e.rateWindow := by
  cases e with
  | client c =>
    have hstate : c.state = .ready := hready
    simp only [onMessage, rateWindow, ClientConnection.onMessage, hstate]
  | server c =>
    show (c.onMessage bytes).definition.rateWindow = c.definition.rateWindow
    rw [ServerConnection.onMessage_eq hready, (c.checkFirst_keeps bytes).1]

/-- Nothing is heard, and nothing is counted. -/
theorem Windowed.quiet (h : e.Windowed heard) {call : Call} (hquiet : call.Quiet) :
    (e.call call).Windowed heard := by
  have hcall : ∀ bytes, call ≠ .message bytes := by
    rintro bytes rfl
    exact hquiet
  have hnone := e.call_unreceived hquiet
  have hwindow := e.rateWindow_call hcall
  refine ⟨hnone.inbound.numbered h.numbered, fun hstate => h.waiting ?_, fun hready hsome => ?_, fun hsome => ?_⟩
  · -- what waits now has waited before
    have hrank := (e.call_did call).rank_le
    have hstate : (e.call call).session.state = .connecting ∨ (e.call call).session.state = .awaitingSchema := hstate
    show e.session.state = .connecting ∨ e.session.state = .awaitingSchema
    rcases hstate with hstate | hstate <;> rw [hstate] at hrank <;> cases hbefore : e.session.state <;>
      rw [hbefore] at hrank <;> simp [ConnectionState.rank] at hrank ⊢
  · exact (h.counted (hnone.ready hready) (hwindow ▸ hsome)).unreceived hnone
  · exact hnone.inbound.within (h.within (hwindow ▸ hsome))

/-- A window begins. -/
theorem Windowed.reset (h : e.Windowed heard) : (e.call (.timer .rateReset)).Windowed [] := by
  have hcall : ∀ bytes, Call.timer .rateReset ≠ .message bytes := nofun
  rcases e.call_of_not_message hcall with ⟨hready, hinbound⟩
  have hwindow := e.rateWindow_call hcall
  refine ⟨hinbound.numbered h.numbered, fun _ => rfl, fun hstate hsome => ?_, fun _ => Registry.within_nil _⟩
  have hnone := e.call_rateReset
  rw [if_pos (hready hstate)] at hnone
  exact (h.counted (hready hstate) (hwindow ▸ hsome)).reset.unreceived hnone

/-- A message is counted and heard, or it closes. -/
theorem Windowed.message (h : e.Windowed heard) (bytes : Bytes) :
    (e.onMessage bytes).Windowed (heard ++ e.dispatched (.message bytes)) := by
  by_cases hready : e.state = .ready
  · have hwindow := rateWindow_onMessage hready bytes
    rcases onMessage_taken hready bytes with ⟨key, packet, payloads, htaken, hall⟩ | ⟨hnone, hturned⟩
    · have hstate : (e.onMessage bytes).state = .ready := htaken.state
      have hcounted : e.rateWindow.isSome → (e.onMessage bytes).session.Counted (heard ++ e.session.dispatched bytes) :=
        fun hsome => (h.counted hready hsome).taken h.numbered htaken
      rw [hall]
      refine ⟨htaken.inbound ▸ h.numbered, ?_, fun _ hsome => hcounted (hwindow ▸ hsome), fun hsome => ?_⟩
      · rintro (hwaiting | hwaiting) <;> rw [hstate] at hwaiting <;> cases hwaiting
      · intro other packet' hother hcaps
        have hbefore := h.counted hready (hwindow ▸ hsome)
        have hafter := hcounted (hwindow ▸ hsome)
        have hcap : (e.onMessage bytes).session.receiveLimiter.cap other = e.session.receiveLimiter.cap other := by
          rw [htaken.receiveLimiter, RateLimiter.cap_hitTimes]
        rw [RateLimiter.Caps, ← hafter.cap] at hcaps
        have hcaps' : e.session.receiveLimiter.Caps other := by rwa [RateLimiter.Caps, ← hcap]
        rw [htaken.inbound] at hother
        have hlimit : e.session.receiveLimiter.cap other = packet'.schema.rateLimit.toNat := by
          rw [hbefore.cap, Registry.cap_ofRegistry hother]
        have hle : e.session.receiveLimiter.count other ≤ e.session.receiveLimiter.cap other := by
          rw [hbefore.count other packet' hother hcaps', hlimit]
          exact h.within (hwindow ▸ hsome) other packet' hother (by rwa [RateLimiter.Caps, ← hbefore.cap])
        rw [← hafter.count other packet' (htaken.inbound ▸ hother) hcaps, ← hlimit]
        exact htaken.count_le hcaps' hle
    · have hstate : (e.onMessage bytes).state = .closed := hturned.state
      rw [hnone, List.append_nil]
      refine ⟨hturned.inbound ▸ h.numbered, ?_, fun hready' => ?_, fun hsome => ?_⟩
      · rintro (hwaiting | hwaiting) <;> rw [hstate] at hwaiting <;> cases hwaiting
      · rw [hstate] at hready'
        cases hready'
      · rw [hturned.inbound]
        exact h.within (hwindow ▸ hsome)
  · rw [dispatched_of_not_ready hready, List.append_nil]
    by_cases hclosed : e.state = .closed
    · rw [onMessage_of_closed hclosed]
      exact h
    · cases e with
      | client c =>
        have hwaiting : c.state = .connecting ∨ c.state = .awaitingSchema := by
          have hready : c.state ≠ .ready := hready
          have hclosed : c.state ≠ .closed := hclosed
          cases hstate : c.state <;> simp_all
        rw [h.waiting hwaiting]
        rcases ClientConnection.onMessage_waiting h.numbered hwaiting bytes with ⟨hnum, hcounted⟩
        exact ⟨hnum, fun _ => rfl, hcounted, fun _ => Registry.within_nil _⟩
      | server c =>
        have hsame : (server c).onMessage bytes = server c :=
          congrArg server (ServerConnection.onMessage_of_not_ready hready bytes)
        rw [hsame]
        exact h

theorem Windowed.call (h : e.Windowed heard) {call : Call} (hcall : call ≠ .timer .rateReset) :
    (e.call call).Windowed (heard ++ e.dispatched call) := by
  by_cases hquiet : call.Quiet
  · have hnone : e.dispatched call = [] := by
      cases call with
      | message bytes => exact hquiet.elim
      | _ => rfl
    rw [hnone, List.append_nil]
    exact h.quiet hquiet
  · cases call with
    | message bytes => exact h.message bytes
    | timer kind =>
      cases kind with
      | rateReset => exact absurd rfl hcall
      | _ => exact absurd trivial hquiet
    | _ => exact absurd trivial hquiet

theorem Windowed.run (h : e.Windowed heard) {window : List Call} (hwindow : .timer .rateReset ∉ window) :
    (e.run window).Windowed (heard ++ e.history window) := by
  induction window generalizing e heard with
  | nil => exact (List.append_nil heard).symm ▸ h
  | cons call window ih =>
    rw [List.mem_cons, not_or] at hwindow
    have hrest := ih (h.call (Ne.symm hwindow.1)) hwindow.2
    rwa [List.append_assoc] at hrest

/-- New connections have heard nothing. -/
theorem New.windowed {transport : T} (h : e.New transport) : e.Windowed [] := by
  cases h with
  | client scheduler config => exact ⟨Registry.empty_numbered, fun _ => rfl, nofun, fun _ => Registry.within_nil _⟩
  | server scheduler hbuilt haccept =>
    rcases ServerConnection.serving_eq haccept with ⟨_, _, _, _, rfl⟩
    refine ⟨hbuilt.numbered.1, fun _ => rfl, fun _ hsome => Session.counted_ofRegistry (if_pos hsome), fun _ => ?_⟩
    exact Registry.within_nil _

/-- Whatever was called on a connection, a window in which nothing is heard may begin. -/
theorem New.window {transport : T} (h : e.New transport) {before : List Call}
    (hbefore : before = [] ∨ ∃ earlier, before = earlier ++ [.timer .rateReset]) : (e.run before).Windowed [] := by
  have hrun : ∀ calls : List Call, ∃ heard, (e.run calls).Windowed heard := by
    intro calls
    induction calls using List.reverseRecOn with
    | nil => exact ⟨[], h.windowed⟩
    | append_singleton calls call ih =>
      rcases ih with ⟨heard, hheard⟩
      rw [run_append]
      by_cases hcall : call = .timer .rateReset
      · exact ⟨[], hcall ▸ hheard.reset⟩
      · exact ⟨_, hheard.call hcall⟩
  rcases hbefore with rfl | ⟨earlier, rfl⟩
  · exact h.windowed
  · rcases hrun earlier with ⟨heard, hheard⟩
    rw [run_append]
    exact hheard.reset

/-! ## Messages of other packets -/

/-- A message that does not close counts nothing under other keys than its own. -/
theorem onMessage_other (hready : e.state = .ready) {bytes : Bytes} {key : UInt8} (hother : bytes.head? ≠ some key)
    (hafter : (e.onMessage bytes).state = .ready) :
    (e.onMessage bytes).session.inbound = e.session.inbound ∧
      (e.onMessage bytes).session.receiveLimiter.cap key = e.session.receiveLimiter.cap key ∧
      (e.onMessage bytes).session.receiveLimiter.count key = e.session.receiveLimiter.count key := by
  rcases onMessage_taken hready bytes with ⟨other, packet, payloads, htaken, -⟩ | ⟨-, hturned⟩
  · rcases Session.openMessage_eq_ok htaken.opened with ⟨body, rfl, -, -⟩
    have hne : key ≠ other := by
      rintro rfl
      exact hother rfl
    rw [htaken.receiveLimiter]
    exact ⟨htaken.inbound, RateLimiter.cap_hitTimes _ _ _ _, RateLimiter.count_hitTimes_of_ne hne _ _⟩
  · have hclosed : (e.onMessage bytes).state = .closed := hturned.state
    rw [hclosed] at hafter
    cases hafter

/-- A connection that is ready before and after a run is ready all the while. -/
theorem ready_call (hready : e.state = .ready) {call : Call} {calls : List Call}
    (hafter : (e.run (call :: calls)).state = .ready) : (e.call call).state = .ready := by
  have hfirst : e.session.state.rank ≤ (e.call call).session.state.rank := (e.call_did call).rank_le
  have hrest : (e.call call).state.rank ≤ (e.run (call :: calls)).state.rank := rank_le_run (e.call call) calls
  rw [show e.session.state = .ready from hready] at hfirst
  rw [hafter] at hrest
  show (e.call call).session.state = .ready
  have hrest : (e.call call).session.state.rank ≤ ConnectionState.ready.rank := hrest
  cases hstate : (e.call call).session.state <;> rw [hstate] at hfirst hrest <;>
    simp [ConnectionState.rank] at hfirst hrest ⊢

theorem run_others (hready : e.state = .ready) {key : UInt8} {others : List Bytes}
    (hothers : ∀ bytes ∈ others, bytes.head? ≠ some key) (hafter : (e.run (others.map .message)).state = .ready)
    (body : Bytes) :
    ((e.run (others.map .message)).session.receive (key :: body)).1 = (e.session.receive (key :: body)).1 := by
  induction others generalizing e with
  | nil => rfl
  | cons bytes others ih =>
    have hmiddle : (e.onMessage bytes).state = .ready := ready_call hready hafter
    rcases onMessage_other hready (hothers bytes (by simp)) hmiddle with ⟨hinbound, hcap, hcount⟩
    have hrest := ih hmiddle (fun b hb => hothers b (by simp [hb])) hafter
    exact hrest.trans (Session.receive_fst_congr hinbound hcap hcount body)

/-- In a rate window no more is heard of a packet than its cap. As long as the connection is ready, a message
is refused for the rate if it opens and its payloads would pass the cap, together with what was heard in this
window; then none of them is heard. Messages of other packets do not matter for this, unless they close. -/
theorem receive_capped {transport : T} (hnew : e.New transport) {before window : List Call}
    (hbefore : before = [] ∨ ∃ earlier, before = earlier ++ [.timer .rateReset])
    (hwindow : .timer .rateReset ∉ window) {key : UInt8} {packet : Packet}
    (hsome : (e.run (before ++ window)).rateWindow.isSome)
    (hkey : (e.run (before ++ window)).session.inbound.byKey key = .ok packet)
    (hpos : 0 < packet.schema.rateLimit) (hbound : packet.schema.rateLimit.toNat < 2 ^ 32 - 1) :
    let after := e.run (before ++ window)
    let heard := ofTag packet.tag ((e.run before).history window)
    heard.length ≤ packet.schema.rateLimit.toNat ∧
      (after.state = .ready → ∀ bytes,
        ((after.session.receive bytes).1 = .error (.rateLimited packet.tag) ↔
          ∃ payloads, after.session.openMessage bytes = .ok (key, packet, payloads) ∧
            packet.schema.rateLimit.toNat < heard.length + payloads.length) ∧
        ((after.session.receive bytes).1 = .error (.rateLimited packet.tag) →
          after.dispatched (.message bytes) = [] ∧
            Journal.heard (after.onMessage bytes).session.journal = Journal.heard after.session.journal)) ∧
      (after.state = .ready → ∀ others : List Bytes, (∀ bytes ∈ others, bytes.head? ≠ some key) →
        (after.run (others.map .message)).state = .ready → ∀ body,
          ((after.run (others.map .message)).session.receive (key :: body)).1 =
            (after.session.receive (key :: body)).1) ∧
      ∀ calls call, Journal.heard ((e.run calls).call call).session.journal =
        Journal.heard (e.run calls).session.journal ++
          (e.run calls).session.dispatcher.calls ((e.run calls).dispatched call) := by
  intro after heard
  have hwindowed : after.Windowed ((e.run before).history window) := by
    have hrun := (hnew.window hbefore).run hwindow
    rwa [List.nil_append, ← run_append] at hrun
  have hcap : (RateLimiter.ofRegistry after.session.inbound).cap key = packet.schema.rateLimit.toNat :=
    Registry.cap_ofRegistry hkey
  have hcaps : (RateLimiter.ofRegistry after.session.inbound).Caps key := by
    rw [RateLimiter.Caps, hcap]
    exact ⟨UInt32.lt_iff_toNat_lt.1 hpos, hbound⟩
  refine ⟨hwindowed.within hsome key packet hkey hcaps, fun hready bytes => ⟨?_, fun hlimited => ?_⟩,
    fun hready others hothers hafter body => run_others hready hothers hafter body,
    fun calls => (e.run calls).heard_call⟩
  · have hcounted := hwindowed.counted hready hsome
    have hcaps' : after.session.receiveLimiter.Caps key := by rwa [RateLimiter.Caps, hcounted.cap]
    rw [Session.receive_rateLimited_iff hwindowed.numbered hkey, hcounted.cap, hcap,
      hcounted.count key packet hkey hcaps']
    simp only [hcaps', true_and, heard]
  · have hnone : after.dispatched (.message bytes) = [] := by
      rcases onMessage_taken hready bytes with ⟨_, _, _, -, hall⟩ | ⟨hnone, -⟩
      · rw [hall]
        exact Session.dispatched_of_error hlimited
      · exact hnone
    have hheard := after.heard_call (.message bytes)
    rw [hnone] at hheard
    exact ⟨hnone, hheard.trans (List.append_nil _)⟩

namespace Chatter

/-- Two a window, in batches. -/
def say : Packet :=
  { tag := "say", schema := { shape := .single ⟨.intsDynamic, 1, 4⟩, rateLimit := 2, batchInterval := 50 } }

theorem declared : ∀ packet ∈ [say], packet.Declared := by
  have hints : Schema.Declared { shape := .single ⟨.intsDynamic, 1, 4⟩ } :=
    @Schema.Declared.single .intsDynamic 1 4 _ trivial rfl
  rw [List.forall_mem_singleton]
  exact .make ((hints.rateLimit 2).batching 50 0) (by rfl : Packet.make "say" _ = .ok _)

def server : Result (Endpoint Outbox Clock) := do
  let definition ← Definition.make [say] [] .empty {}
  match ServerConnection.accept definition ({} : Outbox) ({} : Clock) with
  | .serving connection => return .server connection
  | .refused error _ => .error error

theorem server_new {e : Endpoint Outbox Clock} (h : server = .ok e) : e.New {} := .serve declared (by simp) h

def one : Bytes := [1, 2, 1, 1]

def two : Bytes := [1, 2, 1, 1, 2, 1, 2]

def before : List Call := [.message two, .timer .rateReset]

def window : List Call := [.message one]

end Chatter

/-- Two are heard in one window and one in the next, but then not two more. -/
theorem receive_capped_chatter :
    ∃ e, Chatter.server = .ok e ∧ e.New {} ∧
      (ofTag "say" ((e.run Chatter.before).history Chatter.window)).length = 1 ∧
      ((e.run (Chatter.before ++ Chatter.window)).session.receive Chatter.two).1 = .error (.rateLimited "say") ∧
      (e.run (Chatter.before ++ Chatter.window)).dispatched (.message Chatter.two) = [] := by
  have hrun : (fun e => ((e.run (Chatter.before ++ Chatter.window)).state,
      (e.run (Chatter.before ++ Chatter.window)).rateWindow,
      (e.run (Chatter.before ++ Chatter.window)).session.inbound.byKey 1,
      (e.run (Chatter.before ++ Chatter.window)).session.openMessage Chatter.two,
      (ofTag "say" ((e.run Chatter.before).history Chatter.window)).length)) <$> Chatter.server =
        .ok (.ready, some 1000, .ok Chatter.say, .ok (1, Chatter.say, [[1, 1], [1, 2]]), 1) := by
    cbv
  rcases Outcome.map_eq_ok.1 hrun with ⟨e, hserver, hrun⟩
  rcases Prod.mk.inj hrun with ⟨hready, hrun⟩
  rcases Prod.mk.inj hrun with ⟨hrate, hrun⟩
  rcases Prod.mk.inj hrun with ⟨hkey, hrun⟩
  rcases Prod.mk.inj hrun with ⟨hopen, hlength⟩
  have hnew := Chatter.server_new hserver
  have hbefore : Chatter.before = [] ∨ ∃ earlier, Chatter.before = earlier ++ [.timer .rateReset] :=
    .inr ⟨[.message Chatter.two], rfl⟩
  have hwindow : .timer .rateReset ∉ Chatter.window := by simp [Chatter.window]
  rcases receive_capped hnew hbefore hwindow (by rw [hrate]; rfl) hkey (by decide) (by decide) with ⟨-, hlimited, -⟩
  rcases hlimited hready Chatter.two with ⟨hiff, hsilent⟩
  have hrefused := hiff.2 ⟨_, hopen, by
    rw [show Chatter.say.tag = "say" from rfl, hlength]
    decide⟩
  exact ⟨e, hserver, hnew, hlength, hrefused, (hsilent hrefused).1⟩

end Endpoint

end PacketProtocol
