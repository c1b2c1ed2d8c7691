import PacketProtocol.Proofs.Announcing
import PacketProtocol.Proofs.Isolation
import PacketProtocol.Proofs.Messages
/-!
# A broadcast is one send to each

A hub encodes what it broadcasts once, by its own registry, and hands the octets to its connections. They
send by the same registry, so it comes to the same as a send to each of them, one after the other.
-/

namespace PacketProtocol

/-! ## What keeps the registry of a connection -/

namespace ServerConnection

variable {T S : Type} [Transport T] [Scheduler S]

/-- Nothing that is done to a connection changes what it sends by. -/
theorem outbound_deed (c : ServerConnection T S) (deed : Deed) :
    (c.deed deed).session.outbound = c.session.outbound := by
  have hregistries : (c.deed deed).session.registries = c.session.registries := by
    cases deed with
    | message bytes => exact c.registries_onMessage bytes
    | timer kind => exact (Endpoint.server c).registries_onTimer kind
    | transportClosed code reason => exact c.session.registries_closedByPeer code reason
    | send tag values => exact (c.session.working_send tag values).registries
    | close code reason => exact c.session.registries_close code reason
    | on tag listener =>
      simp only [deed]
      cases hlistener : c.on tag listener with
      | error error => rfl
      | ok c' =>
        obtain ⟨_, rfl⟩ := on_eq_ok hlistener
        rfl
    | onClose callback => rfl
    | onError callback => rfl
  exact congrArg Prod.fst hregistries

omit [Scheduler S] in
theorem outbound_offer (c : ServerConnection T S) (key : UInt8) (payload : Bytes) :
    (ServerHub.offer key payload c).2.session.outbound = c.session.outbound := by
  have hsend := congrArg Prod.fst (c.session.working_sendEncoded key payload).registries
  simp only [ServerHub.offer, sendEncoded]
  generalize c.session.sendEncoded key payload = outcome at hsend
  obtain ⟨result, s⟩ := outcome
  cases result with
  | ok => exact hsend
  | error error => exact hsend

omit [Scheduler S] in
theorem outbound_hear (definition : Definition) (c : ServerConnection T S) (select : ServerConnection T S → Bool)
    (tag : String) (values : List Value) :
    (c.hear definition select tag values).session.outbound = c.session.outbound := by
  unfold hear
  split
  · split
    · exact c.outbound_offer _ _
    · rfl
  · rfl

omit [Transport T] [Scheduler S] in
/-- A report is handed to the connection's error callback. -/
@[simp]
theorem journal_report (c : ServerConnection T S) (error : ProtocolError) :
    (c.report error).session.journal =
      c.session.journal ++ [.reported c.session.dispatcher.errorCallback error] := rfl

end ServerConnection

/-! ## What happens to a hub -/

namespace ServerHub

variable {T S : Type}

/-- What happens to a hub: operations, bits that are set for all of its connections, and what goes on outside. -/
inductive Event (T S : Type) where
  | operation (operation : Operation T S)
  | switch (switch : Switch)
  /-- Transports and schedulers change by themselves. -/
  | outside (transport : Nat → T → T) (scheduler : Nat → S → S)

/-- The numbers increase, and every connection sends by the registry of the hub. -/
structure Uniform (hub : ServerHub T S) : Prop where
  increasing : hub.ids.Pairwise (· < ·)
  lt : ∀ id ∈ hub.ids, id < hub.nextId
  outbound : ∀ entry ∈ hub.connections, entry.2.session.outbound = hub.definition.server

variable {hub : ServerHub T S}

theorem uniform_empty (definition : Definition) : (empty definition : ServerHub T S).Uniform :=
  ⟨List.Pairwise.nil, by simp [empty, ids], by simp [empty]⟩

/-- A change of each connection by itself, that leaves it with the registry of the hub. -/
theorem Uniform.map (h : hub.Uniform) {definition : Definition}
    {change : Nat × ServerConnection T S → ServerConnection T S}
    (hchange : ∀ entry ∈ hub.connections, (change entry).session.outbound = definition.server) :
    Uniform { hub with
      definition, connections := hub.connections.map fun entry => (entry.1, change entry) } := by
  have hids : ids { hub with
      definition, connections := hub.connections.map fun entry => (entry.1, change entry) } = hub.ids := by
    simp [ids, Function.comp_def]
  refine ⟨hids ▸ h.increasing, hids ▸ h.lt, ?_⟩
  intro entry hentry
  obtain ⟨entry', hentry', rfl⟩ := List.mem_map.1 hentry
  exact hchange entry' hentry'

theorem Uniform.filter (h : hub.Uniform) (keep : Nat × ServerConnection T S → Bool) :
    Uniform { hub with connections := hub.connections.filter keep } :=
  ⟨h.increasing.sublist (List.filter_sublist.map _),
    fun id hid => h.lt id ((List.filter_sublist.map Prod.fst).subset hid),
    fun entry hentry => h.outbound entry (List.mem_of_mem_filter hentry)⟩

variable [Transport T] [Scheduler S]

def handle (hub : ServerHub T S) : Event T S → ServerHub T S
  | .operation operation => hub.step operation
  | .switch (.client tag enabled) => hub.setInboundEnabled tag enabled
  | .switch (.server tag enabled) => hub.setOutboundEnabled tag enabled
  | .outside transport scheduler =>
    { hub with
      connections := hub.connections.map fun (id, c) =>
        (id, { c with
          session := { c.session with
            transport := transport id c.session.transport
            scheduler := scheduler id c.session.scheduler } }) }

/-- The hub after some events. -/
def after (hub : ServerHub T S) (events : List (Event T S)) : ServerHub T S := events.foldl handle hub

theorem Uniform.step (h : hub.Uniform) (operation : Operation T S) : (hub.step operation).Uniform := by
  cases operation with
  | accept transport scheduler =>
    simp only [ServerHub.step]
    split
    · rename_i id hub' haccept
      obtain ⟨c, hserving, -, rfl⟩ := accept_eq_accepted haccept
      obtain ⟨_, _, _, _, rfl⟩ := ServerConnection.serving_eq hserving
      refine ⟨?_, ?_, ?_⟩
      · simp only [ids, List.map_append, List.map_cons, List.map_nil]
        refine List.pairwise_append.2 ⟨h.increasing, List.pairwise_singleton _ _, fun id hid next hnext => ?_⟩
        obtain rfl := List.mem_singleton.1 hnext
        exact h.lt id hid
      · intro id hid
        simp only [ids, List.map_append, List.map_cons, List.map_nil, List.mem_append, List.mem_singleton] at hid
        obtain hid | rfl := hid
        · exact Nat.lt_succ_of_lt (h.lt id hid)
        · exact Nat.lt_succ_self _
      · intro entry hentry
        obtain hentry | hentry := List.mem_append.1 hentry
        · exact h.outbound entry hentry
        · obtain rfl := List.mem_singleton.1 hentry
          rfl
    · exact h
    · exact h
  | own id deed =>
    refine h.map fun entry hentry => ?_
    dsimp only
    split
    · exact (entry.2.outbound_deed deed).trans (h.outbound entry hentry)
    · exact h.outbound entry hentry
  | remove id => exact h.filter _
  | prune => exact h.filter _
  | broadcast select tag values =>
    simp only [ServerHub.step]
    split
    · rename_i hbroadcast
      rw [broadcastTo_eq_ok hbroadcast]
      exact h.map fun entry hentry =>
        (entry.2.outbound_hear _ _ tag values).trans (h.outbound entry hentry)
    · exact h

theorem Uniform.handle (h : hub.Uniform) (event : Event T S) : (hub.handle event).Uniform := by
  cases event with
  | operation operation => exact h.step operation
  | switch switch =>
    cases switch with
    | client tag enabled => exact h.map fun entry hentry => h.outbound entry hentry
    | server tag enabled =>
      exact h.map fun entry hentry => congrArg (·.setEnabled tag enabled) (h.outbound entry hentry)
  | outside transport scheduler => exact h.map fun entry hentry => h.outbound entry hentry

theorem Uniform.after (h : hub.Uniform) (events : List (Event T S)) : (hub.after events).Uniform := by
  induction events generalizing hub with
  | nil => exact h
  | cons event events ih => exact ih (h.handle event)

end ServerHub

/-! ## Packets that may be sent -/

/-- Looking a tag up by its key is looking it up. -/
theorem Registry.Numbered.byTag_eq {registry : Registry} (h : registry.Numbered) (tag : String) :
    registry.byTag tag =
      match registry.packets.find? fun packet => packet.tag == tag with
      | some packet => .ok packet
      | none => .error (.unknownTag tag) := by
  cases hindex : registry.packets.findIdx? fun packet => packet.tag == tag with
  | none =>
    have hnone : (registry.packets.find? fun packet => packet.tag == tag) = none :=
      List.find?_eq_none.2 fun packet hpacket => by simpa using List.findIdx?_eq_none_iff.1 hindex packet hpacket
    simp only [byTag, keyOf, key?, hindex, hnone]
    rfl
  | some index =>
    obtain ⟨hlt, htag, hearlier⟩ := List.findIdx?_eq_some_iff_getElem.1 hindex
    have hfound : (registry.packets.find? fun packet => packet.tag == tag) = some registry.packets[index] :=
      List.find?_eq_some_iff_getElem.2 ⟨htag, index, hlt, rfl, fun other hother => by simpa using hearlier other hother⟩
    have hkey := h.byKey_of_getElem? (List.getElem?_eq_getElem hlt)
    simp only [byTag, keyOf, key?, hindex, hfound, Option.map_some]
    exact hkey

namespace ServerHub

variable {T S : Type} {hub : ServerHub T S} {tag : String} {values : List Value}

/-- Why a packet is sent to nobody: its tag is unknown, it is disabled, or its values cannot be encoded. -/
def refusal (hub : ServerHub T S) (tag : String) (values : List Value) : Option ProtocolError :=
  match hub.definition.server.packets.find? fun packet => packet.tag == tag with
  | none => some (.unknownTag tag)
  | some packet =>
    if packet.enabled then
      match packet.encode values with
      | .ok _ => none
      | .error error => some error
    else some (.packetDisabled tag)

/-- Numbers of the connections that are ready and selected, in the order of the hub. -/
def selected (hub : ServerHub T S) (select : Nat → ServerConnection T S → Bool) : List Nat :=
  (hub.connections.filter fun entry => entry.2.session.isReady && select entry.1 entry.2).map Prod.fst

theorem prepare_eq (hub : ServerHub T S) (tag : String) (values : List Value) :
    hub.prepare tag values = hub.definition.server.keyOf tag >>= fun key =>
      hub.definition.server.byKey key >>= fun packet =>
        if packet.enabled then (fun payload => (key, payload)) <$> packet.encode values
        else .error (.packetDisabled tag) := by
  unfold prepare
  refine congrArg _ (funext fun key => congrArg _ (funext fun packet => ?_))
  cases packet.enabled <;> rfl

theorem prepare_of_refusal (hnum : hub.definition.server.Numbered) (tag : String) (values : List Value) :
    match hub.refusal tag values with
    | some error => hub.prepare tag values = .error error
    | none => ∃ key payload, hub.prepare tag values = .ok (key, payload) := by
  have hbyTag := hnum.byTag_eq tag
  unfold refusal
  rw [prepare_eq]
  cases hfound : hub.definition.server.packets.find? fun packet => packet.tag == tag with
  | none =>
    rw [hfound] at hbyTag
    obtain hkeyOf | ⟨key, -, hbyKey⟩ := Outcome.bind_eq_error.1 hbyTag
    · rw [hkeyOf]
      rfl
    · cases Registry.byKey_eq_error hbyKey
  | some packet =>
    rw [hfound] at hbyTag
    obtain ⟨key, hkeyOf, hbyKey⟩ := Outcome.bind_eq_ok.1 hbyTag
    have hprepare : ∀ {α : Type} (rest : UInt8 → Packet → Result α), (hub.definition.server.keyOf tag >>= fun key =>
        hub.definition.server.byKey key >>= fun packet => rest key packet) = rest key packet := by
      intro α rest
      rw [hkeyOf]
      show (hub.definition.server.byKey key >>= fun packet => rest key packet) = _
      rw [hbyKey]
      rfl
    rw [hprepare]
    dsimp only
    cases packet.enabled with
    | false => rfl
    | true =>
      cases packet.encode values with
      | ok payload => exact ⟨key, payload, rfl⟩
      | error error => rfl

variable [Transport T]

/-! ## Sending to one after the other -/

/-- A send to one connection of a hub, that is counted if it succeeds, and reported to the connection if it fails. -/
def sendTo (tag : String) (values : List Value) (sent : Nat × ServerHub T S) (id : Nat) : Nat × ServerHub T S :=
  match sent.2.get? id with
  | none => sent
  | some c =>
    match c.send tag values with
    | (.ok (), c) => (sent.1 + 1, sent.2.modify id fun _ => c)
    | (.error e, c) => (sent.1, sent.2.modify id fun _ => c.report e)

/-- A send to each of these connections, one after the other: how many succeeded, and the hub after all of them. -/
def sendEach (hub : ServerHub T S) (tag : String) (values : List Value) (ids : List Nat) : Nat × ServerHub T S :=
  ids.foldl (sendTo tag values) (0, hub)

variable {key : UInt8} {payload : Bytes} {c : ServerConnection T S}

/-- A ready connection with the hub's registry sends what the hub encoded. -/
theorem send_eq (hprepare : hub.prepare tag values = .ok (key, payload)) (hready : c.session.isReady = true)
    (houtbound : c.session.outbound = hub.definition.server) : c.send tag values = c.sendEncoded key payload := by
  have hstate : c.session.state = .ready := by simpa [Session.isReady] using hready
  have hsession : c.session.prepare tag values = .ok (key, payload) := by
    simp only [Session.prepare, Session.ensureReady, hstate, houtbound]
    exact hprepare
  simp only [ServerConnection.send, Session.send, hsession, ServerConnection.sendEncoded]

variable {id : Nat} {done rest : List (Nat × ServerConnection T S)}

omit [Transport T] in
theorem get?_middle (hdone : ∀ entry ∈ done, entry.1 ≠ id) :
    get? { hub with connections := done ++ (id, c) :: rest } id = some c := by
  have hnone : (done.find? fun entry => entry.1 == id) = none :=
    List.find?_eq_none.2 fun entry hentry => by simpa using hdone entry hentry
  simp [get?, List.find?_append, hnone]

omit [Transport T] in
theorem modify_middle (hdone : ∀ entry ∈ done, entry.1 ≠ id) (hrest : ∀ entry ∈ rest, entry.1 ≠ id)
    (change : ServerConnection T S → ServerConnection T S) :
    modify { hub with connections := done ++ (id, c) :: rest } id change =
      { hub with connections := done ++ (id, change c) :: rest } := by
  have hsame : ∀ entries : List (Nat × ServerConnection T S), (∀ entry ∈ entries, entry.1 ≠ id) →
      (entries.map fun entry => (entry.1, if entry.1 = id then change entry.2 else entry.2)) = entries := by
    intro entries hentries
    refine (List.map_congr_left fun entry hentry => ?_).trans (List.map_id entries)
    rw [if_neg (hentries entry hentry)]
    rfl
  simp only [modify, List.map_append, List.map_cons, if_true, hsame done hdone, hsame rest hrest]

theorem sendTo_middle (hprepare : hub.prepare tag values = .ok (key, payload)) (hready : c.session.isReady = true)
    (houtbound : c.session.outbound = hub.definition.server) (hdone : ∀ entry ∈ done, entry.1 ≠ id)
    (hrest : ∀ entry ∈ rest, entry.1 ≠ id) (count : Nat) :
    sendTo tag values (count, { hub with connections := done ++ (id, c) :: rest }) id =
      (count + (offer key payload c).1.toNat,
        { hub with connections := done ++ (id, (offer key payload c).2) :: rest }) := by
  simp only [sendTo, get?_middle hdone, send_eq hprepare hready houtbound, offer]
  generalize c.sendEncoded key payload = outcome
  obtain ⟨result, c'⟩ := outcome
  cases result with
  | ok =>
    dsimp only
    rw [modify_middle hdone hrest]
    rfl
  | error error =>
    dsimp only
    rw [modify_middle hdone hrest]
    rfl

/-- What a broadcast makes of one connection, and whether it took the packet. -/
def offered (select : Nat → ServerConnection T S → Bool) (key : UInt8) (payload : Bytes)
    (entry : Nat × ServerConnection T S) : Bool × Nat × ServerConnection T S :=
  if entry.2.session.isReady && select entry.1 entry.2 then
    ((offer key payload entry.2).1, entry.1, (offer key payload entry.2).2)
  else (false, entry)

theorem foldl_sendTo (select : Nat → ServerConnection T S → Bool)
    (hprepare : hub.prepare tag values = .ok (key, payload)) (hids : ((done ++ rest).map Prod.fst).Nodup)
    (houtbound : ∀ entry ∈ rest, entry.2.session.outbound = hub.definition.server) (count : Nat) :
    ((rest.filter fun entry => entry.2.session.isReady && select entry.1 entry.2).map Prod.fst).foldl
        (sendTo tag values) (count, { hub with connections := done ++ rest }) =
      (count + rest.countP fun entry => (offered select key payload entry).1,
        { hub with connections := done ++ rest.map fun entry => (offered select key payload entry).2 }) := by
  -- on the connections that come yet; those before them are done
  induction rest generalizing done count with
  | nil => rfl
  | cons entry rest ih =>
    obtain ⟨id, c⟩ := entry
    have hnext : ∀ c' : ServerConnection T S, done ++ (id, c') :: rest = done ++ [(id, c')] ++ rest := fun c' => by simp
    have hids' : ∀ c' : ServerConnection T S, ((done ++ [(id, c')] ++ rest).map Prod.fst).Nodup := fun c' => by
      simpa using hids
    have houtbound' := fun entry hentry => houtbound entry (List.mem_cons_of_mem _ hentry)
    have hnew : id ∉ done.map Prod.fst ++ rest.map Prod.fst := by
      rw [List.map_append, List.map_cons, List.nodup_middle] at hids
      exact (List.nodup_cons.1 hids).1
    have hdone : ∀ entry ∈ done, entry.1 ≠ id := fun entry hentry hsame =>
      hnew (List.mem_append_left _ (hsame ▸ List.mem_map_of_mem hentry))
    have hrest : ∀ entry ∈ rest, entry.1 ≠ id := fun entry hentry hsame =>
      hnew (List.mem_append_right _ (hsame ▸ List.mem_map_of_mem hentry))
    rw [List.filter_cons, List.countP_cons, List.map_cons]
    by_cases hselected : (c.session.isReady && select id c) = true
    · have hready : c.session.isReady = true := (Bool.and_eq_true_iff.1 hselected).1
      have hoffered : offered select key payload (id, c) =
          ((offer key payload c).1, id, (offer key payload c).2) := if_pos hselected
      rw [if_pos hselected, List.map_cons, List.foldl_cons,
        sendTo_middle hprepare hready (houtbound _ List.mem_cons_self) hdone hrest, hnext, ih (hids' _) houtbound',
        hoffered]
      simp only [List.append_assoc, List.singleton_append, Prod.mk.injEq, and_true]
      cases (offer key payload c).1 with
      | false => simp
      | true =>
        simp
        omega
    · have hoffered : offered select key payload (id, c) = (false, id, c) := if_neg hselected
      rw [if_neg hselected, hnext, ih (hids' c) houtbound', hoffered]
      simp

theorem broadcastTo_eq (hub : ServerHub T S) (select : Nat → ServerConnection T S → Bool)
    (hprepare : hub.prepare tag values = .ok (key, payload)) :
    hub.broadcastTo select tag values = .ok
      (hub.connections.countP fun entry => (offered select key payload entry).1,
        { hub with connections := hub.connections.map fun entry => (offered select key payload entry).2 }) := by
  simp only [broadcastTo, hprepare, bind, Except.bind, pure, Except.pure, List.countP_map, List.map_map]
  rfl

/-- A broadcast of a packet that may be sent is one send to each selected connection. -/
theorem Uniform.broadcastTo (h : hub.Uniform) (select : Nat → ServerConnection T S → Bool)
    (hprepare : hub.prepare tag values = .ok (key, payload)) :
    hub.broadcastTo select tag values = .ok (hub.sendEach tag values (hub.selected select)) := by
  have hids : (([] ++ hub.connections).map Prod.fst).Nodup := h.increasing.imp Nat.ne_of_lt
  have hsends := foldl_sendTo select hprepare hids h.outbound 0
  rw [broadcastTo_eq hub select hprepare, sendEach, selected]
  exact congrArg Except.ok (by simpa using hsends.symm)

omit [Transport T] in
theorem Uniform.get?_iff (h : hub.Uniform) : hub.get? id = some c ↔ (id, c) ∈ hub.connections := by
  have hnodup : (hub.connections.map Prod.fst).Nodup := h.increasing.imp Nat.ne_of_lt
  have hmem : ∀ {c' : ServerConnection T S}, hub.get? id = some c' → (id, c') ∈ hub.connections := by
    intro c' hget
    obtain ⟨entry, hentry, rfl⟩ := Option.map_eq_some_iff.1 hget
    have hsame : entry.1 = id := by simpa using List.find?_some hentry
    exact hsame ▸ List.mem_of_find?_eq_some hentry
  refine ⟨hmem, fun hc => ?_⟩
  cases hget : hub.get? id with
  | none => exact absurd (List.mem_map_of_mem hc) (get?_eq_none_iff.1 hget)
  | some c' =>
    have hsame := List.inj_on_of_nodup_map hnodup (hmem hget) hc rfl
    rw [(Prod.mk.inj hsame).2]

omit [Transport T] in
theorem Uniform.mem_selected (h : hub.Uniform) (select : Nat → ServerConnection T S → Bool) :
    id ∈ hub.selected select ↔ ∃ c, hub.get? id = some c ∧ c.state = .ready ∧ select id c = true := by
  have hready : ∀ c : ServerConnection T S, c.session.isReady = true ↔ c.state = .ready := fun c => by
    simp [Session.isReady, ServerConnection.state]
  simp only [selected, List.mem_map, List.mem_filter, Bool.and_eq_true, hready, h.get?_iff]
  constructor
  · rintro ⟨⟨_, c⟩, ⟨hc, hstate, hselect⟩, rfl⟩
    exact ⟨c, hc, hstate, hselect⟩
  · rintro ⟨c, hc, hstate, hselect⟩
    exact ⟨(id, c), ⟨hc, hstate, hselect⟩, rfl⟩

/-- A connection that is offered a payload in vain has the error reported. -/
theorem journal_offered {select : Nat → ServerConnection T S → Bool} {error : ProtocolError}
    {c' : ServerConnection T S} (hselected : (c.session.isReady && select id c) = true)
    (hsend : c.sendEncoded key payload = (.error error, c')) :
    (offered select key payload (id, c)).2.2.session.journal =
      c'.session.journal ++ [.reported c.session.dispatcher.errorCallback error] := by
  have hdispatcher := (c.session.works_sendEncoded key payload).dispatcher
  have hsession : c'.session = (c.session.sendEncoded key payload).2 := congrArg (·.2.session) hsend.symm
  rw [offered, if_pos hselected, offer, hsend, ServerConnection.journal_report, hsession, hdispatcher]

/-- A connection whose send fails has the error reported by the broadcast. -/
theorem Uniform.journal_broadcast (h : hub.Uniform) {select : Nat → ServerConnection T S → Bool}
    {error : ProtocolError} {c' : ServerConnection T S} (hprepare : hub.prepare tag values = .ok (key, payload))
    (hselected : id ∈ hub.selected select) (hget : hub.get? id = some c)
    (hsend : c.send tag values = (.error error, c')) :
    ∃ count sent after, hub.broadcastTo select tag values = .ok (count, sent) ∧ sent.get? id = some after ∧
      after.session.journal = c'.session.journal ++ [.reported c.session.dispatcher.errorCallback error] := by
  obtain ⟨_, hget', hstate, hselect⟩ := (h.mem_selected select).1 hselected
  obtain rfl := Option.some.inj (hget.symm.trans hget')
  have hready : c.session.isReady = true := by simp [Session.isReady, show c.session.state = .ready from hstate]
  rw [send_eq hprepare hready (h.outbound _ (h.get?_iff.1 hget))] at hsend
  have hoffered : (fun entry => (offered select key payload entry).2) =
      fun entry : Nat × ServerConnection T S => (entry.1, (offered select key payload (entry.1, entry.2)).2.2) := by
    funext entry
    unfold offered
    split <;> rfl
  have hwanted : (c.session.isReady && select id c) = true := by simp [hready, hselect]
  refine ⟨_, _, _, broadcastTo_eq hub select hprepare, ?_, journal_offered hwanted hsend⟩
  rw [hoffered, get?_map hub fun id c => (offered select key payload (id, c)).2.2, hget]
  rfl

variable [Scheduler S]

theorem built_after (hbuilt : hub.definition.Built) (events : List (Event T S)) :
    (hub.after events).definition.Built := by
  induction events generalizing hub with
  | nil => exact hbuilt
  | cons event events ih =>
    refine ih ?_
    cases event with
    | operation operation => exact (hub.step_ids operation).1 ▸ hbuilt
    | switch switch =>
      cases switch with
      | client tag enabled => exact hbuilt.setClientEnabled tag enabled
      | server tag enabled => exact hbuilt.setServerEnabled tag enabled
    | outside transport scheduler => exact hbuilt

/-- Whatever happened to a hub, a broadcast of a packet that may not be sent fails, for the reason it may not,
and leaves the hub as it is. A broadcast of any other packet is one send to each connection that is ready and
selected, in the order of their numbers; it tells how many of the sends succeeded, and each failure is handed
to the connection's own error callback. -/
theorem broadcastTo_sends {definition : Definition} (hbuilt : definition.Built) (events : List (Event T S))
    (select : Nat → ServerConnection T S → Bool) (tag : String) (values : List Value) :
    let hub := (empty definition).after events
    (∀ error, hub.refusal tag values = some error → hub.broadcastTo select tag values = .error error ∧
        hub.step (.broadcast select tag values) = hub) ∧
      (hub.refusal tag values = none →
        hub.broadcastTo select tag values = .ok (hub.sendEach tag values (hub.selected select)) ∧
        hub.step (.broadcast select tag values) = (hub.sendEach tag values (hub.selected select)).2) ∧
      (hub.selected select).Pairwise (· < ·) ∧
      (∀ id, id ∈ hub.selected select ↔ ∃ c, hub.get? id = some c ∧ c.state = .ready ∧ select id c = true) ∧
      ∀ id c error c', hub.refusal tag values = none → id ∈ hub.selected select → hub.get? id = some c →
        c.send tag values = (.error error, c') → ∃ after, (hub.step (.broadcast select tag values)).get? id = some after ∧
          after.session.journal = c'.session.journal ++ [.reported c.session.dispatcher.errorCallback error] := by
  intro hub
  have huniform : hub.Uniform := (uniform_empty definition).after events
  have hstart : (empty definition : ServerHub T S).definition.Built := hbuilt
  have hnum : hub.definition.server.Numbered := (built_after hstart events).numbered.2
  have hrefusal := prepare_of_refusal hnum tag values
  refine ⟨fun error herror => ?_, fun hnone => ?_, ?_, fun id => huniform.mem_selected select,
    fun id c error c' hnone hselected hget hsend => ?_⟩
  · rw [herror] at hrefusal
    have hbroadcast : hub.broadcastTo select tag values = .error error := by
      simp only [ServerHub.broadcastTo, show hub.prepare tag values = .error error from hrefusal]
      rfl
    exact ⟨hbroadcast, by simp only [ServerHub.step, hbroadcast]⟩
  · rw [hnone] at hrefusal
    obtain ⟨key, payload, hprepare⟩ := hrefusal
    have hbroadcast := huniform.broadcastTo select hprepare
    exact ⟨hbroadcast, by simp only [ServerHub.step, hbroadcast]⟩
  · exact huniform.increasing.sublist (List.filter_sublist.map _)
  · rw [hnone] at hrefusal
    obtain ⟨key, payload, hprepare⟩ := hrefusal
    obtain ⟨_, sent, after, hbroadcast, hafter, hjournal⟩ := huniform.journal_broadcast hprepare hselected hget hsend
    exact ⟨after, by simp only [ServerHub.step, hbroadcast, hafter], hjournal⟩

namespace Bulletin

def news : Packet := { tag := "news", schema := { shape := .single ⟨.strings, 1, 2⟩ } }

theorem declared : ∀ packet ∈ [news], packet.Declared := by
  have hstrings : Schema.Declared news.schema := @Schema.Declared.single .strings 1 2 _ trivial rfl
  rw [List.forall_mem_singleton]
  exact .make hstrings (by rfl : Packet.make "news" _ = .ok _)

def made : Result Definition := Definition.make [] [news] .empty {}

/-- Of four connections the second has lost its wire, and the third is closed. -/
def events : List (Event Wire Clock) :=
  [.operation (.accept {} {}), .operation (.accept {} {}), .operation (.accept {} {}), .operation (.accept {} {}),
    .operation (.own 2 (.onError "oops")), .operation (.own 3 (.close .normal "bye")),
    .outside (fun id wire => if id = 2 then wire.close .normal "" else wire) fun _ clock => clock]

def select (id : Nat) (_ : ServerConnection Wire Clock) : Bool := id ≠ 4

end Bulletin

/-- One connection takes the news, and one is told through its error callback that it cannot be reached. -/
theorem broadcastTo_sends_bulletin :
    ∃ definition, Bulletin.made = .ok definition ∧ definition.Built ∧
      let hub := (empty definition).after Bulletin.events
      hub.refusal "news" [.string "rain"] = none ∧ hub.selected Bulletin.select = [1, 2] ∧
        hub.broadcastTo Bulletin.select "news" [.string "rain"] =
          .ok (hub.sendEach "news" [.string "rain"] [1, 2]) ∧
        (hub.sendEach "news" [.string "rain"] [1, 2]).1 = 1 ∧
        (∃ after, (hub.step (.broadcast Bulletin.select "news" [.string "rain"])).get? 2 = some after ∧
          Entry.reported (some "oops") .connectionClosed ∈ after.session.journal) ∧
        hub.refusal "news" [.int 7] = some (.encode (.mismatch "strings" "int")) ∧
        hub.broadcastTo Bulletin.select "news" [.int 7] = .error (.encode (.mismatch "strings" "int")) := by
  have hrun : (fun definition : Definition =>
      let hub := (empty definition).after Bulletin.events
      (hub.refusal "news" [.string "rain"], hub.selected Bulletin.select,
        (hub.sendEach "news" [.string "rain"] [1, 2]).1, hub.refusal "news" [.int 7],
        (hub.get? 2).map fun c => (c.session.dispatcher.errorCallback, (c.send "news" [.string "rain"]).1))) <$>
          Bulletin.made =
      .ok (none, [1, 2], 1, some (.encode (.mismatch "strings" "int")), some (some "oops", .error .connectionClosed)) := by
    cbv
  obtain ⟨definition, hmade, hrun⟩ := Outcome.map_eq_ok.1 hrun
  obtain ⟨hnone, hrun⟩ := Prod.mk.inj hrun
  obtain ⟨hselected, hrun⟩ := Prod.mk.inj hrun
  obtain ⟨hcount, hrun⟩ := Prod.mk.inj hrun
  obtain ⟨hsome, hlost⟩ := Prod.mk.inj hrun
  obtain ⟨c, hget, hlost⟩ := Option.map_eq_some_iff.1 hlost
  obtain ⟨hcallback, herror⟩ := Prod.mk.inj hlost
  have hbuilt : definition.Built := .make (by simp) Bulletin.declared hmade
  obtain ⟨-, hsends, -, -, hreports⟩ := broadcastTo_sends hbuilt Bulletin.events Bulletin.select "news" [.string "rain"]
  obtain ⟨hfails, -⟩ := broadcastTo_sends hbuilt Bulletin.events Bulletin.select "news" [.int 7]
  obtain ⟨after, hafter, hjournal⟩ :=
    hreports 2 c .connectionClosed _ hnone (by rw [hselected]; simp) hget (Prod.ext herror rfl)
  rw [hcallback] at hjournal
  refine ⟨definition, hmade, hbuilt, hnone, hselected, ?_, hcount, ⟨after, hafter, by simp [hjournal]⟩, hsome,
    (hfails _ hsome).1⟩
  have hbroadcast := (hsends hnone).1
  rwa [hselected] at hbroadcast

end ServerHub

end PacketProtocol
